import MStream.Device

/-!
`pblk_map_page_data` and `pblk_map_rq` (pblk-map.c) with what they write
outside the write buffer: the request's `ppa_list`, the lba each sector carries
in its out-of-band metadata (`meta_list`), the emeta lba list of the line and
its `nr_valid_lbas`. On the write buffer, the lines and the invalidations they
do what `Device.pblkMapPageData` and `Device.pblkMapRq` do
(`pblkMapPageDataMeta_fst`, `pblkMapRqMeta_fst`).

`pblk_map_rq` gives each unit of `min_write_pgs` sectors from `off` the count
`map_secs`: `min` while the unit ends within the valid sectors, and
`valid_secs % min` from the unit that passes them on, so every unit after the
one that holds the last valid sector also counts `valid_secs % min` sectors as
valid. The requests `pblk_submit_write` and recovery build have padding only in
their last unit, and on them the mapping is exact: each data sector's entry
gets the address `ppa_list` holds for it, each padded sector is invalidated,
and on a line with room the sectors go in order from `cur_sec`.

The line's reference count, its metadata write on replacement and the LUN
semaphores of `pblk_down_rq` are left out.
-/

namespace MStream.Device

open Machine Address RingBuffer Cache

/-- What pblk-map.c writes outside the write buffer. -/
structure MapMeta where
  /-- `rqd->ppa_list`, by sector of the request -/
  ppaList : Nat → PpaAddr
  /-- `rqd->meta_list[i].lba`, by sector of the request -/
  metaList : Nat → Nat
  /-- the emeta lba list of each line, by sector of the line -/
  lbaList : Nat → Nat → Nat
  /-- `line->nr_valid_lbas` of each line -/
  nrValidLbas : Nat → Nat

def mapMetaInit : MapMeta where
  ppaList := fun _ => .empty
  metaList := fun _ => addrEmpty
  lbaList := fun _ _ => addrEmpty
  nrValidLbas := fun _ => 0

def entryLba (d : DeviceState) (nrb pos : Nat) : Nat :=
  ((d.cache.rb nrb).entries (pblkRbWrapPos (d.cache.rb nrb) pos)).lba

variable (cfg : DeviceConfig)

/-- Sector `i` of the unit that starts at sector `off` of the request and at
entry `sentry`, allocated from sector `paddr` of line `lineId`. -/
def mapSectorMeta (nrb sentry off validSecs paddr lineId : Nat) (p : DeviceState × MapMeta) (i : Nat) :
    DeviceState × MapMeta :=
  let (d, m) := p
  let ppa := addrToGenPpa cfg.cache.l2p.ppaf (paddr + i) lineId
  let m := { m with ppaList := Function.update m.ppaList (off + i) ppa }
  if i < validSecs then
    let pos := pblkRbWrapPos (d.cache.rb nrb) (sentry + i)
    let lba := ((d.cache.rb nrb).entries pos).lba
    (d.setEntry nrb pos { (d.cache.rb nrb).entries pos with ppa := ppa },
      { m with metaList := Function.update m.metaList (off + i) lba
               lbaList := Function.update m.lbaList lineId (Function.update (m.lbaList lineId) (paddr + i) lba)
               nrValidLbas := Function.update m.nrValidLbas lineId (m.nrValidLbas lineId + 1) })
  else
    -- a padded sector carries `ADDR_EMPTY` and is invalid as soon as it is mapped
    ({ d with cache := d.cache.invalidate ppa },
      { m with metaList := Function.update m.metaList (off + i) addrEmpty
               lbaList := Function.update m.lbaList lineId (Function.update (m.lbaList lineId) (paddr + i) addrEmpty) })

/-- `pblk_map_page_data` for the unit at sector `off` of the request. -/
def pblkMapPageDataMeta (d : DeviceState) (m : MapMeta) (nrb sentry off validSecs : Nat) : DeviceState × MapMeta :=
  let (paddr, line) := pblkAllocPage cfg (d.dataLine nrb) cfg.minWritePgs
  let d := { d with dataLine := Function.update d.dataLine nrb line }
  let p := (List.range cfg.minWritePgs).foldl (mapSectorMeta cfg nrb sentry off validSecs paddr line.id) (d, m)
  (if line.leftMsecs = 0 then replaceDataLine cfg p.1 nrb else p.1, p.2)

/-- `map_secs` of the unit at sector `i`: `(i + min > valid_secs) ? (valid_secs % min) : min`. -/
def mapSecs (validSecs i : Nat) : Nat :=
  if validSecs < i + cfg.minWritePgs then validSecs % cfg.minWritePgs else cfg.minWritePgs

/-- Round `k` of `pblk_map_rq` from sector `off`: the unit at sector `off + k * min`. -/
def mapUnitMeta (nrb sentry validSecs off : Nat) (p : DeviceState × MapMeta) (k : Nat) : DeviceState × MapMeta :=
  let i := off + k * cfg.minWritePgs
  pblkMapPageDataMeta cfg p.1 p.2 nrb (sentry + i) i (mapSecs cfg validSecs i)

/-- `pblk_map_rq` from sector `off`: `for (i = off; i < nr_ppas; i += min)`. -/
def pblkMapRqMeta (d : DeviceState) (m : MapMeta) (nrb sentry validSecs off nrPpas : Nat) : DeviceState × MapMeta :=
  (List.range ((nrPpas - off + cfg.minWritePgs - 1) / cfg.minWritePgs)).foldl
    (mapUnitMeta cfg nrb sentry validSecs off) (d, m)

/-- What the mapping from sector `off` writes at sector `x` of `meta_list`:
the entry's lba while `x` lies within its unit's `map_secs`, `ADDR_EMPTY` past them. -/
def rqSlot (d : DeviceState) (nrb sentry validSecs off x : Nat) : Nat :=
  if (x - off) % cfg.minWritePgs <
      mapSecs cfg validSecs (off + (x - off) / cfg.minWritePgs * cfg.minWritePgs) then
    entryLba d nrb (sentry + x)
  else addrEmpty

/-! ## The buffer side is the Device model's -/

def mapSector (nrb sentry validSecs paddr lineId : Nat) (d : DeviceState) (i : Nat) : DeviceState :=
  let ppa := addrToGenPpa cfg.cache.l2p.ppaf (paddr + i) lineId
  if i < validSecs then
    let pos := pblkRbWrapPos (d.cache.rb nrb) (sentry + i)
    d.setEntry nrb pos { (d.cache.rb nrb).entries pos with ppa := ppa }
  else { d with cache := d.cache.invalidate ppa }

variable {cfg}

theorem mapSectorMeta_fst (nrb sentry off validSecs paddr lineId : Nat) (p : DeviceState × MapMeta) (i : Nat) :
    (mapSectorMeta cfg nrb sentry off validSecs paddr lineId p i).1 = mapSector cfg nrb sentry validSecs paddr lineId p.1 i := by
  unfold mapSectorMeta mapSector
  split_ifs <;> rfl

theorem pblkMapPageDataMeta_fst (d : DeviceState) (m : MapMeta) (nrb sentry off validSecs : Nat) :
    (pblkMapPageDataMeta cfg d m nrb sentry off validSecs).1 = pblkMapPageData cfg d nrb sentry validSecs := by
  unfold pblkMapPageDataMeta pblkMapPageData
  obtain ⟨paddr, line⟩ := pblkAllocPage cfg (d.dataLine nrb) cfg.minWritePgs
  dsimp only
  -- the loop's buffer part, step by step
  rw [foldl_fst (mapSectorMeta_fst nrb sentry off validSecs paddr line.id)]
  rfl

theorem pblkMapRqMeta_fst (d : DeviceState) (m : MapMeta) (nrb sentry validSecs nrPpas : Nat) :
    (pblkMapRqMeta cfg d m nrb sentry validSecs 0 nrPpas).1 = pblkMapRq cfg d nrb sentry validSecs nrPpas := by
  unfold pblkMapRqMeta pblkMapRq
  rw [Nat.sub_zero]
  apply foldl_fst
  intro p k
  rw [mapUnitMeta, Nat.zero_add, pblkMapPageDataMeta_fst]
  rfl

/-! ## What a unit writes in the request's metadata -/

/-- What the mapping leaves of a write buffer: the lba of every entry, and the
buffer's size, by which positions wrap. -/
structure LbasKept (nrb : Nat) (d d' : DeviceState) : Prop where
  lba : ∀ pos, ((d'.cache.rb nrb).entries pos).lba = ((d.cache.rb nrb).entries pos).lba
  nrEntries : (d'.cache.rb nrb).nrEntries = (d.cache.rb nrb).nrEntries

namespace LbasKept

variable {nrb : Nat} {d d' d'' : DeviceState}

theorem refl (nrb : Nat) (d : DeviceState) : LbasKept nrb d d := ⟨fun _ => rfl, rfl⟩

theorem trans (first : LbasKept nrb d d') (second : LbasKept nrb d' d'') : LbasKept nrb d d'' :=
  ⟨fun pos => (second.lba pos).trans (first.lba pos), second.nrEntries.trans first.nrEntries⟩

theorem of_rb (same : d'.cache.rb = d.cache.rb) : LbasKept nrb d d' := ⟨fun _ => by rw [same], by rw [same]⟩

theorem entryLba (kept : LbasKept nrb d d') (pos : Nat) : Device.entryLba d' nrb pos = Device.entryLba d nrb pos := by
  unfold Device.entryLba pblkRbWrapPos
  rw [kept.nrEntries, kept.lba]

end LbasKept

theorem mapSectorMeta_spec (nrb sentry off validSecs paddr lineId : Nat) (p : DeviceState × MapMeta) (i : Nat) :
    LbasKept nrb p.1 (mapSectorMeta cfg nrb sentry off validSecs paddr lineId p i).1 ∧
      (mapSectorMeta cfg nrb sentry off validSecs paddr lineId p i).2.metaList =
        Function.update p.2.metaList (off + i) (if i < validSecs then entryLba p.1 nrb (sentry + i) else addrEmpty) ∧
      ∀ id, (mapSectorMeta cfg nrb sentry off validSecs paddr lineId p i).2.nrValidLbas id =
        p.2.nrValidLbas id + if id = lineId ∧ i < validSecs then 1 else 0 := by
  obtain ⟨d, m⟩ := p
  unfold mapSectorMeta
  by_cases valid : i < validSecs
  · -- the entry gets the sector's address and keeps its lba
    simp only [valid, if_true]
    refine ⟨⟨fun pos => ?_, by simp [DeviceState.setEntry]⟩, rfl, fun id => ?_⟩
    · simp only [DeviceState.setEntry, CacheState.setRb_rb, if_true, Rb.setEntry_entries]
      split_ifs with same
      · rw [same]
      · rfl
    · by_cases same : id = lineId
      · simp [same]
      · simp [same]
  · simp only [valid, if_false, and_false]
    exact ⟨LbasKept.of_rb (CacheState.invalidate_rb _ _), trivial, fun _ => rfl⟩

theorem mapSectorMeta_dataLine (nrb sentry off validSecs paddr lineId : Nat) (p : DeviceState × MapMeta) (i : Nat) :
    (mapSectorMeta cfg nrb sentry off validSecs paddr lineId p i).1.dataLine = p.1.dataLine := by
  rw [mapSectorMeta_fst]
  unfold mapSector
  split <;> rfl

theorem mapSectorsMeta_kept (nrb sentry off validSecs paddr lineId j : Nat) (p : DeviceState × MapMeta) :
    LbasKept nrb p.1 ((List.range j).foldl (mapSectorMeta cfg nrb sentry off validSecs paddr lineId) p).1 ∧
      ((List.range j).foldl (mapSectorMeta cfg nrb sentry off validSecs paddr lineId) p).1.dataLine =
        p.1.dataLine :=
  foldl_rel (fun p q : DeviceState × MapMeta => LbasKept nrb p.1 q.1 ∧ q.1.dataLine = p.1.dataLine)
    (fun p => ⟨LbasKept.refl nrb p.1, rfl⟩)
    (fun {_ _ _} first second => ⟨first.1.trans second.1, second.2.trans first.2⟩)
    (fun p i => ⟨(mapSectorMeta_spec nrb sentry off validSecs paddr lineId p i).1,
      mapSectorMeta_dataLine nrb sentry off validSecs paddr lineId p i⟩)
    (List.range j) p

theorem window_extend {β : Type} (a b : β) {lo len n x : Nat} (outside : ¬(lo + len ≤ x ∧ x < lo + len + n)) :
    (if lo ≤ x ∧ x < lo + (len + n) then a else b) = if lo ≤ x ∧ x < lo + len then a else b := by
  by_cases old : lo ≤ x ∧ x < lo + len
  · rw [if_pos old, if_pos (show lo ≤ x ∧ x < lo + (len + n) by omega)]
  · rw [if_neg old, if_neg (show ¬(lo ≤ x ∧ x < lo + (len + n)) by omega)]

theorem mapSectorsMeta_metaList (nrb sentry off validSecs paddr lineId : Nat) (p : DeviceState × MapMeta) (j x : Nat) :
    ((List.range j).foldl (mapSectorMeta cfg nrb sentry off validSecs paddr lineId) p).2.metaList x =
      if off ≤ x ∧ x < off + j then
        (if x - off < validSecs then entryLba p.1 nrb (sentry + (x - off)) else addrEmpty)
      else p.2.metaList x := by
  induction j with
  | zero =>
    rw [if_neg (by omega)]
    rfl
  | succ j ih =>
    rw [foldl_range_succ, (mapSectorMeta_spec nrb sentry off validSecs paddr lineId _ j).2.1, Function.update_apply]
    by_cases new : x = off + j
    · -- sector `j` reads its entry's lba, which the sectors before it kept
      subst new
      rw [if_pos rfl, if_pos (show off ≤ off + j ∧ off + j < off + (j + 1) by omega), Nat.add_sub_cancel_left,
        (mapSectorsMeta_kept nrb sentry off validSecs paddr lineId j p).1.entryLba]
    · rw [if_neg new, ih, window_extend _ _ (by omega)]

theorem mapSectorsMeta_nrValidLbas (nrb sentry off validSecs paddr lineId : Nat) (p : DeviceState × MapMeta)
    (j id : Nat) :
    ((List.range j).foldl (mapSectorMeta cfg nrb sentry off validSecs paddr lineId) p).2.nrValidLbas id =
      p.2.nrValidLbas id + if id = lineId then min j validSecs else 0 := by
  induction j with
  | zero => simp
  | succ j ih =>
    rw [foldl_range_succ, (mapSectorMeta_spec nrb sentry off validSecs paddr lineId _ j).2.2, ih]
    by_cases same : id = lineId
    · simp only [same, true_and, if_true]
      split_ifs <;> omega
    · simp [same]

theorem pblkMapPageDataMeta_kept (d : DeviceState) (m : MapMeta) (nrb sentry off validSecs : Nat) :
    LbasKept nrb d (pblkMapPageDataMeta cfg d m nrb sentry off validSecs).1 := by
  unfold pblkMapPageDataMeta
  obtain ⟨paddr, line⟩ := pblkAllocPage cfg (d.dataLine nrb) cfg.minWritePgs
  have loop := (@mapSectorsMeta_kept cfg nrb sentry off validSecs paddr line.id cfg.minWritePgs
    ({ d with dataLine := Function.update d.dataLine nrb line }, m)).1
  have start : LbasKept nrb d { d with dataLine := Function.update d.dataLine nrb line } := LbasKept.of_rb rfl
  dsimp only
  split
  · -- a full line is replaced, which leaves the buffers alone
    exact (start.trans loop).trans (LbasKept.of_rb (congrArg CacheState.rb (replaceDataLine_cache cfg _ nrb)))
  · exact start.trans loop

theorem pblkMapPageDataMeta_metaList (d : DeviceState) (m : MapMeta) (nrb sentry off validSecs x : Nat) :
    (pblkMapPageDataMeta cfg d m nrb sentry off validSecs).2.metaList x =
      if off ≤ x ∧ x < off + cfg.minWritePgs then
        (if x - off < validSecs then entryLba d nrb (sentry + (x - off)) else addrEmpty)
      else m.metaList x := by
  unfold pblkMapPageDataMeta
  obtain ⟨paddr, line⟩ := pblkAllocPage cfg (d.dataLine nrb) cfg.minWritePgs
  exact mapSectorsMeta_metaList nrb sentry off validSecs paddr line.id _ cfg.minWritePgs x

theorem pblkMapPageDataMeta_nrValidLbas (d : DeviceState) (m : MapMeta) (nrb sentry off validSecs id : Nat) :
    (pblkMapPageDataMeta cfg d m nrb sentry off validSecs).2.nrValidLbas id =
      m.nrValidLbas id + if id = (d.dataLine nrb).id then min cfg.minWritePgs validSecs else 0 := by
  unfold pblkMapPageDataMeta
  rw [← pblkAllocPage_id cfg (d.dataLine nrb) cfg.minWritePgs]
  obtain ⟨paddr, line⟩ := pblkAllocPage cfg (d.dataLine nrb) cfg.minWritePgs
  exact mapSectorsMeta_nrValidLbas nrb sentry off validSecs paddr line.id _ cfg.minWritePgs id

theorem pblkMapPageDataMeta_dataLine (d : DeviceState) (m : MapMeta) (nrb sentry off validSecs : Nat)
    (room : (cfg.minWritePgs : Int) < (d.dataLine nrb).leftMsecs) :
    ((pblkMapPageDataMeta cfg d m nrb sentry off validSecs).1.dataLine nrb).id = (d.dataLine nrb).id ∧
      ((pblkMapPageDataMeta cfg d m nrb sentry off validSecs).1.dataLine nrb).leftMsecs =
        (d.dataLine nrb).leftMsecs - cfg.minWritePgs := by
  unfold pblkMapPageDataMeta
  have ids := pblkAllocPage_id cfg (d.dataLine nrb) cfg.minWritePgs
  have left := pblkAllocPage_leftMsecs cfg (d.dataLine nrb) cfg.minWritePgs
  generalize pblkAllocPage cfg (d.dataLine nrb) cfg.minWritePgs = alloc at ids left ⊢
  obtain ⟨paddr, line⟩ := alloc
  dsimp only at ids left ⊢
  rw [if_neg (by omega), (mapSectorsMeta_kept nrb sentry off validSecs paddr line.id cfg.minWritePgs _).2]
  simp only [Function.update_self]
  exact ⟨ids, left⟩

/-! ## What a request writes in its metadata -/

theorem mapSecs_le (hmin : 0 < cfg.minWritePgs) (validSecs i : Nat) : mapSecs cfg validSecs i ≤ cfg.minWritePgs := by
  unfold mapSecs
  split
  · exact (Nat.mod_lt validSecs hmin).le
  · exact Nat.le_refl _

theorem mapSecs_of_lt {validSecs i : Nat} (passes : validSecs < i + cfg.minWritePgs) :
    mapSecs cfg validSecs i = validSecs % cfg.minWritePgs :=
  if_pos passes

theorem mapSecs_of_le {validSecs i : Nat} (ends : i + cfg.minWritePgs ≤ validSecs) :
    mapSecs cfg validSecs i = cfg.minWritePgs :=
  if_neg (Nat.not_lt.mpr ends)

theorem mapUnitsMeta_kept (d : DeviceState) (m : MapMeta) (nrb sentry validSecs off k : Nat) :
    LbasKept nrb d ((List.range k).foldl (mapUnitMeta cfg nrb sentry validSecs off) (d, m)).1 :=
  foldl_rel (fun p q : DeviceState × MapMeta => LbasKept nrb p.1 q.1) (fun p => LbasKept.refl nrb p.1)
    (fun {_ _ _} first second => first.trans second)
    (fun p _ => pblkMapPageDataMeta_kept p.1 p.2 nrb _ _ _) (List.range k) (d, m)

theorem mapUnitsMeta_metaList (hmin : 0 < cfg.minWritePgs) (d : DeviceState) (m : MapMeta)
    (nrb sentry validSecs off k x : Nat) :
    ((List.range k).foldl (mapUnitMeta cfg nrb sentry validSecs off) (d, m)).2.metaList x =
      if off ≤ x ∧ x < off + k * cfg.minWritePgs then rqSlot cfg d nrb sentry validSecs off x
      else m.metaList x := by
  induction k with
  | zero =>
    rw [if_neg (by omega)]
    rfl
  | succ k ih =>
    rw [foldl_range_succ, mapUnitMeta, pblkMapPageDataMeta_metaList, Nat.succ_mul]
    by_cases unit : off + k * cfg.minWritePgs ≤ x ∧ x < off + k * cfg.minWritePgs + cfg.minWritePgs
    · -- `x` is sector `(x - off) % min` of unit `k`
      have q : (x - off) / cfg.minWritePgs = k := Nat.div_eq_of_lt_le (by omega) (by rw [Nat.succ_mul]; omega)
      have r : (x - off) % cfg.minWritePgs = x - (off + k * cfg.minWritePgs) := by
        have split := Nat.mod_add_div' (x - off) cfg.minWritePgs
        rw [q] at split
        omega
      rw [if_pos unit, if_pos (show off ≤ x ∧ x < off + (k * cfg.minWritePgs + cfg.minWritePgs) by omega), rqSlot,
        q, r, (mapUnitsMeta_kept d m nrb sentry validSecs off k).entryLba,
        show sentry + (off + k * cfg.minWritePgs) + (x - (off + k * cfg.minWritePgs)) = sentry + x by omega]
    · rw [if_neg unit, ih, window_extend _ _ unit]

theorem mapUnitsMeta_dataLine (d : DeviceState) (m : MapMeta) (nrb sentry validSecs off k : Nat)
    (room : ((k * cfg.minWritePgs : Nat) : Int) < (d.dataLine nrb).leftMsecs) :
    (((List.range k).foldl (mapUnitMeta cfg nrb sentry validSecs off) (d, m)).1.dataLine nrb).id =
        (d.dataLine nrb).id ∧
      (((List.range k).foldl (mapUnitMeta cfg nrb sentry validSecs off) (d, m)).1.dataLine nrb).leftMsecs =
        (d.dataLine nrb).leftMsecs - (k * cfg.minWritePgs : Nat) := by
  induction k with
  | zero => exact ⟨rfl, by simp⟩
  | succ k ih =>
    rw [Nat.succ_mul] at room
    obtain ⟨ids, left⟩ := ih (by omega)
    rw [foldl_range_succ, mapUnitMeta]
    generalize (List.range k).foldl (mapUnitMeta cfg nrb sentry validSecs off) (d, m) = p at ids left ⊢
    -- unit `k` starts with `min` sectors to spare on the line
    have spare : (cfg.minWritePgs : Int) < (p.1.dataLine nrb).leftMsecs := by
      rw [left]
      omega
    rw [(pblkMapPageDataMeta_dataLine p.1 p.2 nrb _ _ _ spare).1,
      (pblkMapPageDataMeta_dataLine p.1 p.2 nrb _ _ _ spare).2, ids, left, Nat.succ_mul]
    exact ⟨rfl, by omega⟩

theorem mapUnitsMeta_nrValidLbas (hmin : 0 < cfg.minWritePgs) (d : DeviceState) (m : MapMeta)
    (nrb sentry validSecs off k id : Nat) (room : ((k * cfg.minWritePgs : Nat) : Int) ≤ (d.dataLine nrb).leftMsecs) :
    ((List.range k).foldl (mapUnitMeta cfg nrb sentry validSecs off) (d, m)).2.nrValidLbas id =
      m.nrValidLbas id + if id = (d.dataLine nrb).id then
        ∑ j ∈ Finset.range k, mapSecs cfg validSecs (off + j * cfg.minWritePgs) else 0 := by
  induction k with
  | zero => simp
  | succ k ih =>
    -- unit `k` still finds the line the request started on
    have before : ((k * cfg.minWritePgs : Nat) : Int) < (d.dataLine nrb).leftMsecs := by
      rw [Nat.succ_mul] at room
      omega
    rw [foldl_range_succ, mapUnitMeta, pblkMapPageDataMeta_nrValidLbas, ih before.le,
      (mapUnitsMeta_dataLine d m nrb sentry validSecs off k before).1, Finset.sum_range_succ,
      min_eq_right (mapSecs_le hmin _ _)]
    split_ifs <;> omega

/-- From sector 0, the units before the one that holds sector `validSecs` count `min` each,
and that unit and every later one `validSecs % min`. -/
theorem sum_mapSecs (hmin : 0 < cfg.minWritePgs) (validSecs k : Nat) :
    ∑ j ∈ Finset.range k, mapSecs cfg validSecs (0 + j * cfg.minWritePgs) =
      min k (validSecs / cfg.minWritePgs) * cfg.minWritePgs +
        (k - validSecs / cfg.minWritePgs) * (validSecs % cfg.minWritePgs) := by
  induction k with
  | zero => simp
  | succ k ih =>
    rw [Finset.sum_range_succ, ih, Nat.zero_add]
    by_cases full : k < validSecs / cfg.minWritePgs
    · -- unit `k` ends within the valid sectors
      have ends : k * cfg.minWritePgs + cfg.minWritePgs ≤ validSecs :=
        calc k * cfg.minWritePgs + cfg.minWritePgs = (k + 1) * cfg.minWritePgs := (Nat.succ_mul k _).symm
          _ ≤ validSecs / cfg.minWritePgs * cfg.minWritePgs := Nat.mul_le_mul_right _ full
          _ ≤ validSecs := Nat.div_mul_le_self _ _
      rw [mapSecs_of_le ends, min_eq_left full.le, min_eq_left (show k + 1 ≤ validSecs / cfg.minWritePgs from full),
        Nat.sub_eq_zero_of_le full.le, Nat.sub_eq_zero_of_le (show k + 1 ≤ validSecs / cfg.minWritePgs from full),
        Nat.succ_mul]
      omega
    · -- unit `k` holds the last valid sector, or comes after it
      have passes : validSecs < k * cfg.minWritePgs + cfg.minWritePgs :=
        calc validSecs < validSecs / cfg.minWritePgs * cfg.minWritePgs + cfg.minWritePgs := Nat.lt_div_mul_add hmin
          _ ≤ k * cfg.minWritePgs + cfg.minWritePgs := Nat.add_le_add_right (Nat.mul_le_mul_right _ (by omega)) _
      rw [mapSecs_of_lt passes, min_eq_right (by omega), min_eq_right (by omega),
        show k + 1 - validSecs / cfg.minWritePgs = k - validSecs / cfg.minWritePgs + 1 by omega, Nat.succ_mul]
      omega

theorem units_of_whole (hmin : 0 < cfg.minWritePgs) {nrPpas : Nat} (whole : nrPpas % cfg.minWritePgs = 0) :
    (nrPpas - 0 + cfg.minWritePgs - 1) / cfg.minWritePgs = nrPpas / cfg.minWritePgs := by
  have cover := Nat.div_mul_cancel (Nat.dvd_of_mod_eq_zero whole)
  apply Nat.div_eq_of_lt_le
  · omega
  · rw [Nat.succ_mul]
    omega

/-- Where the padding lies within the last unit, or there is none past whole
units, a sector lies within its unit's `map_secs` exactly when it is one of the
`validSecs` data sectors. -/
theorem mapSecs_counts (hmin : 0 < cfg.minWritePgs) {validSecs nrPpas x : Nat} (inside : x < nrPpas)
    (aligned : validSecs % cfg.minWritePgs = 0 ∨ nrPpas ≤ (validSecs / cfg.minWritePgs + 1) * cfg.minWritePgs) :
    x % cfg.minWritePgs < mapSecs cfg validSecs (x / cfg.minWritePgs * cfg.minWritePgs) ↔ x < validSecs := by
  -- `x` is sector `x % min` of the unit at `x / min * min`
  have unit := Nat.mod_add_div' x cfg.minWritePgs
  have vunit := Nat.mod_add_div' validSecs cfg.minWritePgs
  have low := Nat.mod_lt x hmin
  by_cases valid : x < validSecs
  · refine iff_of_true ?_ valid
    by_cases passes : validSecs < x / cfg.minWritePgs * cfg.minWritePgs + cfg.minWritePgs
    · -- the unit of `x` holds the last valid sector
      have same : validSecs / cfg.minWritePgs = x / cfg.minWritePgs :=
        Nat.div_eq_of_lt_le (by omega) (by rw [Nat.succ_mul]; exact passes)
      rw [mapSecs_of_lt passes]
      rw [same] at vunit
      omega
    · rw [mapSecs_of_le (by omega)]
      exact low
  · refine iff_of_false ?_ valid
    by_cases zero : validSecs % cfg.minWritePgs = 0
    · rw [mapSecs_of_lt (by omega), zero]
      exact Nat.not_lt_zero _
    · -- the padding ends in the unit of the last valid sector, which is then `x`'s
      have short := aligned.resolve_left zero
      have same : x / cfg.minWritePgs = validSecs / cfg.minWritePgs :=
        Nat.div_eq_of_lt_le (by omega) (by omega)
      rw [mapSecs_of_lt (by omega)]
      rw [same] at unit
      omega

/-- Where the padding lies within the last unit, or there is none past whole
units, `rqSlot` is the metadata the mapping is meant to write: the entry's lba at
every valid sector and `ADDR_EMPTY` at every padded one. -/
theorem rqSlot_of_aligned (hmin : 0 < cfg.minWritePgs) (d : DeviceState) (nrb sentry validSecs nrPpas x : Nat)
    (inside : x < nrPpas)
    (aligned : validSecs % cfg.minWritePgs = 0 ∨ nrPpas ≤ (validSecs / cfg.minWritePgs + 1) * cfg.minWritePgs) :
    rqSlot cfg d nrb sentry validSecs 0 x = if x < validSecs then entryLba d nrb (sentry + x) else addrEmpty := by
  unfold rqSlot
  rw [Nat.sub_zero, Nat.zero_add]
  exact if_congr (mapSecs_counts hmin inside aligned) rfl rfl

/-- The requests the write thread builds, with padding only in their last unit,
are mapped as the design means: `meta_list` holds each valid entry's lba and
`ADDR_EMPTY` at each padded sector, and a line with room for the request counts
`validSecs` sectors. -/
theorem map_rq_meta_exact (hmin : 0 < cfg.minWritePgs) (d : DeviceState) (m : MapMeta)
    (nrb sentry validSecs nrPpas : Nat) (whole : nrPpas % cfg.minWritePgs = 0) (fits : validSecs ≤ nrPpas)
    (aligned : validSecs % cfg.minWritePgs = 0 ∨ nrPpas ≤ (validSecs / cfg.minWritePgs + 1) * cfg.minWritePgs) :
    (∀ x < nrPpas, (pblkMapRqMeta cfg d m nrb sentry validSecs 0 nrPpas).2.metaList x =
        if x < validSecs then entryLba d nrb (sentry + x) else addrEmpty) ∧
      ((nrPpas : Int) ≤ (d.dataLine nrb).leftMsecs →
        (pblkMapRqMeta cfg d m nrb sentry validSecs 0 nrPpas).2.nrValidLbas (d.dataLine nrb).id =
          m.nrValidLbas (d.dataLine nrb).id + validSecs) := by
  have cover : nrPpas / cfg.minWritePgs * cfg.minWritePgs = nrPpas :=
    Nat.div_mul_cancel (Nat.dvd_of_mod_eq_zero whole)
  unfold pblkMapRqMeta
  rw [units_of_whole hmin whole]
  refine ⟨fun x inside => ?_, fun room => ?_⟩
  · rw [mapUnitsMeta_metaList hmin, if_pos ⟨Nat.zero_le _, by rw [Nat.zero_add, cover]; exact inside⟩]
    exact rqSlot_of_aligned hmin d nrb sentry validSecs nrPpas x inside aligned
  · rw [mapUnitsMeta_nrValidLbas hmin _ _ _ _ _ _ _ _ (by rw [cover]; exact room), if_pos rfl, sum_mapSecs hmin]
    have split := Nat.mod_add_div' validSecs cfg.minWritePgs
    have reach : validSecs / cfg.minWritePgs ≤ nrPpas / cfg.minWritePgs :=
      Nat.le_of_mul_le_mul_right (show _ ≤ nrPpas / cfg.minWritePgs * cfg.minWritePgs by omega) hmin
    by_cases zero : validSecs % cfg.minWritePgs = 0
    · rw [min_eq_right reach, zero, Nat.mul_zero]
      omega
    · -- the valid sectors end inside the last unit
      have last : nrPpas / cfg.minWritePgs = validSecs / cfg.minWritePgs + 1 := by
        apply le_antisymm
        · exact Nat.le_of_mul_le_mul_right (show _ ≤ (validSecs / cfg.minWritePgs + 1) * cfg.minWritePgs by
            rw [cover]; exact aligned.resolve_left zero) hmin
        · exact Nat.lt_of_mul_lt_mul_right (show _ < nrPpas / cfg.minWritePgs * cfg.minWritePgs by omega)
      rw [last, min_eq_right (Nat.le_succ _), Nat.add_sub_cancel_left, Nat.one_mul]
      omega

/-! ## Where the sectors go -/

/-- Sector `x` of a request from entry `sentry` whose first `validSecs` sectors
carry data, as the mapping leaves it: a data sector's entry holds the address
`ppa_list` gives the sector, and a padded sector's address is invalidated. -/
def SectorPlaced (nrb sentry validSecs : Nat) (p : DeviceState × MapMeta) (x : Nat) : Prop :=
  (x < validSecs →
      ((p.1.cache.rb nrb).entries (pblkRbWrapPos (p.1.cache.rb nrb) (sentry + x))).ppa = p.2.ppaList x) ∧
    (validSecs ≤ x → p.2.ppaList x ∈ p.1.cache.invalidated)

/-- Sector `x` of a request laid on line `lineId` from its sector `c`: `ppa_list`
gives it line sector `c + x`, whose entry of the emeta lba list holds what
`meta_list` holds for the sector. -/
def SectorLaid (cfg : DeviceConfig) (c lineId : Nat) (m : MapMeta) (x : Nat) : Prop :=
  m.ppaList x = addrToGenPpa cfg.cache.l2p.ppaf (c + x) lineId ∧ m.lbaList lineId (c + x) = m.metaList x

/-- A data line with room for a request of `nrPpas` sectors: they are free from
`cur_sec` on, inside the line and within `left_msecs`. -/
structure LineRoom (cfg : DeviceConfig) (line : DataLine) (nrPpas : Nat) : Prop where
  inLine : line.curSec + nrPpas ≤ cfg.secPerLine
  free : ∀ y < nrPpas, line.mapBitmap (line.curSec + y) = false
  left : (nrPpas : Int) ≤ line.leftMsecs

theorem mapSectorMeta_placed (nrb sentry off validSecs paddr lineId : Nat) (p : DeviceState × MapMeta) (i : Nat) :
    (mapSectorMeta cfg nrb sentry off validSecs paddr lineId p i).2.ppaList =
        Function.update p.2.ppaList (off + i) (addrToGenPpa cfg.cache.l2p.ppaf (paddr + i) lineId) ∧
      (∀ pos, (((mapSectorMeta cfg nrb sentry off validSecs paddr lineId p i).1.cache.rb nrb).entries pos).ppa =
        if i < validSecs ∧ pos = pblkRbWrapPos (p.1.cache.rb nrb) (sentry + i) then
          addrToGenPpa cfg.cache.l2p.ppaf (paddr + i) lineId
        else ((p.1.cache.rb nrb).entries pos).ppa) ∧
      (mapSectorMeta cfg nrb sentry off validSecs paddr lineId p i).1.cache.invalidated =
        p.1.cache.invalidated ++ if i < validSecs then [] else [addrToGenPpa cfg.cache.l2p.ppaf (paddr + i) lineId] := by
  obtain ⟨d, m⟩ := p
  by_cases valid : i < validSecs
  · refine ⟨by simp [mapSectorMeta, valid], fun pos => ?_, by simp [mapSectorMeta, valid]; rfl⟩
    simp only [mapSectorMeta, valid, if_true, true_and, DeviceState.setEntry, CacheState.setRb_rb,
      Rb.setEntry_entries]
    split_ifs <;> rfl
  · refine ⟨by simp [mapSectorMeta, valid], fun pos => by simp [mapSectorMeta, valid],
      by simp [mapSectorMeta, valid, CacheState.invalidate]⟩

theorem mapSectorMeta_lbaList (nrb sentry off validSecs paddr lineId : Nat) (p : DeviceState × MapMeta) (i : Nat) :
    (mapSectorMeta cfg nrb sentry off validSecs paddr lineId p i).2.lbaList =
      Function.update p.2.lbaList lineId (Function.update (p.2.lbaList lineId) (paddr + i)
        ((mapSectorMeta cfg nrb sentry off validSecs paddr lineId p i).2.metaList (off + i))) := by
  obtain ⟨d, m⟩ := p
  unfold mapSectorMeta
  split_ifs <;> simp

theorem SectorPlaced.of_cache {nrb sentry validSecs x : Nat} {p q : DeviceState × MapMeta}
    (placed : SectorPlaced nrb sentry validSecs p x) (cache : q.1.cache = p.1.cache)
    (ppas : q.2.ppaList = p.2.ppaList) : SectorPlaced nrb sentry validSecs q x := by
  unfold SectorPlaced
  rw [cache, ppas]
  exact placed

theorem sectorPlaced_sector {nrb sentry validSecs off u paddr lineId i : Nat} {p : DeviceState × MapMeta}
    (counted : i < u ↔ off + i < validSecs) (buffered : validSecs ≤ (p.1.cache.rb nrb).nrEntries)
    (done : ∀ x < off + i, SectorPlaced nrb sentry validSecs p x) :
    ∀ x < off + i + 1,
      SectorPlaced nrb sentry validSecs (mapSectorMeta cfg nrb (sentry + off) off u paddr lineId p i) x := by
  obtain ⟨ppas, entries, invalidated⟩ := @mapSectorMeta_placed cfg nrb (sentry + off) off u paddr lineId p i
  have wraps : pblkRbWrapPos ((mapSectorMeta cfg nrb (sentry + off) off u paddr lineId p i).1.cache.rb nrb) =
      pblkRbWrapPos (p.1.cache.rb nrb) := by
    funext pos
    unfold pblkRbWrapPos
    rw [(mapSectorMeta_spec nrb (sentry + off) off u paddr lineId p i).1.nrEntries]
  intro x below
  unfold SectorPlaced
  rw [wraps, entries, invalidated, ppas, Function.update_apply, List.mem_append]
  by_cases new : x = off + i
  · -- the sector just mapped
    subst new
    rw [if_pos rfl, ← Nat.add_assoc]
    refine ⟨fun valid => by rw [if_pos ⟨counted.mpr valid, rfl⟩], fun padded => .inr ?_⟩
    rw [if_neg fun data => Nat.not_le.mpr (counted.mp data) padded]
    exact List.mem_singleton_self _
  · -- an earlier sector
    obtain ⟨entry, pad⟩ := done x (by omega)
    rw [if_neg new]
    refine ⟨fun valid => ?_, fun padded => .inl (pad padded)⟩
    rw [if_neg, entry valid]
    rintro ⟨data, same⟩
    have later := counted.mp data
    apply wrap_add_ne (n := (p.1.cache.rb nrb).nrEntries) (a := sentry + x) (d := off + i - x) (by omega) (by omega)
    unfold pblkRbWrapPos at same
    rw [show sentry + x + (off + i - x) = sentry + off + i by omega]
    exact same.symm

theorem sectorPlaced_unit {nrb sentry validSecs off u : Nat} (d : DeviceState) (m : MapMeta)
    (counted : ∀ i < cfg.minWritePgs, i < u ↔ off + i < validSecs)
    (buffered : validSecs ≤ (d.cache.rb nrb).nrEntries) (done : ∀ x < off, SectorPlaced nrb sentry validSecs (d, m) x) :
    ∀ x < off + cfg.minWritePgs,
      SectorPlaced nrb sentry validSecs (pblkMapPageDataMeta cfg d m nrb (sentry + off) off u) x := by
  unfold pblkMapPageDataMeta
  obtain ⟨paddr, line⟩ := pblkAllocPage cfg (d.dataLine nrb) cfg.minWritePgs
  dsimp only
  -- the sectors in turn, each keeping the buffer's size
  have sectors := @foldl_range_inv _ (fun j p => (∀ x < off + j, SectorPlaced nrb sentry validSecs p x) ∧
      (p.1.cache.rb nrb).nrEntries = (d.cache.rb nrb).nrEntries)
    (mapSectorMeta cfg nrb (sentry + off) off u paddr line.id) cfg.minWritePgs
    ({ d with dataLine := Function.update d.dataLine nrb line }, m) ⟨done, rfl⟩
    (fun j below p placed => ⟨sectorPlaced_sector (counted j below) (placed.2 ▸ buffered) placed.1,
      ((mapSectorMeta_spec nrb (sentry + off) off u paddr line.id p j).1.nrEntries).trans placed.2⟩)
  intro x below
  split
  · -- replacing a full line leaves the buffers and the invalidations alone
    exact (sectors.1 x below).of_cache (replaceDataLine_cache cfg _ nrb) rfl
  · exact sectors.1 x below

theorem sectorPlaced_rq (hmin : 0 < cfg.minWritePgs) (d : DeviceState) (m : MapMeta)
    (nrb sentry validSecs nrPpas : Nat) (whole : nrPpas % cfg.minWritePgs = 0)
    (aligned : validSecs % cfg.minWritePgs = 0 ∨ nrPpas ≤ (validSecs / cfg.minWritePgs + 1) * cfg.minWritePgs)
    (buffered : validSecs ≤ (d.cache.rb nrb).nrEntries) :
    ∀ x < nrPpas, SectorPlaced nrb sentry validSecs (pblkMapRqMeta cfg d m nrb sentry validSecs 0 nrPpas) x := by
  have cover : nrPpas / cfg.minWritePgs * cfg.minWritePgs = nrPpas :=
    Nat.div_mul_cancel (Nat.dvd_of_mod_eq_zero whole)
  unfold pblkMapRqMeta
  rw [units_of_whole hmin whole]
  -- the units in turn, each keeping the buffer's size
  have units := @foldl_range_inv _ (fun k p => (∀ x < k * cfg.minWritePgs, SectorPlaced nrb sentry validSecs p x) ∧
      (p.1.cache.rb nrb).nrEntries = (d.cache.rb nrb).nrEntries)
    (mapUnitMeta cfg nrb sentry validSecs 0) (nrPpas / cfg.minWritePgs) (d, m)
    ⟨fun x below => absurd below (by simp), rfl⟩ (fun k below p placed => ?_)
  · intro x inside
    exact units.1 x (by rw [cover]; exact inside)
  · -- sector `i` of unit `k` is sector `k * min + i` of the request
    have counted : ∀ i < cfg.minWritePgs,
        i < mapSecs cfg validSecs (0 + k * cfg.minWritePgs) ↔ 0 + k * cfg.minWritePgs + i < validSecs := by
      intro i low
      have inside : k * cfg.minWritePgs + i < nrPpas := by
        have last : (k + 1) * cfg.minWritePgs ≤ nrPpas / cfg.minWritePgs * cfg.minWritePgs :=
          Nat.mul_le_mul_right _ below
        rw [Nat.succ_mul, cover] at last
        omega
      have counts := mapSecs_counts hmin inside aligned
      rw [Nat.mul_add_mod_self_right, Nat.mod_eq_of_lt low,
        show (k * cfg.minWritePgs + i) / cfg.minWritePgs = k by
          rw [Nat.add_comm, Nat.add_mul_div_right _ _ hmin, Nat.div_eq_of_lt low, Nat.zero_add]] at counts
      rw [Nat.zero_add]
      exact counts
    refine ⟨fun x inside => ?_, (pblkMapPageDataMeta_kept p.1 p.2 nrb _ _ _).nrEntries.trans placed.2⟩
    exact sectorPlaced_unit p.1 p.2 counted (placed.2 ▸ buffered) (fun x before => placed.1 x (by omega)) x
      (by rw [Nat.succ_mul] at inside; omega)

theorem sectorLaid_sector {c lineId nrb sentry off u i x : Nat} {p : DeviceState × MapMeta}
    (laid : x ≠ off + i → SectorLaid cfg c lineId p.2 x) :
    SectorLaid cfg c lineId (mapSectorMeta cfg nrb sentry off u (c + off) lineId p i).2 x := by
  have ppas := (@mapSectorMeta_placed cfg nrb sentry off u (c + off) lineId p i).1
  have metas := (@mapSectorMeta_spec cfg nrb sentry off u (c + off) lineId p i).2.1
  unfold SectorLaid
  rw [ppas, mapSectorMeta_lbaList, Function.update_self]
  by_cases new : x = off + i
  · subst new
    simp only [Function.update_self, Nat.add_assoc, and_self]
  · obtain ⟨ppa, lba⟩ := laid new
    rw [Function.update_of_ne new, Function.update_of_ne (show c + x ≠ c + off + i by omega), metas,
      Function.update_of_ne new]
    exact ⟨ppa, lba⟩

theorem sectorLaid_unit (hmin : 0 < cfg.minWritePgs) {c nrb sentry off u : Nat} (d : DeviceState) (m : MapMeta)
    (at_ : (d.dataLine nrb).curSec = c + off) (inLine : c + off + cfg.minWritePgs ≤ cfg.secPerLine)
    (clear : (d.dataLine nrb).mapBitmap (c + off) = false)
    (done : ∀ x < off, SectorLaid cfg c (d.dataLine nrb).id m x) :
    ∀ x < off + cfg.minWritePgs,
      SectorLaid cfg c (d.dataLine nrb).id (pblkMapPageDataMeta cfg d m nrb sentry off u).2 x := by
  rw [← at_] at inLine clear
  have addr := (pblkAllocPage_of_free cfg hmin inLine clear).1
  have ids := pblkAllocPage_id cfg (d.dataLine nrb) cfg.minWritePgs
  unfold pblkMapPageDataMeta
  generalize pblkAllocPage cfg (d.dataLine nrb) cfg.minWritePgs = alloc at addr ids ⊢
  obtain ⟨paddr, line⟩ := alloc
  dsimp only at addr ids ⊢
  rw [addr, at_, ids]
  -- the sectors in turn
  have sectors := @foldl_range_inv _ (fun j p => ∀ x < off + j, SectorLaid cfg c (d.dataLine nrb).id p.2 x)
    (mapSectorMeta cfg nrb sentry off u (c + off) (d.dataLine nrb).id) cfg.minWritePgs
    ({ d with dataLine := Function.update d.dataLine nrb line }, m) done
    (fun j _ p laid x below => sectorLaid_sector fun other => laid x (by omega))
  exact sectors

theorem pblkMapPageDataMeta_dataLine_eq (d : DeviceState) (m : MapMeta) (nrb sentry off validSecs : Nat)
    (room : (cfg.minWritePgs : Int) < (d.dataLine nrb).leftMsecs) :
    (pblkMapPageDataMeta cfg d m nrb sentry off validSecs).1.dataLine nrb =
      (pblkAllocPage cfg (d.dataLine nrb) cfg.minWritePgs).2 := by
  unfold pblkMapPageDataMeta
  have left := pblkAllocPage_leftMsecs cfg (d.dataLine nrb) cfg.minWritePgs
  generalize pblkAllocPage cfg (d.dataLine nrb) cfg.minWritePgs = alloc at left ⊢
  obtain ⟨paddr, line⟩ := alloc
  dsimp only at left ⊢
  rw [if_neg (by omega), (mapSectorsMeta_kept nrb sentry off validSecs paddr line.id cfg.minWritePgs _).2]
  exact Function.update_self ..

/-- The line a request of whole units is laid on, before unit `k`: its id, its
`cur_sec` `k` units on, the sectors from there free, and `k` units fewer left. -/
def LineAhead (line : DataLine) (id c left nrPpas off : Nat) : Prop :=
  line.id = id ∧ line.curSec = c + off ∧ (∀ y, off ≤ y → y < nrPpas → line.mapBitmap (c + y) = false) ∧
    line.leftMsecs = (left : Int) - off

theorem sectorLaid_rq (hmin : 0 < cfg.minWritePgs) (d : DeviceState) (m : MapMeta)
    (nrb sentry validSecs nrPpas : Nat) (whole : nrPpas % cfg.minWritePgs = 0)
    (room : LineRoom cfg (d.dataLine nrb) nrPpas) :
    ∀ x < nrPpas, SectorLaid cfg (d.dataLine nrb).curSec (d.dataLine nrb).id
      (pblkMapRqMeta cfg d m nrb sentry validSecs 0 nrPpas).2 x := by
  have cover : nrPpas / cfg.minWritePgs * cfg.minWritePgs = nrPpas :=
    Nat.div_mul_cancel (Nat.dvd_of_mod_eq_zero whole)
  obtain ⟨inLine, free, left⟩ := room
  obtain ⟨left0, left0_eq⟩ : ∃ n : Nat, (d.dataLine nrb).leftMsecs = n :=
    ⟨(d.dataLine nrb).leftMsecs.toNat, (Int.toNat_of_nonneg (by omega)).symm⟩
  unfold pblkMapRqMeta
  rw [units_of_whole hmin whole]
  -- the units in turn; the line stays ahead of every unit still to come
  have units := @foldl_range_inv _ (fun k p =>
      (∀ x < k * cfg.minWritePgs, SectorLaid cfg (d.dataLine nrb).curSec (d.dataLine nrb).id p.2 x) ∧
        (k < nrPpas / cfg.minWritePgs → LineAhead (p.1.dataLine nrb) (d.dataLine nrb).id (d.dataLine nrb).curSec
          left0 nrPpas (k * cfg.minWritePgs)))
    (mapUnitMeta cfg nrb sentry validSecs 0) (nrPpas / cfg.minWritePgs) (d, m)
    ⟨fun x below => absurd below (by simp),
      fun _ => ⟨rfl, by simp, fun y _ below => free y below, by simp [left0_eq]⟩⟩
    (fun k below p laid => ?_)
  · intro x inside
    exact units.1 x (by rw [cover]; exact inside)
  · obtain ⟨ids, at_, clear, leftK⟩ := laid.2 below
    have last : (k + 1) * cfg.minWritePgs ≤ nrPpas := by
      rw [← cover]
      exact Nat.mul_le_mul_right _ below
    rw [Nat.succ_mul] at last
    have inLineK : (p.1.dataLine nrb).curSec + cfg.minWritePgs ≤ cfg.secPerLine := by omega
    have clearK : (p.1.dataLine nrb).mapBitmap (p.1.dataLine nrb).curSec = false := by
      rw [at_]
      exact clear _ (Nat.le_refl _) (by omega)
    rw [mapUnitMeta, Nat.zero_add]
    refine ⟨fun x inside => ?_, fun more => ?_⟩
    · -- unit `k` lays sectors `k * min` to `k * min + min - 1`
      rw [← ids]
      exact sectorLaid_unit hmin p.1 p.2 at_ (by omega) (at_ ▸ clearK)
        (fun x before => ids ▸ laid.1 x before) x (by rw [Nat.succ_mul] at inside; exact inside)
    · -- a unit that leaves room on the line moves its `cur_sec` on by one unit
      have moreK : (k + 1 + 1) * cfg.minWritePgs ≤ nrPpas := by
        rw [← cover]
        exact Nat.mul_le_mul_right _ more
      rw [Nat.succ_mul, Nat.succ_mul] at moreK
      have stays : (cfg.minWritePgs : Int) < (p.1.dataLine nrb).leftMsecs := by
        rw [leftK]
        omega
      obtain ⟨-, cur, bits⟩ := pblkAllocPage_of_free cfg hmin inLineK clearK
      rw [pblkMapPageDataMeta_dataLine_eq _ _ _ _ _ _ stays, Nat.succ_mul]
      refine ⟨by rw [pblkAllocPage_id, ids], by rw [cur, at_]; omega, fun y lo hi => ?_, ?_⟩
      · rw [bits, at_, clear y (by omega) hi]
        simp only [Bool.false_or, Bool.and_eq_false_iff, decide_eq_false_iff_not]
        omega
      · rw [pblkAllocPage_leftMsecs, leftK]
        push_cast
        omega

theorem pblkCalcSecs_le (secsAvail secsToFlush : Nat) (enough : cfg.minWritePgs ≤ secsAvail) :
    pblkCalcSecs cfg secsAvail secsToFlush ≤ secsAvail := by
  unfold pblkCalcSecs
  split
  · assumption
  · exact Nat.mul_div_le secsAvail cfg.minWritePgs

/-- The requests `pblk_submit_write` maps, of `pblk_calc_secs` sectors of which
`min secs_to_sync secs_avail` are valid, have no padding: it returns early below
`min_write_pgs + 8` available sectors. Every sector of them carries its entry's lba. -/
theorem submit_write_meta_exact (hmin : 0 < cfg.minWritePgs) (perWrite : cfg.secPerWrite % cfg.minWritePgs = 0)
    (d : DeviceState) (m : MapMeta) (nrb sentry secsAvail secsToFlush : Nat)
    (enough : cfg.minWritePgs + 8 ≤ secsAvail) :
    ∀ x < pblkCalcSecs cfg secsAvail secsToFlush,
      (pblkMapRqMeta cfg d m nrb sentry (min (pblkCalcSecs cfg secsAvail secsToFlush) secsAvail) 0
          (pblkCalcSecs cfg secsAvail secsToFlush)).2.metaList x = entryLba d nrb (sentry + x) := by
  intro x inside
  have whole : pblkCalcSecs cfg secsAvail secsToFlush % cfg.minWritePgs = 0 := by
    unfold pblkCalcSecs
    split
    · exact perWrite
    · rw [if_pos (by omega)]
      exact Nat.mul_mod_right _ _
  rw [min_eq_left (pblkCalcSecs_le secsAvail secsToFlush (by omega))]
  have unpadded : pblkCalcSecs cfg secsAvail secsToFlush ≤
      (pblkCalcSecs cfg secsAvail secsToFlush / cfg.minWritePgs + 1) * cfg.minWritePgs := by
    rw [Nat.succ_mul]
    exact (Nat.lt_div_mul_add hmin).le
  rw [(map_rq_meta_exact hmin d m nrb sentry _ _ whole (Nat.le_refl _) (Or.inr unpadded)).1 x inside,
    if_pos inside]

theorem submit_write_meta_exact_twelve :
    0 < devConfig.minWritePgs ∧ devConfig.secPerWrite % devConfig.minWritePgs = 0 ∧ devConfig.minWritePgs + 8 ≤ 12 ∧
      ∀ x < pblkCalcSecs devConfig 12 0,
        (pblkMapRqMeta devConfig devInit mapMetaInit 1 0 (min (pblkCalcSecs devConfig 12 0) 12) 0
            (pblkCalcSecs devConfig 12 0)).2.metaList x = entryLba devInit 1 (0 + x) :=
  ⟨by decide, by decide, by decide,
    @submit_write_meta_exact devConfig (by decide) (by decide) devInit mapMetaInit 1 0 12 0 (by decide)⟩

/-- On a request with a unit wholly past its valid sectors, which neither
`pblk_submit_write` nor recovery builds, every unit from the one holding the last
valid sector on counts `validSecs % min` sectors as data: the first sector of
the next unit carries its entry's lba, and the line counts more than
`validSecs`. -/
theorem map_rq_counts_padding_as_data (hmin : 0 < cfg.minWritePgs) (d : DeviceState) (m : MapMeta)
    (nrb sentry validSecs nrPpas : Nat) (whole : nrPpas % cfg.minWritePgs = 0)
    (ragged : validSecs % cfg.minWritePgs ≠ 0)
    (beyond : (validSecs / cfg.minWritePgs + 1) * cfg.minWritePgs < nrPpas) :
    validSecs < (validSecs / cfg.minWritePgs + 1) * cfg.minWritePgs ∧
      (pblkMapRqMeta cfg d m nrb sentry validSecs 0 nrPpas).2.metaList
          ((validSecs / cfg.minWritePgs + 1) * cfg.minWritePgs) =
        entryLba d nrb (sentry + (validSecs / cfg.minWritePgs + 1) * cfg.minWritePgs) ∧
      ((nrPpas : Int) ≤ (d.dataLine nrb).leftMsecs →
        (pblkMapRqMeta cfg d m nrb sentry validSecs 0 nrPpas).2.nrValidLbas (d.dataLine nrb).id =
          m.nrValidLbas (d.dataLine nrb).id + validSecs +
            (nrPpas / cfg.minWritePgs - validSecs / cfg.minWritePgs - 1) * (validSecs % cfg.minWritePgs)) := by
  have cover : nrPpas / cfg.minWritePgs * cfg.minWritePgs = nrPpas :=
    Nat.div_mul_cancel (Nat.dvd_of_mod_eq_zero whole)
  have past : validSecs < (validSecs / cfg.minWritePgs + 1) * cfg.minWritePgs := by
    rw [Nat.succ_mul]
    exact Nat.lt_div_mul_add hmin
  refine ⟨past, ?_, fun room => ?_⟩
  · -- the unit after the one that holds the last valid sector counts its first sector as valid
    unfold pblkMapRqMeta
    rw [units_of_whole hmin whole, mapUnitsMeta_metaList hmin,
      if_pos ⟨Nat.zero_le _, by rw [Nat.zero_add, cover]; exact beyond⟩, rqSlot, Nat.sub_zero, Nat.mul_mod_left,
      Nat.mul_div_cancel _ hmin, mapSecs_of_lt (by omega), if_pos (Nat.pos_of_ne_zero ragged)]
  · -- every unit from the one that holds the last valid sector on counts `validSecs % min`
    have units : validSecs / cfg.minWritePgs + 1 < nrPpas / cfg.minWritePgs :=
      Nat.lt_of_mul_lt_mul_right (show _ < nrPpas / cfg.minWritePgs * cfg.minWritePgs by rw [cover]; exact beyond)
    obtain ⟨later, more⟩ : ∃ t, nrPpas / cfg.minWritePgs - validSecs / cfg.minWritePgs = t + 1 :=
      ⟨_, (Nat.sub_add_cancel (by omega)).symm⟩
    have split := Nat.mod_add_div' validSecs cfg.minWritePgs
    unfold pblkMapRqMeta
    rw [units_of_whole hmin whole, mapUnitsMeta_nrValidLbas hmin _ _ _ _ _ _ _ _ (by rw [cover]; exact room),
      if_pos rfl, sum_mapSecs hmin, min_eq_right (by omega), more, Nat.add_sub_cancel, Nat.succ_mul]
    omega

/-- Two valid entries of buffer 1 of the device as `pblk_init` leaves it, in a request of
eight sectors: sector 4, padding, carries lba 0 in its metadata, and line 2
counts four valid sectors. -/
example :
    (pblkMapRqMeta devConfig devInit mapMetaInit 1 0 2 0 8).2.metaList 4 = 0 ∧
      (pblkMapRqMeta devConfig devInit mapMetaInit 1 0 2 0 8).2.nrValidLbas 2 = 4 := by
  obtain ⟨-, slot, count⟩ :=
    @map_rq_counts_padding_as_data devConfig (by decide) devInit mapMetaInit 1 0 2 8 (by decide) (by decide) (by decide)
  exact ⟨slot.trans (by decide), count (by decide)⟩

end MStream.Device
