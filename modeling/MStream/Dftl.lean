import MStream.Machine

/-!
The cached mapping table of pblk-dftl.c. pblk charges its L2P memory to a
budget the way a DFTL device would: each resident segment has a
`struct map_entry` holding the size of its table and of its logs, linked in an
rb-tree keyed by segment and in an LRU list, and `alloc_res` sums them on top
of the 4096 units `pblk_l2p_init` charges for the global block map. When a
segment is touched and the budget is short, `pblk_evict_cmt` frees entries from
the head of the LRU list.

`map_entry` objects come from `dftl_pool`: `pool` maps their addresses to their
contents and freeing one removes it, so that an access after the free is a
fault. The rb-tree is kept as the list of its objects, searched by key, which
is what `pblk_search_cmt` returns while keys are distinct. `global_map` is only
used as a non-null marker by `pblk_alloc_log` and `pblk_free_log`, and the
debug counters (`nr_mapread`, `nr_mapwrite`) are not read: both are left out.

`pblk_load_cmt` reads the segment's L2P entry and its stream; `SegInfo` is what
it reads, filled in by the L2P model.
-/

namespace MStream.Dftl

open Machine

/-- The segment map types of pblk.h (`NONE_MAP` to `PAGE_MAP`). -/
inductive MapType where
  | none
  | block
  | sector
  | page
  deriving DecidableEq, Repr

/-- `struct map_entry`; `nr_log` and `map_size` are `unsigned int`. -/
structure MapEntry where
  lseg : Nat
  dirty : Bool
  nrLog : Nat
  mapSize : Nat
  deriving DecidableEq, Repr

/-- `struct pblk_cmt_mgt`, with the objects of `dftl_pool`. -/
structure CmtMgt where
  maxRes : Nat
  allocRes : Nat
  pool : Nat → Option MapEntry
  nextObj : Nat
  tree : List Nat
  mapList : List Nat

/-- What `pblk_load_cmt` reads of a segment: its stream's map type and log
size, and the segment entry's own type, `is_cached` bit and, for a page map,
how many of its pages hold a log. The last is read through the entry's pointer
only when a new entry is charged, so reading it may fail. -/
structure SegInfo where
  mapType : MapType
  bmapType : MapType
  isCached : Bool
  logSize : Nat
  cachedPages : Except Fault Nat

def pblkCmtInit : CmtMgt where
  maxRes := 64 * 1024
  allocRes := 4096
  pool := fun _ => none
  nextObj := 0
  tree := []
  mapList := []

def MapEntry.size (e : MapEntry) : Nat := e.mapSize + e.nrLog

def keyAt (pool : Nat → Option MapEntry) (lseg me : Nat) : Bool := (pool me).any (·.lseg == lseg)

def pblkSearchCmt (c : CmtMgt) (lseg : Nat) : Option (Nat × MapEntry) :=
  (c.tree.find? (keyAt c.pool lseg)).bind fun me => (c.pool me).map (me, ·)

/-- `pblk_insert_cmt`: a new entry at the tail of the LRU list, unless the key
is already in the tree. -/
def pblkInsertCmt (c : CmtMgt) (lseg mapSize nrLog : Nat) (dirty : Bool) : CmtMgt :=
  match pblkSearchCmt c lseg with
  | some _ => c
  | none =>
      let me := c.nextObj
      { c with
        pool := Function.update c.pool me
          (some { lseg := lseg, dirty := dirty, nrLog := wrap32 nrLog, mapSize := wrap32 mapSize })
        nextObj := me + 1
        tree := c.tree ++ [me]
        mapList := c.mapList ++ [me]
        allocRes := wrap32 (c.allocRes + (mapSize + nrLog)) }

def pblkDeleteCmt (c : CmtMgt) (lseg : Nat) : CmtMgt :=
  match pblkSearchCmt c lseg with
  | none => c
  | some (me, e) =>
      { c with
        mapList := c.mapList.erase me
        tree := c.tree.erase me
        pool := Function.update c.pool me none
        allocRes := wrap32 (c.allocRes - e.mapSize - e.nrLog) }

/-- The loop of `pblk_evict_cmt`, over the LRU list from its head; returns the
table and `get_res`. `free_res` is an `int` and `get_res` an `unsigned int`. -/
def evictLoop (needRes : Int) : List Nat → CmtMgt → Int → Nat → Except Fault (CmtMgt × Nat)
  | lru, c, freeRes, getRes =>
    if needRes > freeRes then
      match lru with
      | [] => .error .bug
      | me :: rest =>
          match c.pool me with
          | none => .error .wild
          | some e =>
              evictLoop needRes rest
                { c with
                  mapList := rest
                  tree := c.tree.erase me
                  pool := Function.update c.pool me none }
                (toInt32 (wrap32 (freeRes + e.mapSize + e.nrLog)))
                (wrap32 (getRes + (e.mapSize + e.nrLog)))
    else .ok (c, getRes)

def pblkEvictCmt (c : CmtMgt) (needRes : Int) : Except Fault CmtMgt := do
  let (c, getRes) ← evictLoop needRes c.mapList c (toInt32 (wrap32 (c.maxRes - c.allocRes))) 0
  pure { c with allocRes := wrap32 (c.allocRes - getRes) }

/-- `pblk_load_cmt`: move a resident segment to the LRU tail, or charge a new
entry for it, evicting first if the budget is short. A block map without a log
is covered by the global map and charges nothing. -/
def pblkLoadCmt (c : CmtMgt) (seg : SegInfo) (lseg : Nat) (dirty : Bool) :
    Except Fault CmtMgt :=
  if seg.mapType = .block ∧ seg.isCached = false then .ok c
  else
    match pblkSearchCmt c lseg with
    | some (me, e) =>
        .ok { c with
          pool := Function.update c.pool me (some { e with dirty := e.dirty || dirty })
          mapList := c.mapList.erase me ++ [me] }
    | none => do
        let logSize ← if seg.mapType = .page then do
            let pages ← seg.cachedPages
            pure (pages * seg.logSize)
          else pure 0
        let mapSize := if seg.mapType ≠ .page ∧ seg.bmapType = .block then seg.logSize else 4096
        let freeRes := toInt32 (wrap32 (c.maxRes - c.allocRes))
        let c ← if freeRes < mapSize + logSize then pblkEvictCmt c (mapSize + logSize) else pure c
        pure (pblkInsertCmt c lseg mapSize logSize dirty)

/-- The lookup `pblk_alloc_log` and `pblk_free_log` make for a page-mapped
segment: search, else load and search again. -/
def searchOrLoad (c : CmtMgt) (seg : SegInfo) (lseg : Nat) : Except Fault (CmtMgt × Nat) :=
  match pblkSearchCmt c lseg with
  | some (me, _) => .ok (c, me)
  | none => do
      let c ← pblkLoadCmt c seg lseg true
      match pblkSearchCmt c lseg with
      | some (me, _) => .ok (c, me)
      | none => .error .bug

/-- `pblk_alloc_log`: charge `logSize` more to the segment. A block-map log
gets an entry of its own; a page log is added to the segment's entry, which
`me` still names after the eviction. -/
def pblkAllocLog (c : CmtMgt) (seg : SegInfo) (lseg : Nat) (type : MapType) (logSize : Nat) :
    Except Fault CmtMgt := do
  let (c, me) ← match type with
    | .block => pure (c, none)
    | .page => do
        let (c, me) ← searchOrLoad c seg lseg
        pure (c, some me)
    | _ => .error .bug
  let c ← if wrap32 (c.maxRes - c.allocRes) < logSize then pblkEvictCmt c logSize else pure c
  match me with
  | none =>
      pure (match pblkSearchCmt c lseg with
        | some _ => c
        | none => pblkInsertCmt c lseg 0 logSize true)
  | some me =>
      match c.pool me with
      | none => .error .wild
      | some e =>
          pure { c with
            pool := Function.update c.pool me
              (some { e with nrLog := wrap32 (e.nrLog + logSize), dirty := true })
            allocRes := wrap32 (c.allocRes + logSize) }

/-- `pblk_free_log`: a block-map log drops the segment's entry; a page log
subtracts `logSize` from it. -/
def pblkFreeLog (c : CmtMgt) (seg : SegInfo) (lseg : Nat) (type : MapType) (logSize : Nat) :
    Except Fault CmtMgt :=
  match type with
  | .block => pure (pblkDeleteCmt c lseg)
  | .page => do
      let (c, me) ← searchOrLoad c seg lseg
      match c.pool me with
      | none => .error .wild
      | some e =>
          pure { c with
            pool := Function.update c.pool me (some { e with nrLog := wrap32 (e.nrLog - logSize) })
            allocRes := wrap32 (c.allocRes - logSize) }
  | _ => .error .bug

def pblkChangeMap (c : CmtMgt) (seg : SegInfo) (lseg : Nat) : Except Fault CmtMgt :=
  pblkLoadCmt (pblkDeleteCmt c lseg) seg lseg true

/-! ## Calls as the L2P map functions issue them -/

inductive DftlOp where
  | load (seg : SegInfo) (lseg : Nat) (dirty : Bool)
  | delete (lseg : Nat)
  | allocLog (seg : SegInfo) (lseg : Nat) (type : MapType) (logSize : Nat)
  | freeLog (seg : SegInfo) (lseg : Nat) (type : MapType) (logSize : Nat)
  | changeMap (seg : SegInfo) (lseg : Nat)

def dftlApply (c : CmtMgt) : DftlOp → Except Fault CmtMgt
  | .load seg lseg dirty => pblkLoadCmt c seg lseg dirty
  | .delete lseg => pure (pblkDeleteCmt c lseg)
  | .allocLog seg lseg type logSize => pblkAllocLog c seg lseg type logSize
  | .freeLog seg lseg type logSize => pblkFreeLog c seg lseg type logSize
  | .changeMap seg lseg => pblkChangeMap c seg lseg

def dftlRun : CmtMgt → List DftlOp → Except Fault CmtMgt
  | c, [] => .ok c
  | c, op :: rest => dftlApply c op >>= fun c => dftlRun c rest

theorem dftlRun_append (c : CmtMgt) (first second : List DftlOp) :
    dftlRun c (first ++ second) = dftlRun c first >>= fun c => dftlRun c second := by
  induction first generalizing c with
  | nil => rfl
  | cons op rest ih =>
    simp only [List.cons_append, dftlRun, ih, bind_assoc]

/-! ## Search, insertion and eviction -/

section Table

variable {c c' : CmtMgt} {lseg me : Nat} {e : MapEntry}

theorem search_some (found : pblkSearchCmt c lseg = some (me, e)) :
    me ∈ c.tree ∧ c.pool me = some e ∧ e.lseg = lseg := by
  unfold pblkSearchCmt at found
  obtain ⟨me', first, entry⟩ := Option.bind_eq_some_iff.mp found
  obtain ⟨e', live, same⟩ := Option.map_eq_some_iff.mp entry
  cases same
  have held := List.find?_some first
  refine ⟨List.mem_of_find?_eq_some first, live, ?_⟩
  simpa [keyAt, live] using held

theorem search_none_iff :
    pblkSearchCmt c lseg = none ↔ ∀ me ∈ c.tree, keyAt c.pool lseg me = false := by
  unfold pblkSearchCmt
  constructor
  · intro absent x member
    cases first : c.tree.find? (keyAt c.pool lseg) with
    | none => simpa using List.find?_eq_none.mp first x member
    | some y =>
        -- a holder found by the search is allocated, so the search returns it
        have held := List.find?_some first
        simp only [keyAt, Option.any_eq_true] at held
        obtain ⟨e', live, -⟩ := held
        simp [first, live] at absent
  · intro none_holds
    have first : c.tree.find? (keyAt c.pool lseg) = none :=
      List.find?_eq_none.mpr fun x member => by simp [none_holds x member]
    simp [first]

theorem evictLoop_done {needRes freeRes : Int} {lru : List Nat} {getRes : Nat}
    (enough : ¬needRes > freeRes) : evictLoop needRes lru c freeRes getRes = .ok (c, getRes) := by
  unfold evictLoop
  rw [if_neg enough]

theorem evictLoop_cons {needRes freeRes : Int} {rest : List Nat} {getRes : Nat}
    (short : needRes > freeRes) (live : c.pool me = some e) :
    evictLoop needRes (me :: rest) c freeRes getRes =
      evictLoop needRes rest
        { c with mapList := rest, tree := c.tree.erase me, pool := Function.update c.pool me none }
        (toInt32 (wrap32 (freeRes + e.mapSize + e.nrLog))) (wrap32 (getRes + (e.mapSize + e.nrLog))) := by
  rw [evictLoop, if_pos short]
  simp only [live]

theorem evictLoop_shrinks {needRes freeRes : Int} {lru : List Nat} {getRes getRes' : Nat}
    (evicted : evictLoop needRes lru c freeRes getRes = .ok (c', getRes')) :
    (∀ x ∈ c'.tree, x ∈ c.tree) ∧ (∀ x, c'.pool x = none ∨ c'.pool x = c.pool x) ∧
      c'.nextObj = c.nextObj ∧ c'.maxRes = c.maxRes ∧ c'.allocRes = c.allocRes := by
  induction lru generalizing c freeRes getRes with
  | nil =>
      simp only [evictLoop] at evicted
      split at evicted
      · cases evicted
      · cases evicted
        exact ⟨fun _ member => member, fun _ => .inr rfl, rfl, rfl, rfl⟩
  | cons x rest ih =>
      simp only [evictLoop] at evicted
      split at evicted
      · split at evicted
        · cases evicted
        · -- `x` is unlinked and freed, then the loop goes on
          obtain ⟨tree, pool, next, max, alloc⟩ := ih evicted
          refine ⟨fun y member => List.mem_of_mem_erase (tree y member), fun y => ?_, next, max, alloc⟩
          rcases pool y with freed | kept
          · exact .inl freed
          · rw [kept]
            by_cases same : y = x
            · simp [same]
            · simp [Function.update_of_ne same]
      · cases evicted
        exact ⟨fun _ member => member, fun _ => .inr rfl, rfl, rfl, rfl⟩

theorem evict_shrinks {needRes : Int} (evicted : pblkEvictCmt c needRes = .ok c') :
    (∀ x ∈ c'.tree, x ∈ c.tree) ∧ (∀ x, c'.pool x = none ∨ c'.pool x = c.pool x) ∧
      c'.nextObj = c.nextObj := by
  unfold pblkEvictCmt at evicted
  obtain ⟨⟨mid, getRes⟩, looped, done⟩ := bind_eq_ok.mp evicted
  obtain ⟨tree, pool, next, -, -⟩ := evictLoop_shrinks looped
  simp only [pure_eq_ok] at done
  subst done
  exact ⟨tree, pool, next⟩

theorem evict_keeps_absent {needRes : Int} (evicted : pblkEvictCmt c needRes = .ok c')
    (absent : pblkSearchCmt c lseg = none) : pblkSearchCmt c' lseg = none := by
  obtain ⟨tree, pool, -⟩ := evict_shrinks evicted
  rw [search_none_iff] at absent ⊢
  intro x member
  rcases pool x with freed | kept
  · simp [keyAt, freed]
  · simpa [keyAt, kept] using absent x (tree x member)

theorem deleteCmt_of_absent (absent : pblkSearchCmt c lseg = none) : pblkDeleteCmt c lseg = c := by
  simp [pblkDeleteCmt, absent]

end Table

/-! ## Tables that charge sector-mapped segments only

`pblk_load_cmt` charges a sector-mapped segment 4096 units and no log. While
the table charges nothing else, `alloc_res` is the 4096 of the global map plus
4096 per entry, at most fifteen entries fit the 64 Ki budget, and a load never
fails: a full table evicts the head of its LRU list, which frees the room of
exactly one entry. -/

section Sector

/-- The account of a table whose entries are all sector-mapped segments. -/
structure SectorCharged (c : CmtMgt) : Prop where
  maxRes : c.maxRes = 64 * 1024
  allocRes : c.allocRes = 4096 + 4096 * c.mapList.length
  fits : c.mapList.length ≤ 15
  nodup : c.mapList.Nodup
  treeNodup : c.tree.Nodup
  listed : ∀ me ∈ c.tree, me ∈ c.mapList
  sized : ∀ me ∈ c.mapList, ∃ e, c.pool me = some e ∧ e.mapSize = 4096 ∧ e.nrLog = 0
  fresh : ∀ me ∈ c.mapList, me < c.nextObj

variable {c : CmtMgt}

theorem sectorCharged_init : SectorCharged pblkCmtInit where
  maxRes := rfl
  allocRes := rfl
  fits := by simp [pblkCmtInit]
  nodup := List.nodup_nil
  treeNodup := List.nodup_nil
  listed := by simp [pblkCmtInit]
  sized := by simp [pblkCmtInit]
  fresh := by simp [pblkCmtInit]

theorem insert_sectorCharged {lseg : Nat} {dirty : Bool} (inv : SectorCharged c)
    (absent : pblkSearchCmt c lseg = none) (room : c.mapList.length < 15) :
    SectorCharged (pblkInsertCmt c lseg 4096 0 dirty) := by
  have outside : c.nextObj ∉ c.mapList := fun mem => Nat.lt_irrefl _ (inv.fresh _ mem)
  have outsideTree : c.nextObj ∉ c.tree := fun mem => outside (inv.listed _ mem)
  have charged := inv.allocRes
  unfold pblkInsertCmt
  simp only [absent]
  refine ⟨inv.maxRes, ?_, ?_, ?_, ?_, ?_, ?_, ?_⟩
  · simp only [List.length_append, List.length_singleton, wrap32]
    omega
  · simp only [List.length_append, List.length_singleton]
    omega
  · exact List.nodup_append_comm.mp (List.nodup_cons.mpr ⟨outside, inv.nodup⟩)
  · exact List.nodup_append_comm.mp (List.nodup_cons.mpr ⟨outsideTree, inv.treeNodup⟩)
  · simp only [List.mem_append, List.mem_singleton]
    rintro me (mem | rfl)
    · exact .inl (inv.listed me mem)
    · exact .inr rfl
  · simp only [List.mem_append, List.mem_singleton]
    rintro me (mem | rfl)
    · have other : me ≠ c.nextObj := fun same => outside (same ▸ mem)
      rw [Function.update_of_ne other]
      exact inv.sized me mem
    · exact ⟨_, Function.update_self .., wrap32_natCast (by norm_num), wrap32_natCast (by norm_num)⟩
  · simp only [List.mem_append, List.mem_singleton]
    rintro me (mem | rfl)
    · exact Nat.lt_succ_of_lt (inv.fresh me mem)
    · exact Nat.lt_succ_self _

theorem delete_sectorCharged (inv : SectorCharged c) (lseg : Nat) : SectorCharged (pblkDeleteCmt c lseg) := by
  unfold pblkDeleteCmt
  split
  · exact inv
  · next me e found =>
    obtain ⟨inTree, live, -⟩ := search_some found
    have inList := inv.listed me inTree
    obtain ⟨e', live', size, log⟩ := inv.sized me inList
    rw [live] at live'
    cases live'
    have nonempty := List.length_pos_of_mem inList
    have charged := inv.allocRes
    refine ⟨inv.maxRes, ?_, ?_, inv.nodup.erase me, inv.treeNodup.erase me, ?_, ?_, ?_⟩
    · rw [List.length_erase_of_mem inList, size, log]
      have := inv.fits
      simp only [wrap32]
      omega
    · rw [List.length_erase_of_mem inList]
      have := inv.fits
      omega
    · intro x mem
      obtain ⟨other, inTree'⟩ := (inv.treeNodup.mem_erase_iff).mp mem
      exact List.mem_erase_of_ne other |>.mpr (inv.listed x inTree')
    · intro x mem
      obtain ⟨other, inList'⟩ := (inv.nodup.mem_erase_iff).mp mem
      simp only [Function.update_of_ne other]
      exact inv.sized x inList'
    · exact fun x mem => inv.fresh x (List.mem_of_mem_erase mem)

theorem touch_sectorCharged {lseg me : Nat} {e : MapEntry} {dirty : Bool} (inv : SectorCharged c)
    (found : pblkSearchCmt c lseg = some (me, e)) :
    SectorCharged { c with
      pool := Function.update c.pool me (some { e with dirty := e.dirty || dirty })
      mapList := c.mapList.erase me ++ [me] } := by
  obtain ⟨inTree, live, -⟩ := search_some found
  have inList := inv.listed me inTree
  have length : (c.mapList.erase me ++ [me]).length = c.mapList.length := by
    rw [List.length_append, List.length_erase_of_mem inList, List.length_singleton]
    have := List.length_pos_of_mem inList
    omega
  have moved : ∀ x, x ∈ c.mapList.erase me ++ [me] ↔ x ∈ c.mapList := by
    intro x
    rw [List.mem_append, List.mem_singleton]
    by_cases same : x = me
    · simp [same, inList]
    · simp [same, List.mem_erase_of_ne same]
  refine ⟨inv.maxRes, by rw [length]; exact inv.allocRes, by rw [length]; exact inv.fits, ?_, inv.treeNodup,
    fun x mem => (moved x).mpr (inv.listed x mem), ?_, fun x mem => inv.fresh x ((moved x).mp mem)⟩
  · exact List.nodup_append_comm.mp (List.nodup_cons.mpr ⟨inv.nodup.not_mem_erase, inv.nodup.erase me⟩)
  · intro x mem
    by_cases same : x = me
    · subst same
      obtain ⟨e', live', size, log⟩ := inv.sized x inList
      rw [live] at live'
      cases live'
      exact ⟨_, Function.update_self .., size, log⟩
    · simp only [Function.update_of_ne same]
      exact inv.sized x ((moved x).mp mem)

/-- A full table evicts the head of its LRU list and nothing else: one entry
frees all that a sector-mapped segment can need. -/
theorem evict_sectorCharged {needRes : Int} (inv : SectorCharged c) (full : c.mapList.length = 15)
    (pos : 0 < needRes) (le : needRes ≤ 4096) :
    ∃ c', pblkEvictCmt c needRes = .ok c' ∧ SectorCharged c' ∧ c'.mapList.length = 14 := by
  obtain ⟨me, rest, list⟩ : ∃ me rest, c.mapList = me :: rest := by
    cases h : c.mapList with
    | nil => simp [h] at full
    | cons me rest => exact ⟨me, rest, rfl⟩
  obtain ⟨e, live, size, log⟩ := inv.sized me (by simp [list])
  have spent : toInt32 (wrap32 ((c.maxRes : Int) - c.allocRes)) = 0 := by
    rw [inv.maxRes, inv.allocRes, full]
    decide
  have refill : toInt32 (wrap32 (0 + (e.mapSize : Int) + e.nrLog)) = 4096 := by
    rw [size, log]
    decide
  have nodup := inv.nodup
  rw [list] at nodup
  obtain ⟨outside, nodupRest⟩ := List.nodup_cons.mp nodup
  have rests : rest.length = 14 := by simpa [list] using full
  unfold pblkEvictCmt
  rw [spent, list, evictLoop_cons (by omega) live, evictLoop_done (by rw [refill]; omega)]
  refine ⟨_, rfl, ⟨inv.maxRes, ?_, by simp only; omega, nodupRest, inv.treeNodup.erase me, ?_, ?_, ?_⟩, rests⟩
  · have charged := inv.allocRes
    simp only [size, log, wrap32]
    omega
  · intro x mem
    obtain ⟨other, inTree⟩ := (inv.treeNodup.mem_erase_iff).mp mem
    have inList := inv.listed x inTree
    rw [list] at inList
    exact (List.mem_cons.mp inList).resolve_left other
  · intro x mem
    have other : x ≠ me := fun same => outside (same ▸ mem)
    simp only [Function.update_of_ne other]
    exact inv.sized x (by simp [list, mem])
  · exact fun x mem => inv.fresh x (by simp [list, mem])

/-- `pblk_load_cmt` of a sector-mapped segment succeeds and keeps the account. -/
theorem loadCmt_sectorCharged {seg : SegInfo} {lseg : Nat} {dirty : Bool} (inv : SectorCharged c)
    (sector : seg.mapType = .sector) (notBlock : seg.bmapType ≠ .block) :
    ∃ c', pblkLoadCmt c seg lseg dirty = .ok c' ∧ SectorCharged c' := by
  unfold pblkLoadCmt
  rw [if_neg (by simp [sector])]
  cases found : pblkSearchCmt c lseg with
  | some hit =>
    obtain ⟨me, e⟩ := hit
    exact ⟨_, rfl, touch_sectorCharged inv found⟩
  | none =>
    have charged := inv.allocRes
    have free : toInt32 (wrap32 ((c.maxRes : Int) - c.allocRes)) = ((4096 * (15 - c.mapList.length) : Nat) : Int) := by
      rw [inv.maxRes, ← Nat.cast_sub (by have := inv.fits; omega), wrap32_natCast (by have := inv.fits; omega),
        toInt32_of_lt (by have := inv.fits; omega)]
      omega
    simp only [sector, reduceCtorEq, if_false, pure_bind, ne_eq, not_false_eq_true, notBlock, and_false, free,
      Nat.cast_ofNat, Nat.cast_zero, add_zero]
    by_cases full : c.mapList.length = 15
    · -- the budget is spent: the LRU head goes, then the segment's entry comes
      obtain ⟨c', evicted, inv', length⟩ := evict_sectorCharged inv full (show (0 : Int) < 4096 by norm_num) (by norm_num)
      rw [if_pos (by rw [full]; decide), evicted]
      exact ⟨_, rfl, insert_sectorCharged inv' (evict_keeps_absent evicted found) (by omega)⟩
    · rw [if_neg (by have := inv.fits; omega)]
      exact ⟨_, rfl, insert_sectorCharged inv found (by have := inv.fits; omega)⟩

theorem changeMap_sectorCharged {seg : SegInfo} {lseg : Nat} (inv : SectorCharged c)
    (sector : seg.mapType = .sector) (notBlock : seg.bmapType ≠ .block) :
    ∃ c', pblkChangeMap c seg lseg = .ok c' ∧ SectorCharged c' :=
  loadCmt_sectorCharged (delete_sectorCharged inv lseg) sector notBlock

end Sector

/-! ## Tables without page logs

On the stream tables `pblk_l2p_init` builds no stream is page-mapped, and the
L2P map calls pblk-dftl.c only to charge a segment's table or block log
(`pblk_load_cmt`, `pblk_change_map`, `pblk_alloc_log` of a block log) and to
give it back (`pblk_delete_cmt`, `pblk_free_log` of a block log). Every entry
is then charged once, when it is inserted, and given back whole when it is
deleted or evicted: `alloc_res` stays the 4096 units of the global map plus
what the entries of the LRU list hold, the rb-tree holds the same objects under
distinct keys, and while no request asks more than the budget less the global
map, an eviction frees enough before the list runs out. -/

section Account

/-- What one request may ask: the budget of `pblk_l2p_init` less the global map. -/
def maxRequest : Nat := 60 * 1024

/-- The calls the L2P map makes when no stream is page-mapped, each asking at
most `maxRequest`. -/
def DftlOp.Admitted : DftlOp → Prop
  | .load seg _ _ => seg.mapType ≠ .page ∧ seg.logSize ≤ maxRequest
  | .delete _ => True
  | .allocLog _ _ type logSize => type = .block ∧ logSize ≤ maxRequest
  | .freeLog _ _ type _ => type = .block
  | .changeMap seg _ => seg.mapType ≠ .page ∧ seg.logSize ≤ maxRequest

def chargeOf (pool : Nat → Option MapEntry) (me : Nat) : Nat := ((pool me).map MapEntry.size).getD 0

def CmtMgt.charged (c : CmtMgt) : Nat := (c.mapList.map (chargeOf c.pool)).sum

/-- The rb-tree and the LRU list hold the same objects, each once and
allocated, under distinct keys and of a size no request exceeds. -/
structure Linked (c : CmtMgt) : Prop where
  maxRes : c.maxRes = 64 * 1024
  nodup : c.mapList.Nodup
  same : c.tree.Perm c.mapList
  live : ∀ me ∈ c.mapList, ∃ e, c.pool me = some e ∧ e.size ≤ maxRequest
  keys : ∀ lseg, ∀ me ∈ c.mapList, ∀ me' ∈ c.mapList, keyAt c.pool lseg me = true → keyAt c.pool lseg me' = true →
    me = me'
  fresh : ∀ me ∈ c.mapList, me < c.nextObj

/-- The account is exact: `alloc_res` is the global map's 4096 units plus what
the entries hold, within the budget. -/
structure Accounted (c : CmtMgt) : Prop extends Linked c where
  allocRes : c.allocRes = 4096 + c.charged
  within : c.allocRes ≤ c.maxRes

variable {c : CmtMgt} {lseg me : Nat} {e : MapEntry}

theorem accounted_init : Accounted pblkCmtInit where
  maxRes := rfl
  nodup := List.nodup_nil
  same := List.Perm.refl _
  live := by simp [pblkCmtInit]
  keys := by simp [pblkCmtInit]
  fresh := by simp [pblkCmtInit]
  allocRes := rfl
  within := by decide

theorem chargeOf_live (live : c.pool me = some e) : chargeOf c.pool me = e.size := by
  simp [chargeOf, live]

theorem sum_chargeOf_congr {l : List Nat} {pool pool' : Nat → Option MapEntry}
    (same : ∀ me ∈ l, pool' me = pool me) : (l.map (chargeOf pool')).sum = (l.map (chargeOf pool)).sum := by
  congr 1
  exact List.map_congr_left fun me mem => by simp only [chargeOf, same me mem]

theorem Accounted.wrap_free (inv : Accounted c) : wrap32 ((c.maxRes : Int) - c.allocRes) = c.maxRes - c.allocRes := by
  have := inv.within
  have max := inv.maxRes
  unfold wrap32
  omega

theorem Accounted.free_res (inv : Accounted c) :
    toInt32 (wrap32 ((c.maxRes : Int) - c.allocRes)) = ((c.maxRes - c.allocRes : Nat) : Int) := by
  have max := inv.maxRes
  rw [inv.wrap_free, toInt32_of_lt (by omega)]

namespace Linked

theorem search_none (inv : Linked c) (absent : pblkSearchCmt c lseg = none) :
    ∀ me ∈ c.mapList, keyAt c.pool lseg me = false :=
  fun me mem => search_none_iff.mp absent me (inv.same.mem_iff.mpr mem)

/-- Unlinking and freeing a listed object, as `pblk_delete_cmt` and each round
of `pblk_evict_cmt` do, keeps the links, and the list holds what it held less
the object's entry. -/
theorem unlink (inv : Linked c) (inList : me ∈ c.mapList) (allocRes : Nat) :
    Linked { c with
        mapList := c.mapList.erase me
        tree := c.tree.erase me
        pool := Function.update c.pool me none
        allocRes := allocRes } ∧
      chargeOf c.pool me + ((c.mapList.erase me).map (chargeOf (Function.update c.pool me none))).sum = c.charged := by
  have others : ∀ x ∈ c.mapList.erase me, Function.update c.pool me none x = c.pool x := fun x mem =>
    Function.update_of_ne (inv.nodup.mem_erase_iff.mp mem).1 _ _
  refine ⟨⟨inv.maxRes, inv.nodup.erase me, inv.same.erase me, ?_, ?_, ?_⟩, ?_⟩
  · intro x mem
    dsimp only at mem ⊢
    rw [others x mem]
    exact inv.live x (List.mem_of_mem_erase mem)
  · intro l x hx y hy kx ky
    dsimp only at hx hy kx ky
    simp only [keyAt, others x hx, others y hy] at kx ky
    exact inv.keys l x (List.mem_of_mem_erase hx) y (List.mem_of_mem_erase hy) kx ky
  · exact fun x mem => inv.fresh x (List.mem_of_mem_erase mem)
  · rw [sum_chargeOf_congr others]
    exact List.sum_map_erase _ inList

theorem withAllocRes (inv : Linked c) (allocRes : Nat) : Linked { c with allocRes := allocRes } :=
  ⟨inv.maxRes, inv.nodup, inv.same, inv.live, inv.keys, inv.fresh⟩

end Linked

theorem Accounted.insert {mapSize nrLog : Nat} {dirty : Bool} (inv : Accounted c)
    (absent : pblkSearchCmt c lseg = none) (small : mapSize + nrLog ≤ maxRequest)
    (room : c.allocRes + (mapSize + nrLog) ≤ c.maxRes) :
    Accounted (pblkInsertCmt c lseg mapSize nrLog dirty) := by
  have outside : c.nextObj ∉ c.mapList := fun mem => Nat.lt_irrefl _ (inv.fresh _ mem)
  have free := inv.toLinked.search_none absent
  have mapWrap : wrap32 mapSize = mapSize := wrap32_natCast (by unfold maxRequest at small; omega)
  have logWrap : wrap32 nrLog = nrLog := wrap32_natCast (by unfold maxRequest at small; omega)
  unfold pblkInsertCmt
  rw [absent]
  dsimp only
  generalize hentry : (⟨lseg, dirty, wrap32 nrLog, wrap32 mapSize⟩ : MapEntry) = entry
  have size : entry.size = mapSize + nrLog := by rw [← hentry, MapEntry.size, mapWrap, logWrap, Nat.add_comm]
  -- the old objects keep their entries
  have others : ∀ x ∈ c.mapList, Function.update c.pool c.nextObj (some entry) x = c.pool x :=
    fun x mem => Function.update_of_ne (fun same => outside (by rw [← same]; exact mem)) _ _
  have oldKeys : ∀ l, ∀ x ∈ c.mapList, keyAt (Function.update c.pool c.nextObj (some entry)) l x = keyAt c.pool l x :=
    fun l x mem => by rw [keyAt, others x mem, keyAt]
  have charged : ((c.mapList ++ [c.nextObj]).map (chargeOf (Function.update c.pool c.nextObj (some entry)))).sum =
      c.charged + (mapSize + nrLog) := by
    rw [List.map_append, List.sum_append, sum_chargeOf_congr others, List.map_singleton, List.sum_singleton,
      chargeOf, Function.update_self, Option.map_some, Option.getD_some, size]
    rfl
  refine ⟨⟨inv.maxRes, ?_, inv.same.append_right _, ?_, ?_, ?_⟩, ?_, ?_⟩
  · exact List.nodup_append_comm.mp (List.nodup_cons.mpr ⟨outside, inv.nodup⟩)
  · simp only [List.mem_append, List.mem_singleton]
    rintro x (mem | rfl)
    · rw [others x mem]
      exact inv.live x mem
    · exact ⟨entry, Function.update_self .., by rw [size]; exact small⟩
  · -- the new key is on no old object
    have newKey : ∀ l, keyAt (Function.update c.pool c.nextObj (some entry)) l c.nextObj = true → l = lseg := by
      intro l held
      rw [keyAt, Function.update_self, ← hentry] at held
      simp only [Option.any_some, beq_iff_eq] at held
      exact held.symm
    simp only [List.mem_append, List.mem_singleton]
    rintro l x (hx | rfl) y (hy | rfl) kx ky
    · rw [oldKeys l x hx] at kx
      rw [oldKeys l y hy] at ky
      exact inv.keys l x hx y hy kx ky
    · rw [newKey l ky, oldKeys lseg x hx, free x hx] at kx
      cases kx
    · rw [newKey l kx, oldKeys lseg y hy, free y hy] at ky
      cases ky
    · rfl
  · simp only [List.mem_append, List.mem_singleton]
    rintro x (mem | rfl)
    · exact Nat.lt_succ_of_lt (inv.fresh x mem)
    · exact Nat.lt_succ_self _
  · have alloc := inv.allocRes
    have max := inv.maxRes
    simp only [CmtMgt.charged]
    rw [charged]
    unfold wrap32
    omega
  · have max := inv.maxRes
    dsimp only
    unfold wrap32
    omega

theorem Accounted.delete (inv : Accounted c) (lseg : Nat) : Accounted (pblkDeleteCmt c lseg) := by
  unfold pblkDeleteCmt
  split
  · exact inv
  · next me e found =>
    obtain ⟨inTree, live, -⟩ := search_some found
    obtain ⟨linked, given⟩ := inv.toLinked.unlink (inv.same.mem_iff.mp inTree)
      (wrap32 ((c.allocRes : Int) - e.mapSize - e.nrLog))
    rw [chargeOf_live live, MapEntry.size] at given
    have charged := inv.allocRes
    have := inv.within
    have max := inv.maxRes
    refine ⟨linked, ?_, ?_⟩ <;> simp only [CmtMgt.charged] at charged given ⊢ <;> unfold wrap32 <;> omega

theorem Accounted.touch {dirty : Bool} (inv : Accounted c) (found : pblkSearchCmt c lseg = some (me, e)) :
    Accounted { c with
      pool := Function.update c.pool me (some { e with dirty := e.dirty || dirty })
      mapList := c.mapList.erase me ++ [me] } := by
  obtain ⟨inTree, live, -⟩ := search_some found
  have inList := inv.same.mem_iff.mp inTree
  have moved : (c.mapList.erase me ++ [me]).Perm c.mapList :=
    (List.perm_append_singleton me _).trans (List.perm_cons_erase inList).symm
  -- only the dirty bit changes, so sizes and keys stay
  have entries : ∀ x, Function.update c.pool me (some { e with dirty := e.dirty || dirty }) x = c.pool x ∨
      (x = me ∧ Function.update c.pool me (some { e with dirty := e.dirty || dirty }) x =
        some { e with dirty := e.dirty || dirty }) := by
    intro x
    by_cases same : x = me
    · exact .inr ⟨same, by rw [same, Function.update_self]⟩
    · exact .inl (Function.update_of_ne same _ _)
  have charge : ∀ x, chargeOf (Function.update c.pool me (some { e with dirty := e.dirty || dirty })) x =
      chargeOf c.pool x := by
    intro x
    rcases entries x with kept | ⟨rfl, touched⟩
    · rw [chargeOf, kept, chargeOf]
    · rw [chargeOf, touched, chargeOf_live live]
      rfl
  have key : ∀ l x, keyAt (Function.update c.pool me (some { e with dirty := e.dirty || dirty })) l x =
      keyAt c.pool l x := by
    intro l x
    rcases entries x with kept | ⟨rfl, touched⟩
    · rw [keyAt, kept, keyAt]
    · rw [keyAt, touched, keyAt, live]
      rfl
  refine ⟨⟨inv.maxRes, moved.nodup_iff.mpr inv.nodup, inv.same.trans moved.symm, ?_, ?_, ?_⟩, ?_, inv.within⟩
  · intro x mem
    dsimp only at mem ⊢
    obtain ⟨e', held, small⟩ := inv.live x (moved.mem_iff.mp mem)
    rcases entries x with kept | ⟨rfl, touched⟩
    · exact ⟨e', by rw [kept, held], small⟩
    · rw [live] at held
      cases held
      exact ⟨_, touched, small⟩
  · intro l x hx y hy kx ky
    dsimp only at hx hy kx ky
    rw [key] at kx ky
    exact inv.keys l x (moved.mem_iff.mp hx) y (moved.mem_iff.mp hy) kx ky
  · exact fun x mem => inv.fresh x (moved.mem_iff.mp mem)
  · rw [inv.allocRes, CmtMgt.charged, CmtMgt.charged]
    dsimp only
    rw [List.map_congr_left fun x _ => charge x, (moved.map _).sum_eq]

/-- The loop of `pblk_evict_cmt` with `lru` still to walk: `lru` is the LRU
list, `get_res` what the freed entries held, and `free_res` the budget left
once that is given back. -/
structure Evicting (c : CmtMgt) (lru : List Nat) (freeRes : Int) (getRes : Nat) : Prop where
  linked : Linked c
  lru : lru = c.mapList
  taken : c.allocRes = 4096 + c.charged + getRes
  within : c.allocRes ≤ c.maxRes
  freeRes : freeRes = c.maxRes - (4096 + c.charged : Nat)

theorem Evicting.start (inv : Accounted c) :
    Evicting c c.mapList (toInt32 (wrap32 ((c.maxRes : Int) - c.allocRes))) 0 := by
  have := inv.within
  have charged := inv.allocRes
  refine ⟨inv.toLinked, rfl, charged, this, ?_⟩
  rw [inv.free_res, charged]
  omega

theorem Evicting.step {rest : List Nat} {freeRes : Int} {getRes : Nat} (inv : Evicting c (me :: rest) freeRes getRes)
    (live : c.pool me = some e) :
    Evicting { c with mapList := rest, tree := c.tree.erase me, pool := Function.update c.pool me none } rest
      (toInt32 (wrap32 (freeRes + e.mapSize + e.nrLog))) (wrap32 (getRes + (e.mapSize + e.nrLog))) := by
  have inList : me ∈ c.mapList := by rw [← inv.lru]; exact List.mem_cons_self
  have list : rest = c.mapList.erase me := by rw [← inv.lru, List.erase_cons_head]
  subst list
  obtain ⟨linked, given⟩ := inv.linked.unlink inList c.allocRes
  rw [chargeOf_live live, MapEntry.size] at given
  have taken := inv.taken
  have free := inv.freeRes
  have := inv.within
  have max := inv.linked.maxRes
  refine ⟨linked, rfl, ?_, this, ?_⟩ <;> simp only [CmtMgt.charged] at taken free given ⊢ <;>
    generalize ((c.mapList.erase me).map (chargeOf (Function.update c.pool me none))).sum = left at given ⊢
  · unfold wrap32
    omega
  · -- `free_res` stays within the budget, so neither sum wraps
    have value : freeRes + e.mapSize + e.nrLog = ((c.maxRes - (4096 + left) : Nat) : Int) := by omega
    rw [value, wrap32_natCast (by omega), toInt32_of_lt (by omega)]
    omega

/-- While no request asks more than `maxRequest`, the loop ends before the
list runs out, with room for the request. -/
theorem evictLoop_accounted {needRes freeRes : Int} {lru : List Nat} {getRes : Nat} (need : needRes ≤ maxRequest)
    (inv : Evicting c lru freeRes getRes) :
    ∃ c' getRes', evictLoop needRes lru c freeRes getRes = .ok (c', getRes') ∧ Linked c' ∧
      c'.allocRes = 4096 + c'.charged + getRes' ∧ c'.allocRes ≤ c'.maxRes ∧
      needRes + (4096 + c'.charged : Nat) ≤ c'.maxRes := by
  -- induction on the objects still listed, one freed a round
  induction lru generalizing c freeRes getRes with
  | nil =>
    have empty : c.charged = 0 := by rw [CmtMgt.charged, ← inv.lru]; rfl
    have enough : ¬needRes > freeRes := by
      rw [inv.freeRes, empty, inv.linked.maxRes]
      unfold maxRequest at need
      omega
    refine ⟨c, getRes, evictLoop_done enough, inv.linked, inv.taken, inv.within, ?_⟩
    rw [inv.freeRes] at enough
    omega
  | cons me rest ih =>
    by_cases short : needRes > freeRes
    · obtain ⟨e, live, -⟩ := inv.linked.live me (by rw [← inv.lru]; exact List.mem_cons_self)
      rw [evictLoop_cons short live]
      exact ih (inv.step live)
    · refine ⟨c, getRes, evictLoop_done short, inv.linked, inv.taken, inv.within, ?_⟩
      rw [inv.freeRes] at short
      omega

theorem Accounted.evict {needRes : Int} (inv : Accounted c) (need : needRes ≤ maxRequest) :
    ∃ c', pblkEvictCmt c needRes = .ok c' ∧ Accounted c' ∧ needRes + c'.allocRes ≤ c'.maxRes := by
  obtain ⟨c', getRes, looped, linked, taken, within, room⟩ := evictLoop_accounted need (Evicting.start inv)
  have max := linked.maxRes
  have given : wrap32 ((c'.allocRes : Int) - getRes) = 4096 + c'.charged := by
    unfold wrap32
    omega
  refine ⟨{ c' with allocRes := wrap32 ((c'.allocRes : Int) - getRes) }, by rw [pblkEvictCmt, looped]; rfl,
    ⟨linked.withAllocRes _, given, ?_⟩, ?_⟩
  · dsimp only
    rw [given]
    omega
  · dsimp only
    rw [given]
    exact room

theorem Accounted.load {seg : SegInfo} {dirty : Bool} (inv : Accounted c) (unpaged : seg.mapType ≠ .page)
    (small : seg.logSize ≤ maxRequest) : ∃ c', pblkLoadCmt c seg lseg dirty = .ok c' ∧ Accounted c' := by
  unfold pblkLoadCmt
  split
  · exact ⟨c, rfl, inv⟩
  cases found : pblkSearchCmt c lseg with
  | some hit =>
    obtain ⟨me, e⟩ := hit
    exact ⟨_, rfl, inv.touch found⟩
  | none =>
    -- a table or a block log of its own, and no page logs
    simp only [pure_bind, Nat.cast_zero, Int.add_zero]
    generalize hsize : (if seg.mapType ≠ .page ∧ seg.bmapType = .block then seg.logSize else 4096) = mapSize
    have fits : mapSize ≤ maxRequest := by
      rw [← hsize]
      split
      · exact small
      · decide
    rw [inv.free_res]
    by_cases short : ((c.maxRes - c.allocRes : Nat) : Int) < mapSize
    · obtain ⟨c1, evicted, inv1, room⟩ := inv.evict (show (mapSize : Int) ≤ (maxRequest : Int) by exact_mod_cast fits)
      rw [if_pos short, evicted]
      exact ⟨_, rfl, inv1.insert (evict_keeps_absent evicted found) fits (by omega)⟩
    · rw [if_neg short]
      exact ⟨_, rfl, inv.insert found fits (by have := inv.within; omega)⟩

theorem Accounted.changeMap {seg : SegInfo} (inv : Accounted c) (unpaged : seg.mapType ≠ .page)
    (small : seg.logSize ≤ maxRequest) : ∃ c', pblkChangeMap c seg lseg = .ok c' ∧ Accounted c' :=
  (inv.delete lseg).load unpaged small

theorem Accounted.allocBlockLog {seg : SegInfo} {logSize : Nat} (inv : Accounted c) (small : logSize ≤ maxRequest) :
    ∃ c', pblkAllocLog c seg lseg .block logSize = .ok c' ∧ Accounted c' := by
  unfold pblkAllocLog
  dsimp only
  rw [pure_bind]
  dsimp only
  rw [inv.wrap_free]
  split
  · -- `free_res` is short: room is made first
    obtain ⟨c1, evicted, inv1, room⟩ := inv.evict (show (logSize : Int) ≤ (maxRequest : Int) by exact_mod_cast small)
    rw [evicted, ok_bind]
    split
    · exact ⟨c1, rfl, inv1⟩
    · next found => exact ⟨_, rfl, inv1.insert found (by omega) (by omega)⟩
  · rw [pure_bind]
    split
    · exact ⟨c, rfl, inv⟩
    · next found => exact ⟨_, rfl, inv.insert found (by omega) (by have := inv.within; omega)⟩

/-- Every call the L2P map makes on such a table returns and keeps the account. -/
theorem Accounted.apply (inv : Accounted c) {op : DftlOp} (admitted : op.Admitted) :
    ∃ c', dftlApply c op = .ok c' ∧ Accounted c' := by
  cases op with
  | load seg lseg dirty =>
    obtain ⟨unpaged, small⟩ := admitted
    exact inv.load unpaged small
  | delete lseg => exact ⟨_, rfl, inv.delete lseg⟩
  | allocLog seg lseg type logSize =>
    obtain ⟨rfl, small⟩ := admitted
    show ∃ c', pblkAllocLog c seg lseg .block logSize = .ok c' ∧ Accounted c'
    exact inv.allocBlockLog small
  | freeLog seg lseg type logSize =>
    cases (admitted : type = .block)
    exact ⟨_, rfl, inv.delete lseg⟩
  | changeMap seg lseg =>
    obtain ⟨unpaged, small⟩ := admitted
    exact inv.changeMap unpaged small

theorem Accounted.run (inv : Accounted c) {calls : List DftlOp} (admitted : ∀ op ∈ calls, op.Admitted) :
    ∃ c', dftlRun c calls = .ok c' ∧ Accounted c' := by
  induction calls generalizing c with
  | nil => exact ⟨c, rfl, inv⟩
  | cons op rest ih =>
    obtain ⟨c1, applied, inv1⟩ := inv.apply (admitted op List.mem_cons_self)
    obtain ⟨c2, ran, inv2⟩ := ih inv1 fun op mem => admitted op (List.mem_cons_of_mem _ mem)
    refine ⟨c2, ?_, inv2⟩
    rw [dftlRun, applied, ok_bind]
    exact ran

/-- `c'` is `c` after admitted calls. -/
def Charges (c c' : CmtMgt) : Prop := ∃ calls : List DftlOp, (∀ op ∈ calls, op.Admitted) ∧ dftlRun c calls = .ok c'

namespace Charges

variable {c' c'' : CmtMgt}

theorem refl (c : CmtMgt) : Charges c c := ⟨[], fun _ mem => absurd mem List.not_mem_nil, rfl⟩

theorem trans (first : Charges c c') (second : Charges c' c'') : Charges c c'' := by
  obtain ⟨calls, admitted, ran⟩ := first
  obtain ⟨calls', admitted', ran'⟩ := second
  refine ⟨calls ++ calls', fun op mem => ?_, ?_⟩
  · rcases List.mem_append.mp mem with mem | mem
    · exact admitted op mem
    · exact admitted' op mem
  · rw [dftlRun_append, ran, ok_bind]
    exact ran'

theorem single {op : DftlOp} (admitted : op.Admitted) (called : dftlApply c op = .ok c') : Charges c c' :=
  ⟨[op], fun op' mem => by rw [List.mem_singleton.mp mem]; exact admitted, by rw [dftlRun, called, ok_bind]; rfl⟩

end Charges

end Account

/-! ## How page logs are charged -/

/-- A page-mapped segment without an entry is charged by counting its page
logs, so its page table is read before anything else happens. -/
theorem loadCmt_page_reads_table {c : CmtMgt} {seg : SegInfo} {lseg : Nat} {dirty : Bool} {f : Fault}
    (page : seg.mapType = .page) (absent : pblkSearchCmt c lseg = none)
    (unreadable : seg.cachedPages = .error f) :
    pblkLoadCmt c seg lseg dirty = .error f := by
  simp [pblkLoadCmt, page, absent, unreadable]

theorem changeMap_page_reads_table {c : CmtMgt} {seg : SegInfo} {lseg : Nat} {f : Fault}
    (page : seg.mapType = .page) (absent : pblkSearchCmt c lseg = none)
    (unreadable : seg.cachedPages = .error f) :
    pblkChangeMap c seg lseg = .error f := by
  rw [pblkChangeMap, deleteCmt_of_absent absent]
  exact loadCmt_page_reads_table page absent unreadable

end MStream.Dftl
