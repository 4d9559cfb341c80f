import MStream.L2p.Stream
import MStream.Reach

/-!
What the map functions are for, on the streams the shipped configuration
uses. With `EXT4_TEST` defined (pblk.h), `pblk_set_lstream` is never reached,
so every segment stays in stream 0, which `pblk_l2p_init` makes
sector-mapped. The L2P table is then meant to be a plain map from lbas to the
address last written to each (`sectorSpec`). `SectorRefines` says that the
segment table, the per-sector tables and the DFTL table hold such a map; every
writer keeps it and every lookup returns it, so a run of writes from
`pblk_l2p_init` never faults and reads back its last writes
(`sector_run_reads_last_writes`).
-/

namespace MStream.L2p

open Machine Address RingBuffer Dftl Reach

/-! ## The abstract map -/

/-- Each writer maps its lba to its address; a stream change writes nothing. -/
def sectorSpec (m : Nat → PpaAddr) : L2pOp → Nat → PpaAddr
  | .setLstream _ _ => m
  | .transMapSet lba ppa => Function.update m lba ppa
  | .cacheMapSet lba ppa => Function.update m lba ppa
  | .devMapSet lba ppa => Function.update m lba ppa

variable (cfg : Config)

/-- An address that `mapRead` returns as stored: a device address on one of
the lines. -/
def onLines : PpaAddr → Bool
  | .dev g => decide (g.blk < cfg.nrLines)
  | _ => true

/-- The calls a sector-mapped stream takes: no stream change, addresses on the
lines, and a device update only of an lba the cache has mapped. -/
def sectorAdmits (m : Nat → PpaAddr) : L2pOp → Bool
  | .setLstream _ _ => false
  | .transMapSet _ ppa => onLines cfg ppa
  | .cacheMapSet _ ppa => onLines cfg ppa
  | .devMapSet lba ppa => onLines cfg ppa && decide (m lba ≠ .empty)

structure SectorConfig : Prop where
  valid : 0 < cfg.nrLstream
  sector : (cfg.lstream 0).mapType = .sector

/-! ## Segment entries and the refinement -/

def unmappedEntry : PbaAddr := { map := .none, lstream := 0, isCached := false, val := .empty }

/-- The entry a writer stores on the first write to a segment of stream 0. -/
def sectorEntry (p : Nat) : PbaAddr := { map := .sector, lstream := 0, isCached := false, val := .pointer p }

@[simp] theorem sectorEntry_map (p : Nat) : (sectorEntry p).map = .sector := rfl
@[simp] theorem sectorEntry_lstream (p : Nat) : (sectorEntry p).lstream = 0 := rfl
@[simp] theorem sectorEntry_val (p : Nat) : (sectorEntry p).val = .pointer p := rfl

theorem sectorEntry_ne_unmapped (p : Nat) : sectorEntry p ≠ unmappedEntry := by
  simp [sectorEntry, unmappedEntry]

theorem sectorEntry_inj {p q : Nat} (same : sectorEntry p = sectorEntry q) : p = q := by
  simpa [sectorEntry] using same

/-- The segment table and the sector tables hold the map `m`, and the DFTL
table charges sector-mapped segments only. -/
structure SectorRefines (s : Pblk) (m : Nat → PpaAddr) : Prop where
  shape : ∀ lseg, s.bmap lseg = unmappedEntry ∨ ∃ p, s.bmap lseg = sectorEntry p
  unmapped : ∀ lba, s.bmap (cfg.lsegOf lba) = unmappedEntry → m lba = .empty
  table : ∀ lseg p, s.bmap lseg = sectorEntry p →
    p < s.next ∧ ∃ f, s.heap p = some (.ppas f) ∧ ∀ lba, cfg.lsegOf lba = lseg → f (cfg.loffOf lba) = m lba
  apart : ∀ l l' p, s.bmap l = sectorEntry p → s.bmap l' = sectorEntry p → l = l'
  lines : ∀ lba, onLines cfg (m lba) = true
  charged : SectorCharged s.cmt

theorem refines_init (rwb : Nat → Rb) : SectorRefines cfg (pblkL2pInit rwb) fun _ => .empty where
  shape _ := .inl rfl
  unmapped _ _ := rfl
  table _ p entry := absurd entry (sectorEntry_ne_unmapped p).symm
  apart _ _ p entry := absurd entry (sectorEntry_ne_unmapped p).symm
  lines _ := rfl
  charged := sectorCharged_init

variable {cfg} {s : Pblk} {m : Nat → PpaAddr}

theorem update_agrees {f : Nat → PpaAddr} {lba : Nat}
    (agree : ∀ lba', cfg.lsegOf lba' = cfg.lsegOf lba → f (cfg.loffOf lba') = m lba') (ppa : PpaAddr) :
    ∀ lba', cfg.lsegOf lba' = cfg.lsegOf lba →
      Function.update f (cfg.loffOf lba) ppa (cfg.loffOf lba') = Function.update m lba ppa lba' := by
  intro lba' seg
  by_cases hit : lba' = lba
  · subst hit
    simp
  · have off : cfg.loffOf lba' ≠ cfg.loffOf lba := fun eq => hit (Config.lba_eq_of_seg_off seg eq)
    rw [Function.update_of_ne off, Function.update_of_ne hit]
    exact agree lba' seg

namespace SectorRefines

theorem lstream_zero (inv : SectorRefines cfg s m) (lseg : Nat) : (s.bmap lseg).lstream = 0 := by
  rcases inv.shape lseg with un | ⟨p, entry⟩
  · rw [un]; rfl
  · rw [entry]; rfl

theorem not_block (inv : SectorRefines cfg s m) (lseg : Nat) : (s.bmap lseg).map ≠ .block := by
  rcases inv.shape lseg with un | ⟨p, entry⟩
  · rw [un]; simp [unmappedEntry]
  · rw [entry]; simp [sectorEntry]

theorem fresh_next (inv : SectorRefines cfg s m) (l : Nat) : s.bmap l ≠ sectorEntry s.next :=
  fun entry => Nat.lt_irrefl _ (inv.table l _ entry).1

theorem withCmt {cmt : CmtMgt} (inv : SectorRefines cfg s m) (charged : SectorCharged cmt) :
    SectorRefines cfg (s.withCmt cmt) m :=
  { inv with charged := charged }

theorem alloc (inv : SectorRefines cfg s m) (t : Table) : SectorRefines cfg (s.alloc t).2 m where
  shape := inv.shape
  unmapped := inv.unmapped
  table l p entry := by
    obtain ⟨below, f, held, agree⟩ := inv.table l p entry
    have other : p ≠ s.next := Nat.ne_of_lt below
    refine ⟨Nat.lt_succ_of_lt below, f, ?_, agree⟩
    simp [Function.update_of_ne other, held]
  apart := inv.apart
  lines := inv.lines
  charged := inv.charged

theorem setTable {p : Nat} (inv : SectorRefines cfg s m) (free : ∀ l, s.bmap l ≠ sectorEntry p) (t : Table) :
    SectorRefines cfg (s.setTable p t) m where
  shape := inv.shape
  unmapped := inv.unmapped
  table l q entry := by
    obtain ⟨below, f, held, agree⟩ := inv.table l q entry
    have other : q ≠ p := fun same => free l (same ▸ entry)
    exact ⟨below, f, by simp [Function.update_of_ne other, held], agree⟩
  apart := inv.apart
  lines := inv.lines
  charged := inv.charged

theorem link {lseg p : Nat} {f : Nat → PpaAddr} {m' : Nat → PpaAddr} (inv : SectorRefines cfg s m)
    (un : s.bmap lseg = unmappedEntry) (free : ∀ l, s.bmap l ≠ sectorEntry p) (below : p < s.next)
    (held : s.heap p = some (.ppas f)) (agree : ∀ lba, cfg.lsegOf lba = lseg → f (cfg.loffOf lba) = m' lba)
    (outside : ∀ lba, cfg.lsegOf lba ≠ lseg → m' lba = m lba) (lines : ∀ lba, onLines cfg (m' lba) = true) :
    SectorRefines cfg (s.setBmap lseg (sectorEntry p)) m' where
  shape l := by
    by_cases same : l = lseg
    · subst same
      exact .inr ⟨p, by simp⟩
    · simpa [Function.update_of_ne same] using inv.shape l
  unmapped lba entry := by
    have other : cfg.lsegOf lba ≠ lseg := by
      rintro same
      rw [same, Pblk.setBmap_bmap, Function.update_self] at entry
      exact sectorEntry_ne_unmapped p entry
    rw [Pblk.setBmap_bmap, Function.update_of_ne other] at entry
    rw [outside lba other]
    exact inv.unmapped lba entry
  table l q entry := by
    by_cases same : l = lseg
    · subst same
      rw [Pblk.setBmap_bmap, Function.update_self] at entry
      cases sectorEntry_inj entry
      exact ⟨below, f, held, agree⟩
    · rw [Pblk.setBmap_bmap, Function.update_of_ne same] at entry
      obtain ⟨below', g, held', agree'⟩ := inv.table l q entry
      refine ⟨below', g, held', fun lba seg => ?_⟩
      rw [agree' lba seg, outside lba (seg ▸ same)]
  apart l l' q entry entry' := by
    simp only [Pblk.setBmap_bmap] at entry entry'
    by_cases same : l = lseg <;> by_cases same' : l' = lseg
    · exact same.trans same'.symm
    · -- the other segment would point at the table that was free
      rw [same, Function.update_self] at entry
      rw [Function.update_of_ne same'] at entry'
      exact absurd (sectorEntry_inj entry ▸ entry') (free l')
    · rw [same', Function.update_self] at entry'
      rw [Function.update_of_ne same] at entry
      exact absurd (sectorEntry_inj entry' ▸ entry) (free l)
    · rw [Function.update_of_ne same] at entry
      rw [Function.update_of_ne same'] at entry'
      exact inv.apart l l' q entry entry'
  lines := lines
  charged := inv.charged

theorem lines_update {lba : Nat} {ppa : PpaAddr} (inv : SectorRefines cfg s m) (ok : onLines cfg ppa = true) :
    ∀ lba', onLines cfg (Function.update m lba ppa lba') = true := by
  intro lba'
  by_cases hit : lba' = lba
  · subst hit
    simpa using ok
  · rw [Function.update_of_ne hit]
    exact inv.lines lba'

theorem setPpa {p : Nat} {ppa : PpaAddr} (inv : SectorRefines cfg s m) (lba : Nat)
    (entry : s.bmap (cfg.lsegOf lba) = sectorEntry p) (ok : onLines cfg ppa = true) :
    ∃ s', s.setPpa p (cfg.loffOf lba) ppa = .ok s' ∧ SectorRefines cfg s' (Function.update m lba ppa) := by
  obtain ⟨below, f, held, agree⟩ := inv.table _ p entry
  refine ⟨{ s with heap := Function.update s.heap p (some (.ppas (Function.update f (cfg.loffOf lba) ppa))) },
    by simp [Pblk.setPpa, Pblk.ppas, held], ?_⟩
  constructor
  · exact inv.shape
  · intro lba' un
    have other : lba' ≠ lba := by
      rintro rfl
      exact sectorEntry_ne_unmapped p (entry.symm.trans un)
    rw [Function.update_of_ne other]
    exact inv.unmapped lba' un
  · intro l q entry'
    obtain ⟨below', g, held', agree'⟩ := inv.table l q entry'
    refine ⟨below', ?_⟩
    by_cases same : q = p
    · -- the written table, which only the lba's own segment points at
      subst same
      cases inv.apart _ _ _ entry' entry
      exact ⟨_, Function.update_self .., update_agrees agree ppa⟩
    · refine ⟨g, by simp [Function.update_of_ne same, held'], fun lba' seg' => ?_⟩
      have other : lba' ≠ lba := by
        rintro rfl
        exact same (sectorEntry_inj ((seg' ▸ entry').symm.trans entry))
      rw [Function.update_of_ne other]
      exact agree' lba' seg'
  · exact inv.apart
  · exact inv.lines_update ok
  · exact inv.charged

end SectorRefines

/-! ## The DFTL calls of the writers and the lookup -/

section Stream0

variable (conf : SectorConfig cfg)
include conf

theorem SectorRefines.segInfo_sector (inv : SectorRefines cfg s m) (lseg : Nat) :
    (segInfo cfg s lseg).mapType = .sector := by
  simp [segInfo, inv.lstream_zero lseg, conf.sector]

theorem SectorRefines.loadCmt (inv : SectorRefines cfg s m) (lseg : Nat) (dirty : Bool) :
    ∃ cmt, pblkLoadCmt s.cmt (segInfo cfg s lseg) lseg dirty = .ok cmt ∧ SectorCharged cmt :=
  loadCmt_sectorCharged inv.charged (inv.segInfo_sector conf lseg) (inv.not_block lseg)

theorem SectorRefines.updateLoad (inv : SectorRefines cfg s m) (lseg : Nat) (dirty : Bool) :
    ∃ cmt, s.updateCmt (fun c => pblkLoadCmt c (segInfo cfg s lseg) lseg dirty) = .ok (s.withCmt cmt) ∧
      SectorRefines cfg (s.withCmt cmt) m := by
  obtain ⟨cmt, loaded, charged⟩ := inv.loadCmt conf lseg dirty
  exact ⟨cmt, (Pblk.updateCmt_ok s).mpr ⟨cmt, loaded, rfl⟩, inv.withCmt charged⟩

theorem SectorRefines.updateChange (inv : SectorRefines cfg s m) (lseg : Nat) :
    ∃ cmt, s.updateCmt (fun c => pblkChangeMap c (segInfo cfg s lseg) lseg) = .ok (s.withCmt cmt) ∧
      SectorRefines cfg (s.withCmt cmt) m := by
  obtain ⟨cmt, changed, charged⟩ :=
    changeMap_sectorCharged inv.charged (inv.segInfo_sector conf lseg) (inv.not_block lseg)
  exact ⟨cmt, (Pblk.updateCmt_ok s).mpr ⟨cmt, changed, rfl⟩, inv.withCmt charged⟩

theorem SectorRefines.transMapSet {lba : Nat} {ppa : PpaAddr} (inv : SectorRefines cfg s m)
    (ok : onLines cfg ppa = true) :
    ∃ s', pblkTransMapSet cfg s lba ppa = .ok s' ∧ SectorRefines cfg s' (Function.update m lba ppa) := by
  unfold pblkTransMapSet
  rcases inv.shape (cfg.lsegOf lba) with un | ⟨p, entry⟩
  · have none : (s.bmap (cfg.lsegOf lba)).map = .none := by rw [un]; rfl
    simp only [none, if_true, Pblk.alloc_fst]
    rw [show ({ map := .sector, lstream := 0, isCached := false, val := .pointer s.next } : PbaAddr) =
      sectorEntry s.next from rfl]
    have linked : SectorRefines cfg ((s.alloc (.ppas fun _ => .empty)).2.setBmap (cfg.lsegOf lba)
        (sectorEntry s.next)) m :=
      (inv.alloc _).link (f := fun _ => .empty) un inv.fresh_next (Nat.lt_succ_self _) (by simp)
        (fun lba' seg => (inv.unmapped lba' (seg ▸ un)).symm) (fun _ _ => rfl) inv.lines
    obtain ⟨cmt, changed, inv2⟩ := linked.updateChange conf (cfg.lsegOf lba)
    obtain ⟨cmt', loaded, inv3⟩ := inv2.updateLoad conf (cfg.lsegOf lba) true
    obtain ⟨s', set, inv4⟩ := inv3.setPpa lba (p := s.next) (by simp) ok
    have kept : ¬cfg.nrLstream ≤ 0 := Nat.not_le.mpr conf.valid
    refine ⟨s', ?_, inv4⟩
    simp only [changed, ok_bind, pure_bind, loaded, sectorEntry_lstream, kept, if_false, conf.sector,
      sectorEntry_map, ne_eq, not_true_eq_false, sectorEntry_val, PbaVal.pointer?, set]
  · -- a mapped segment: charge it, then write its table
    obtain ⟨cmt, loaded, inv2⟩ := inv.updateLoad conf (cfg.lsegOf lba) true
    obtain ⟨s', set, inv3⟩ := inv2.setPpa lba (p := p) (by simpa using entry) ok
    have kept : ¬cfg.nrLstream ≤ 0 := Nat.not_le.mpr conf.valid
    refine ⟨s', ?_, inv3⟩
    simp only [entry, sectorEntry_map, reduceCtorEq, if_false, pure_bind, loaded, ok_bind, sectorEntry_lstream, kept,
      conf.sector,
      sectorEntry_map, ne_eq, not_true_eq_false, sectorEntry_val, PbaVal.pointer?, set]

theorem SectorRefines.cacheMapSet {lba : Nat} {ppa : PpaAddr} (inv : SectorRefines cfg s m)
    (ok : onLines cfg ppa = true) :
    ∃ s', pblkCacheMapSet cfg s lba ppa = .ok s' ∧ SectorRefines cfg s' (Function.update m lba ppa) := by
  unfold pblkCacheMapSet
  rcases inv.shape (cfg.lsegOf lba) with un | ⟨p, entry⟩
  · have none : (s.bmap (cfg.lsegOf lba)).map = .none := by rw [un]; rfl
    simp only [none, if_true, Pblk.alloc_fst]
    obtain ⟨cmt, changed, inv2⟩ := (inv.alloc (.ppas fun _ => zeroPpa)).updateChange conf (cfg.lsegOf lba)
    rw [changed, ok_bind]
    refine ⟨_, rfl, ?_⟩
    -- the new table holds this address alone: the segment held only empty ones
    have free : ∀ l, ((s.alloc (.ppas fun _ => zeroPpa)).2.withCmt cmt).bmap l ≠ sectorEntry s.next := by
      simpa using inv.fresh_next
    have empty : ∀ lba', cfg.lsegOf lba' = cfg.lsegOf lba → PpaAddr.empty = m lba' :=
      fun lba' seg => (inv.unmapped lba' (seg ▸ un)).symm
    exact (inv2.setTable free _).link (by simpa using un) (by simpa using free) (Nat.lt_succ_self _) (by simp)
      (update_agrees (f := fun _ => .empty) empty ppa)
      (fun lba' seg => Function.update_of_ne (fun same => seg (congrArg cfg.lsegOf same)) ..)
      (inv.lines_update ok)
  · -- a mapped segment: charge it, then write its table
    obtain ⟨cmt, loaded, inv2⟩ := inv.updateLoad conf (cfg.lsegOf lba) true
    obtain ⟨s', set, inv3⟩ := inv2.setPpa lba (p := p) (by simpa using entry) ok
    have kept : ¬cfg.nrLstream ≤ 0 := Nat.not_le.mpr conf.valid
    refine ⟨s', ?_, inv3⟩
    simp only [entry, sectorEntry_map, reduceCtorEq, if_false, loaded, ok_bind, sectorEntry_lstream, kept,
      conf.sector, ne_eq, not_true_eq_false, sectorEntry_val, PbaVal.pointer?, set]

theorem SectorRefines.devMapSet {lba : Nat} {ppa : PpaAddr} (inv : SectorRefines cfg s m)
    (cached : m lba ≠ .empty) (ok : onLines cfg ppa = true) :
    ∃ s', pblkDevMapSet cfg s lba ppa = .ok s' ∧ SectorRefines cfg s' (Function.update m lba ppa) := by
  unfold pblkDevMapSet
  rcases inv.shape (cfg.lsegOf lba) with un | ⟨p, entry⟩
  · exact absurd (inv.unmapped lba un) cached
  · obtain ⟨cmt, loaded, inv2⟩ := inv.updateLoad conf (cfg.lsegOf lba) true
    obtain ⟨s', set, inv3⟩ := inv2.setPpa lba (p := p) (by simpa using entry) ok
    have kept : ¬cfg.nrLstream ≤ 0 := Nat.not_le.mpr conf.valid
    refine ⟨s', ?_, inv3⟩
    simp only [entry, sectorEntry_lstream, kept, if_false, loaded, ok_bind, conf.sector, sectorEntry_map, ne_eq,
      not_true_eq_false, sectorEntry_val, PbaVal.pointer?, set]

theorem SectorRefines.mapRead_eq (inv : SectorRefines cfg s m) (lba : Nat) : mapRead cfg s lba = .ok (m lba) := by
  unfold mapRead
  rcases inv.shape (cfg.lsegOf lba) with un | ⟨p, entry⟩
  · simp [un, unmappedEntry, inv.unmapped lba un]
  · obtain ⟨-, f, held, agree⟩ := inv.table _ p entry
    have kept : ¬cfg.nrLstream ≤ 0 := Nat.not_le.mpr conf.valid
    have lines := inv.lines lba
    simp only [entry, sectorEntry_map, reduceCtorEq, if_false, sectorEntry_lstream, kept, conf.sector, ne_eq,
      not_true_eq_false, sectorEntry_val, PbaVal.pointer?, ok_bind, Pblk.ppas, held, agree lba rfl]
    -- a device address is returned only on a line, which the map's addresses are
    cases read : m lba with
    | dev g =>
      rw [read] at lines
      simp only [onLines, decide_eq_true_eq] at lines
      simp [Nat.not_le.mpr lines]
    | empty => rfl
    | cache line nrb reserved => rfl

theorem SectorRefines.transMapGet (inv : SectorRefines cfg s m) (lba : Nat) :
    ∃ s', pblkTransMapGet cfg s lba = .ok (m lba, s') ∧ SectorRefines cfg s' m := by
  unfold pblkTransMapGet
  rcases inv.shape (cfg.lsegOf lba) with un | ⟨p, entry⟩
  · refine ⟨s, ?_, inv⟩
    simp [un, unmappedEntry, inv.unmapped lba un]
  · obtain ⟨cmt, loaded, charged⟩ := inv.loadCmt conf (cfg.lsegOf lba) false
    have kept : ¬cfg.nrLstream ≤ 0 := Nat.not_le.mpr conf.valid
    refine ⟨s.withCmt cmt, ?_, inv.withCmt charged⟩
    simp only [entry, sectorEntry_map, reduceCtorEq, if_false, sectorEntry_lstream, kept, loaded, ok_bind,
      inv.mapRead_eq conf lba]
    rfl

/-! ## Runs -/

theorem SectorRefines.l2pApply {op : L2pOp} (inv : SectorRefines cfg s m) (allowed : sectorAdmits cfg m op = true) :
    ∃ s', l2pApply cfg s op = .ok s' ∧ SectorRefines cfg s' (sectorSpec m op) := by
  cases op with
  | setLstream lba lstream => simp [sectorAdmits] at allowed
  | transMapSet lba ppa => exact inv.transMapSet conf allowed
  | cacheMapSet lba ppa => exact inv.cacheMapSet conf allowed
  | devMapSet lba ppa =>
    simp only [sectorAdmits, Bool.and_eq_true, decide_eq_true_eq] at allowed
    exact inv.devMapSet conf allowed.2 allowed.1

omit conf in
theorem l2pRun_eq_foldlM (s : Pblk) (ops : List L2pOp) : l2pRun cfg s ops = ops.foldlM (l2pApply cfg) s := by
  induction ops generalizing s with
  | nil => rfl
  | cons op rest ih =>
    rw [l2pRun, List.foldlM_cons]
    simp only [ih]

theorem SectorRefines.l2pRun (inv : SectorRefines cfg s m) (ops : List L2pOp)
    (allowed : admits (sectorAdmits cfg) sectorSpec m ops = true) :
    ∃ s', l2pRun cfg s ops = .ok s' ∧ SectorRefines cfg s' (ops.foldl sectorSpec m) := by
  rw [l2pRun_eq_foldlM]
  exact simulates_run (L2p.l2pApply cfg) sectorSpec (sectorAdmits cfg) (SectorRefines cfg)
    (fun _ _ _ inv allowed => inv.l2pApply conf allowed) ops s m inv allowed

end Stream0

/-! ## From `pblk_l2p_init` -/

/-- From `pblk_l2p_init`, a run of writes that sector-mapped streams take
never faults, and a lookup of any lba afterwards returns the address last
written to it, `ADDR_EMPTY` if none was. -/
theorem sector_run_reads_last_writes (conf : SectorConfig cfg) (rwb : Nat → Rb) (ops : List L2pOp)
    (allowed : admits (sectorAdmits cfg) sectorSpec (fun _ => .empty) ops = true) :
    ∃ s, l2pRun cfg (pblkL2pInit rwb) ops = .ok s ∧
      ∀ lba, ∃ s', pblkTransMapGet cfg s lba = .ok (ops.foldl sectorSpec (fun _ => .empty) lba, s') := by
  obtain ⟨s, ran, inv⟩ := (refines_init cfg rwb).l2pRun conf ops allowed
  refine ⟨s, ran, fun lba => ?_⟩
  obtain ⟨s', got, -⟩ := inv.transMapGet conf lba
  exact ⟨s', got⟩

theorem mixedConfig_sector : SectorConfig mixedConfig := ⟨by decide, rfl⟩

/-- A cache write, its device update and a GC move to another segment. -/
def sectorWrites : List L2pOp :=
  [.cacheMapSet 5 (.cache 0 3 false), .devMapSet 5 (.dev ⟨1, 0, 1, 0, 0, 0⟩), .transMapSet 40 (.dev ⟨2, 3, 0, 0, 0, 0⟩)]

theorem sector_run_reads_last_writes_mixed :
    SectorConfig mixedConfig ∧ admits (sectorAdmits mixedConfig) sectorSpec (fun _ => .empty) sectorWrites = true ∧
      ∃ s, l2pRun mixedConfig (pblkL2pInit fun nrb => pblkRbInit nrb 2) sectorWrites = .ok s ∧
        ∀ lba, ∃ s', pblkTransMapGet mixedConfig s lba = .ok (sectorWrites.foldl sectorSpec (fun _ => .empty) lba, s') :=
  ⟨mixedConfig_sector, by decide, sector_run_reads_last_writes mixedConfig_sector _ _ (by decide)⟩

/-- Over such a run the DFTL table stays within its budget of 64 Ki units and
holds at most fifteen segments, so no load ever finds the LRU list empty. -/
theorem sector_run_dftl_within_budget (conf : SectorConfig cfg) (rwb : Nat → Rb) (ops : List L2pOp)
    (allowed : admits (sectorAdmits cfg) sectorSpec (fun _ => .empty) ops = true) :
    ∃ s, l2pRun cfg (pblkL2pInit rwb) ops = .ok s ∧ s.cmt.allocRes ≤ s.cmt.maxRes ∧ s.cmt.mapList.length ≤ 15 := by
  obtain ⟨s, ran, inv⟩ := (refines_init cfg rwb).l2pRun conf ops allowed
  have charged := inv.charged
  refine ⟨s, ran, ?_, charged.fits⟩
  rw [charged.allocRes, charged.maxRes]
  have := charged.fits
  omega

theorem sector_run_dftl_within_budget_mixed :
    SectorConfig mixedConfig ∧ admits (sectorAdmits mixedConfig) sectorSpec (fun _ => .empty) sectorWrites = true ∧
      ∃ s, l2pRun mixedConfig (pblkL2pInit fun nrb => pblkRbInit nrb 2) sectorWrites = .ok s ∧
        s.cmt.allocRes ≤ s.cmt.maxRes ∧ s.cmt.mapList.length ≤ 15 :=
  ⟨mixedConfig_sector, by decide, sector_run_dftl_within_budget mixedConfig_sector _ _ (by decide)⟩


end MStream.L2p
