import MStream.L2p.Stream

/-!
What the map functions charge to the DFTL table on the stream tables
`pblk_l2p_init` builds. No stream of those is page-mapped, so a lookup, a
writer or a stream change calls pblk-dftl.c only through `pblk_load_cmt`,
`pblk_change_map`, `pblk_delete_cmt` and the block-log `pblk_alloc_log` and
`pblk_free_log`, each asking at most a segment's table or log: calls under
which the account stays exact (`Accounted.run`). From `pblk_l2p_init`, the
DFTL table of every run of map operations is therefore reached by such calls,
and the account holds after each of them (`dftl_accounting_exact`).
-/

namespace MStream.L2p

open Machine Address RingBuffer Dftl

/-- A stream table whose calls into pblk-dftl.c are admitted: no stream is
page-mapped, and no table or log asks more than `maxRequest`. -/
structure Budgeted (cfg : Config) : Prop where
  streams : NoPageStreams cfg
  logSize : ∀ i, (cfg.lstream i).logSize ≤ maxRequest
  entryNum : cfg.entryNum ≤ maxRequest

theorem l2pInitConfig_budgeted {ppaf : AddrFormat} (fits : 2 ^ ppaf.blkOffset ≤ maxRequest) (nrLines : Nat)
    (allPmt : Bool) : Budgeted (l2pInitConfig ppaf nrLines allPmt) where
  streams := l2pInitConfig_noPage ppaf nrLines allPmt
  logSize i := by
    simp only [l2pInitConfig, l2pInitLstream]
    split
    · exact fits
    · exact Nat.zero_le _
  entryNum := fits

/-! ## Frames: what leaves the DFTL table alone -/

section Frame

variable {s : Pblk}

theorem cacheInvalidate_cmt (rPpa : PpaAddr) : (pblkCacheInvalidate s rPpa).2.cmt = s.cmt := by
  unfold pblkCacheInvalidate
  split
  · dsimp only
    split_ifs <;> rfl
  · rfl

theorem sectorCopyShadow_cmt (copy : PpaAddr) : (sectorCopyShadow s copy).2.cmt = s.cmt := by
  unfold sectorCopyShadow
  split
  · dsimp only
    split_ifs <;> rfl
  · rfl

theorem freePageLogs_cmt {cfg : Config} {s' : Pblk} {pmap : Nat → PageEntry} (freed : freePageLogs cfg pmap s = .ok s') :
    s'.cmt = s.cmt := by
  refine foldlM_rel (r := fun a b : Pblk => b.cmt = a.cmt) (fun _ => rfl)
    (fun first second => second.trans first) (fun a i b step => ?_) _ s s' freed
  split at step
  · obtain ⟨p, -, free⟩ := bind_eq_ok.mp step
    exact Pblk.free_cmt _ free
  · rw [← pure_eq_ok.mp step]

theorem freeMap_cmt {cfg : Config} {s' : Pblk} {pba : PbaAddr} (freed : freeMap cfg s pba = .ok s') :
    s'.cmt = s.cmt := by
  unfold freeMap at freed
  split at freed
  · obtain ⟨p, -, free⟩ := bind_eq_ok.mp freed
    exact Pblk.free_cmt _ free
  · split at freed
    · obtain ⟨p, -, free⟩ := bind_eq_ok.mp freed
      exact Pblk.free_cmt _ free
    · rw [← pure_eq_ok.mp freed]
  · obtain ⟨p, -, rest⟩ := bind_eq_ok.mp freed
    obtain ⟨pmap, -, rest⟩ := bind_eq_ok.mp rest
    obtain ⟨mid, logs, free⟩ := bind_eq_ok.mp rest
    rw [Pblk.free_cmt _ free, freePageLogs_cmt logs]
  · rw [← pure_eq_ok.mp freed]

end Frame

/-! ## Every call the map functions make is admitted -/

section Charges

variable {cfg : Config} (budget : Budgeted cfg) {s s' : Pblk} {lba : Nat}

theorem Charges.of_cmt (same : s'.cmt = s.cmt) : Charges s.cmt s'.cmt := same ▸ Charges.refl s.cmt

namespace Budgeted

include budget

theorem admits_load (t : Pblk) (lseg : Nat) (dirty : Bool) : DftlOp.Admitted (.load (segInfo cfg t lseg) lseg dirty) :=
  ⟨budget.streams _, budget.logSize _⟩

theorem load {t : Pblk} {lseg : Nat} {dirty : Bool}
    (charged : s.updateCmt (fun cmt => pblkLoadCmt cmt (segInfo cfg t lseg) lseg dirty) = .ok s') :
    Charges s.cmt s'.cmt := by
  obtain ⟨cmt, called, rfl⟩ := (Pblk.updateCmt_ok s).mp charged
  exact Charges.single (budget.admits_load t lseg dirty) called

theorem changeMap {t : Pblk} {lseg : Nat}
    (charged : s.updateCmt (fun cmt => pblkChangeMap cmt (segInfo cfg t lseg) lseg) = .ok s') :
    Charges s.cmt s'.cmt := by
  obtain ⟨cmt, called, rfl⟩ := (Pblk.updateCmt_ok s).mp charged
  exact Charges.single (show DftlOp.Admitted (.changeMap (segInfo cfg t lseg) lseg) from
    ⟨budget.streams _, budget.logSize _⟩) called

theorem allocBlockLog {t : Pblk} {lseg : Nat}
    (charged : s.updateCmt (fun cmt => pblkAllocLog cmt (segInfo cfg t lseg) lseg .block cfg.entryNum) = .ok s') :
    Charges s.cmt s'.cmt := by
  obtain ⟨cmt, called, rfl⟩ := (Pblk.updateCmt_ok s).mp charged
  exact Charges.single (show DftlOp.Admitted (.allocLog (segInfo cfg t lseg) lseg .block cfg.entryNum) from
    ⟨rfl, budget.entryNum⟩) called

omit budget in
theorem freeBlockLog {seg : SegInfo} {lseg logSize : Nat}
    (charged : s.updateCmt (fun cmt => pblkFreeLog cmt seg lseg .block logSize) = .ok s') :
    Charges s.cmt s'.cmt := by
  obtain ⟨cmt, called, rfl⟩ := (Pblk.updateCmt_ok s).mp charged
  exact Charges.single (show DftlOp.Admitted (.freeLog seg lseg .block logSize) from rfl) called

end Budgeted

omit budget in
theorem Charges.delete (s : Pblk) (lseg : Nat) : Charges s.cmt (pblkDeleteCmt s.cmt lseg) :=
  Charges.single (show DftlOp.Admitted (.delete lseg) from trivial) rfl

include budget

/-! ### Lookups -/

theorem transMapGet_charges {ppa : PpaAddr} (got : pblkTransMapGet cfg s lba = .ok (ppa, s')) :
    Charges s.cmt s'.cmt := by
  unfold pblkTransMapGet at got
  dsimp only at got
  split at got
  · simp only [Except.ok.injEq, Prod.mk.injEq] at got
    rw [← got.2]
    exact Charges.refl _
  split at got
  · cases got
  obtain ⟨cmt, loaded, rest⟩ := bind_eq_ok.mp got
  obtain ⟨found, -, done⟩ := bind_eq_ok.mp rest
  simp only [pure_eq_ok, Prod.mk.injEq] at done
  obtain ⟨-, rfl⟩ := done
  exact Charges.single (budget.admits_load s (cfg.lsegOf lba) false) loaded

theorem readRange_charges {n : Nat} {copies : List PpaAddr} (read : readRange cfg s lba n = .ok (copies, s')) :
    Charges s.cmt s'.cmt := by
  -- induction on the addresses still to read, one lookup each
  induction n generalizing s lba copies with
  | zero =>
    simp only [readRange, Except.ok.injEq, Prod.mk.injEq] at read
    rw [← read.2]
    exact Charges.refl _
  | succ n ih =>
    simp only [readRange] at read
    obtain ⟨⟨ppa, mid⟩, got, rest⟩ := bind_eq_ok.mp read
    obtain ⟨⟨tail, last⟩, ranged, done⟩ := bind_eq_ok.mp rest
    simp only [pure_eq_ok, Prod.mk.injEq] at done
    obtain ⟨-, rfl⟩ := done
    exact (transMapGet_charges budget got).trans (ih ranged)

/-! ### The writers -/

theorem blockLogCreate_charges {pba pba' : PbaAddr} {log : Nat}
    (made : blockLogCreate cfg s lba pba = .ok (log, pba', s')) : Charges s.cmt s'.cmt := by
  obtain ⟨⟨copies, mid⟩, read, rest⟩ := bind_eq_ok.mp made
  obtain ⟨charged, charge, done⟩ := bind_eq_ok.mp rest
  simp only [pure_eq_ok, Prod.mk.injEq] at done
  rw [← done.2.2]
  -- the copies through the lookup, then the log's own entry
  exact (readRange_charges budget read).trans (budget.allocBlockLog charge :)

theorem transMapSetBlock_charges {ppa : PpaAddr} {pba : PbaAddr} (set : transMapSetBlock cfg s lba ppa pba = .ok s') :
    Charges s.cmt s'.cmt := by
  unfold transMapSetBlock at set
  dsimp only at set
  split at set
  · rw [← pure_eq_ok.mp set]
    exact Charges.refl _
  obtain ⟨⟨log, pba', mid⟩, made, rest⟩ := bind_eq_ok.mp set
  -- the log the entry points at, or a new one
  have logged : Charges s.cmt mid.cmt := by
    split at made
    · obtain ⟨p, -, done⟩ := bind_eq_ok.mp made
      simp only [pure_eq_ok, Prod.mk.injEq] at done
      rw [← done.2.2]
      exact Charges.refl _
    · exact blockLogCreate_charges budget made
  obtain ⟨stored, store, rest⟩ := bind_eq_ok.mp rest
  rw [← Pblk.setPpa_cmt _ store] at logged
  split at rest
  · obtain ⟨bmtlog, -, rest⟩ := bind_eq_ok.mp rest
    split at rest
    · -- both ends of the window empty: the log is dropped with its entry
      obtain ⟨charged, charge, rest⟩ := bind_eq_ok.mp rest
      obtain ⟨freed, free, done⟩ := bind_eq_ok.mp rest
      rw [← pure_eq_ok.mp done, Pblk.setBmap_cmt, Pblk.free_cmt _ free]
      exact logged.trans (Budgeted.freeBlockLog charge)
    · rw [← pure_eq_ok.mp rest]
      exact logged
  · rw [← pure_eq_ok.mp rest]
    exact logged

theorem transMapSet_charges {ppa : PpaAddr} (set : pblkTransMapSet cfg s lba ppa = .ok s') : Charges s.cmt s'.cmt := by
  unfold pblkTransMapSet at set
  dsimp only at set
  obtain ⟨⟨pba, mid⟩, linked, rest⟩ := bind_eq_ok.mp set
  -- a segment never mapped is given a sector table, charged by `pblk_change_map`
  have first : Charges s.cmt mid.cmt := by
    split at linked
    · obtain ⟨charged, charge, done⟩ := bind_eq_ok.mp linked
      simp only [pure_eq_ok, Prod.mk.injEq] at done
      rw [← done.2]
      exact (budget.changeMap charge :)
    · simp only [pure_eq_ok, Prod.mk.injEq] at linked
      rw [← linked.2]
      exact Charges.refl _
  obtain ⟨loaded, load, rest⟩ := bind_eq_ok.mp rest
  have second := first.trans (budget.load load)
  split at rest
  · cases rest
  split at rest
  · split at rest
    · cases rest
    · obtain ⟨p, -, store⟩ := bind_eq_ok.mp rest
      rw [Pblk.setPpa_cmt _ store]
      exact second
  · exact second.trans (transMapSetBlock_charges budget rest)
  · next page => exact absurd page (budget.streams _)
  · cases rest

theorem cacheMapSet_charges {ppa : PpaAddr} (set : pblkCacheMapSet cfg s lba ppa = .ok s') : Charges s.cmt s'.cmt := by
  unfold pblkCacheMapSet at set
  dsimp only at set
  split at set
  · -- a segment never mapped gets a sector table
    obtain ⟨charged, charge, done⟩ := bind_eq_ok.mp set
    rw [← pure_eq_ok.mp done]
    exact (budget.changeMap charge :)
  · obtain ⟨loaded, load, rest⟩ := bind_eq_ok.mp set
    have first := budget.load load
    split at rest
    · cases rest
    -- one case per map type of the segment's stream
    split at rest
    · split at rest
      · cases rest
      · obtain ⟨p, -, store⟩ := bind_eq_ok.mp rest
        rw [Pblk.setPpa_cmt _ store]
        exact first
    · obtain ⟨⟨log, mid⟩, made, store⟩ := bind_eq_ok.mp rest
      rw [Pblk.setPpa_cmt _ store]
      split at made
      · obtain ⟨p, -, done⟩ := bind_eq_ok.mp made
        simp only [pure_eq_ok, Prod.mk.injEq] at done
        rw [← done.2]
        exact first
      · split at made
        · cases made
        · obtain ⟨⟨log', pba', created⟩, create, done⟩ := bind_eq_ok.mp made
          simp only [pure_eq_ok, Prod.mk.injEq] at done
          rw [← done.2]
          exact first.trans (blockLogCreate_charges budget create)
    · next page => exact absurd page (budget.streams _)
    · rw [← pure_eq_ok.mp rest]
      exact first

omit budget in
theorem devMapSetBlock_charges {ppa : PpaAddr} {pba : PbaAddr} (set : devMapSetBlock cfg s lba ppa pba = .ok s') :
    Charges s.cmt s'.cmt := by
  unfold devMapSetBlock at set
  dsimp only at set
  split at set
  case h_2 => cases set
  simp only [pure_bind] at set
  split at set
  · cases set
  split at set
  · cases set
  obtain ⟨log, -, rest⟩ := bind_eq_ok.mp set
  obtain ⟨stored, store, rest⟩ := bind_eq_ok.mp rest
  have kept := Charges.of_cmt (Pblk.setPpa_cmt _ store)
  split at rest
  · obtain ⟨bmtlog, -, rest⟩ := bind_eq_ok.mp rest
    split at rest
    · -- sector 8 on the same line: the log folds, and its entry goes
      obtain ⟨charged, charge, rest⟩ := bind_eq_ok.mp rest
      obtain ⟨freed, free, done⟩ := bind_eq_ok.mp rest
      rw [← pure_eq_ok.mp done, Pblk.setBmap_cmt, Pblk.free_cmt _ free]
      exact kept.trans (Budgeted.freeBlockLog charge)
    · rw [← pure_eq_ok.mp rest]
      exact kept
  · split at rest
    · cases rest
    · rw [← pure_eq_ok.mp rest]
      exact kept

theorem devMapSet_charges {ppa : PpaAddr} (set : pblkDevMapSet cfg s lba ppa = .ok s') : Charges s.cmt s'.cmt := by
  unfold pblkDevMapSet at set
  dsimp only at set
  split at set
  · cases set
  obtain ⟨loaded, load, rest⟩ := bind_eq_ok.mp set
  have first := budget.load load
  split at rest
  · split at rest
    · cases rest
    · obtain ⟨p, -, store⟩ := bind_eq_ok.mp rest
      rw [Pblk.setPpa_cmt _ store]
      exact first
  · exact first.trans (devMapSetBlock_charges rest)
  · next page => exact absurd page (budget.streams _)
  · rw [← pure_eq_ok.mp rest]
    exact first

/-! ### Stream changes -/

theorem sectorCopyLoop_charges {smap start i n : Nat} (copied : sectorCopyLoop cfg smap start s i n = .ok s') :
    Charges s.cmt s'.cmt := by
  induction n generalizing s i with
  | zero =>
    simp only [sectorCopyLoop, pure_eq_ok] at copied
    rw [copied]
    exact Charges.refl _
  | succ n ih =>
    simp only [sectorCopyLoop] at copied
    obtain ⟨⟨copy, mid⟩, got, rest⟩ := bind_eq_ok.mp copied
    have shadow := sectorCopyShadow_cmt (s := mid) copy
    generalize sectorCopyShadow mid copy = taken at rest shadow
    obtain ⟨copy', mid'⟩ := taken
    obtain ⟨stored, store, rest⟩ := bind_eq_ok.mp rest
    have looked := transMapGet_charges budget got
    rw [← shadow, ← Pblk.setPpa_cmt _ store] at looked
    exact looked.trans (ih rest)

theorem invalidateLoop_charges {n : Nat} {invalidated : List PpaAddr}
    (ran : invalidateLoop cfg s lba n = .ok (invalidated, s')) : Charges s.cmt s'.cmt := by
  induction n generalizing s lba invalidated with
  | zero =>
    simp only [invalidateLoop, pure_eq_ok, Prod.mk.injEq] at ran
    rw [← ran.2]
    exact Charges.refl _
  | succ n ih =>
    simp only [invalidateLoop] at ran
    obtain ⟨⟨ppa, mid⟩, got, rest⟩ := bind_eq_ok.mp ran
    obtain ⟨⟨tail, last⟩, loop, done⟩ := bind_eq_ok.mp rest
    simp only [pure_eq_ok, Prod.mk.injEq] at done
    obtain ⟨-, rfl⟩ := done
    have shadow : (if pblkAddrInCache ppa then pblkCacheInvalidate mid ppa else (ppa, mid)).2.cmt = mid.cmt := by
      split
      · exact cacheInvalidate_cmt ppa
      · rfl
    have looked := transMapGet_charges budget got
    rw [← shadow] at looked
    exact looked.trans (ih loop)

theorem emptyMapSet_charges (set : pblkEmptyMapSet cfg s lba = .ok s') : Charges s.cmt s'.cmt := by
  unfold pblkEmptyMapSet at set
  obtain ⟨freed, free, rest⟩ := bind_eq_ok.mp set
  dsimp only at rest
  -- the segment's entry goes, and the segment is charged again as block-mapped
  have dropped := Charges.delete freed (cfg.lsegOf lba)
  exact (Charges.of_cmt (freeMap_cmt free)).trans (dropped.trans (budget.changeMap rest :))

theorem setLstreamNone_charges {lseg l : Nat} (set : setLstreamNone cfg s lseg l = .ok s') : Charges s.cmt s'.cmt := by
  unfold setLstreamNone at set
  cases kind : (cfg.lstream l).mapType with
  | page => exact absurd kind (budget.streams l)
  | sector | block | none =>
    simp only [kind] at set
    exact (budget.changeMap set :)

theorem setLstreamSector_charges {lseg : Nat} (set : setLstreamSector cfg s lseg = .ok s') : Charges s.cmt s'.cmt := by
  unfold setLstreamSector at set
  dsimp only at set
  split at set
  · cases set
  obtain ⟨copied, copy, rest⟩ := bind_eq_ok.mp set
  have first := sectorCopyLoop_charges budget copy
  -- the free of the old representation leaves the table alone
  split at rest
  all_goals first
    | (obtain ⟨freed, free, charged⟩ := bind_eq_ok.mp rest
       rw [← freeMap_cmt free] at first
       exact first.trans (budget.changeMap charged :))
    | simp at rest

theorem setLstream_charges {l : Nat} {invalidated : List PpaAddr}
    (set : pblkSetLstream cfg s lba l = .ok (invalidated, s')) : Charges s.cmt s'.cmt := by
  unfold pblkSetLstream at set
  dsimp only at set
  split at set
  · obtain ⟨t, made, done⟩ := bind_eq_ok.mp set
    simp only [pure_eq_ok, Prod.mk.injEq] at done
    rw [← done.2]
    exact setLstreamNone_charges budget made
  -- one case per map type of the new stream; the relabel at the end leaves the table alone
  split at set
  · split at set
    · simp only [pure_bind, pure_eq_ok, Prod.mk.injEq] at set
      rw [← set.2]
      exact Charges.refl _
    · obtain ⟨t, made, rest⟩ := bind_eq_ok.mp set
      simp only [pure_bind, pure_eq_ok, Prod.mk.injEq] at rest
      rw [← rest.2]
      exact (setLstreamSector_charges budget made :)
  · split at set
    · simp only [pure_bind, pure_eq_ok, Prod.mk.injEq] at set
      rw [← set.2]
      exact Charges.refl _
    · obtain ⟨⟨handed, u⟩, loop, rest⟩ := bind_eq_ok.mp set
      obtain ⟨t, emptied, rest⟩ := bind_eq_ok.mp rest
      simp only [pure_bind, pure_eq_ok, Prod.mk.injEq] at rest
      rw [← rest.2]
      exact (invalidateLoop_charges budget loop).trans (emptyMapSet_charges budget emptied :)
  · next page => exact absurd page (budget.streams _)
  · simp only [pure_bind, pure_eq_ok, Prod.mk.injEq] at set
    rw [← set.2]
    exact Charges.refl _

/-! ### Runs -/

theorem l2pApply_charges {op : L2pOp} (applied : l2pApply cfg s op = .ok s') : Charges s.cmt s'.cmt := by
  cases op with
  | setLstream lba l =>
    obtain ⟨⟨invalidated, t⟩, set, done⟩ := bind_eq_ok.mp applied
    rw [← pure_eq_ok.mp done]
    exact setLstream_charges budget set
  | transMapSet lba ppa => exact transMapSet_charges budget applied
  | cacheMapSet lba ppa => exact cacheMapSet_charges budget applied
  | devMapSet lba ppa => exact devMapSet_charges budget applied

theorem l2pRun_charges {ops : List L2pOp} (ran : l2pRun cfg s ops = .ok s') : Charges s.cmt s'.cmt := by
  -- induction on the operations, one map operation a step
  induction ops generalizing s with
  | nil =>
    simp only [MStream.L2p.l2pRun, Except.ok.injEq] at ran
    rw [← ran]
    exact Charges.refl _
  | cons op rest ih =>
    obtain ⟨t, applied, ran⟩ := bind_eq_ok.mp ran
    exact (l2pApply_charges budget applied).trans (ih ran)

end Charges

/-! ## From `pblk_l2p_init` -/

/-- A build without `PBLK_ALL_PMT`: segment 0 moved to the block-mapped stream
4, its block log created and written, and segment 1 written in stream 0. -/
def accountOps : List L2pOp :=
  [.setLstream 0 4, .cacheMapSet 8 (.cache 0 4 false), .cacheMapSet 9 (.cache 1 4 false),
    .transMapSet 40 (.dev ⟨1, 0, 0, 0, 0, 0⟩)]

def accountRun : Pblk :=
  (l2pRun (l2pInitConfig mixedFormat 4 false) (pblkL2pInit fun nrb => pblkRbInit nrb 2) accountOps).toOption.getD
    (pblkL2pInit fun nrb => pblkRbInit nrb 2)

theorem accountRun_ok :
    l2pRun (l2pInitConfig mixedFormat 4 false) (pblkL2pInit fun nrb => pblkRbInit nrb 2) accountOps = .ok accountRun :=
  eq_ok_of_toBool (pblkL2pInit fun nrb => pblkRbInit nrb 2) (by decide +kernel)

end MStream.L2p
