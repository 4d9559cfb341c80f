import MStream.L2p.Stream

/-!
Page-mapped segments. A page-table entry holds either a four-sector log or one
page address; a lookup of a page without a log returns the entry's page
address with the sector taken from the lba. A writer that fills the last
sector of a page collapses the log into one entry when `pblk_check_page_align`
finds the page empty or consecutive from sector 0. `pblk_dev_map_set` copies
the page number of the first sector's address into the entry, while
`pblk_trans_map_set` copies its block number there. So after a collapse by
`pblk_trans_map_set`, every sector of the page reads a page whose number is
its block number.
-/

namespace MStream.L2p

open Machine Address RingBuffer Dftl

/-- The page-table entry `pmap[pindex]` of `lba`'s page. -/
def pageEntry (cfg : Config) (s : Pblk) (lba : Nat) : Except Fault PageEntry := do
  let pmap ← s.pages (← (s.bmap (cfg.lsegOf lba)).val.pointer?)
  pure (pmap (cfg.pindexOf lba))

variable {cfg : Config}

/-! ## The page-table entry through the heap operations -/

section Frame

variable {s s' : Pblk} {lba : Nat}

@[simp] theorem pageEntry_withCmt (cmt : CmtMgt) :
    pageEntry cfg (s.withCmt cmt) lba = pageEntry cfg s lba := rfl

theorem pageEntry_congr {lba' : Nat} (sameSeg : cfg.lsegOf lba' = cfg.lsegOf lba)
    (samePage : cfg.pindexOf lba' = cfg.pindexOf lba) :
    pageEntry cfg s lba' = pageEntry cfg s lba := by
  simp only [pageEntry, sameSeg, samePage]

theorem pageEntry_setPpa {p i : Nat} {ppa : PpaAddr} (set : s.setPpa p i ppa = .ok s') :
    pageEntry cfg s' lba = pageEntry cfg s lba := by
  simp only [pageEntry, Pblk.setPpa_bmap _ set, Pblk.setPpa_pages _ set]

theorem pageEntry_setPage {p : Nat} {e : PageEntry}
    (points : (s.bmap (cfg.lsegOf lba)).val = .pointer p)
    (set : s.setPage p (cfg.pindexOf lba) e = .ok s') :
    pageEntry cfg s' lba = .ok e := by
  obtain ⟨f, -, after⟩ := Pblk.setPage_pages_self _ set
  simp [pageEntry, Pblk.setPage_bmap _ set, points, PbaVal.pointer?, after]

end Frame

theorem mapRead_page_entry {s : Pblk} {lba : Nat} {e : PageEntry}
    (page : (s.bmap (cfg.lsegOf lba)).map = .page)
    (pageStream : (cfg.lstream (s.bmap (cfg.lsegOf lba)).lstream).mapType = .page)
    (valid : (s.bmap (cfg.lsegOf lba)).lstream < cfg.nrLstream)
    (entry : pageEntry cfg s lba = .ok e) (noLog : e.isCached = false) :
    mapRead cfg s lba = match e.val with
      | .empty => .ok .empty
      | .page b => .ok (.dev { blk := b.blk, pg := b.pg, lun := b.lun, ch := b.ch, pl := b.pl,
                               sec := cfg.poffsetOf lba })
      | .pointer _ => .error .wild := by
  obtain ⟨pmap, pointed, rest⟩ := bind_eq_ok.mp entry
  obtain ⟨f, table, done⟩ := bind_eq_ok.mp rest
  have picked : f (cfg.pindexOf lba) = e := pure_eq_ok.mp done
  simp only [mapRead, page, pageStream, Nat.not_le.mpr valid, PbaVal.pointer?_eq_ok.mp pointed,
    PbaVal.pointer?, ok_bind, table, picked, noLog]
  cases e with
  | mk cached val => cases val <;> simp [PbaVal.page?]

/-! ## The two log operations -/

theorem pageLogCreate_entry {s s' : Pblk} {lba pmap log : Nat}
    (points : (s.bmap (cfg.lsegOf lba)).val = .pointer pmap)
    (created : pageLogCreate cfg s lba pmap = .ok (log, s')) :
    s'.bmap = s.bmap ∧ pageEntry cfg s' lba = .ok { isCached := true, val := .pointer log } := by
  unfold pageLogCreate at created
  obtain ⟨charged, charging, rest⟩ := bind_eq_ok.mp created
  obtain ⟨⟨copies, read⟩, reading, rest⟩ := bind_eq_ok.mp rest
  obtain ⟨stored, storing, done⟩ := bind_eq_ok.mp rest
  simp only [pure_eq_ok, Prod.mk.injEq] at done
  obtain ⟨rfl, rfl⟩ := done
  obtain ⟨-, -, cmt, rfl⟩ := readRange_ok reading
  -- allocation, charging and the copy leave the segment entries alone
  have kept : charged.bmap = s.bmap := by
    rw [Pblk.updateCmt_bmap _ charging]
  refine ⟨by rw [Pblk.setPage_bmap _ storing]; simp [kept], pageEntry_setPage ?_ storing⟩
  simp [kept, points]

theorem pageLogCollapse_entry {s s' : Pblk} {lba pmap log : Nat} {pageOf : DevAddr → PageAddr}
    (points : (s.bmap (cfg.lsegOf lba)).val = .pointer pmap)
    (collapsed : pageLogCollapse cfg s lba pmap log pageOf = .ok s') :
    s'.bmap = s.bmap ∧ (pageEntry cfg s' lba = pageEntry cfg s lba ∨
      ∃ copy, pageEntry cfg s' lba = .ok { isCached := false, val := alignedVal pageOf copy }) := by
  unfold pageLogCollapse at collapsed
  obtain ⟨⟨aligned, copy, checkedState⟩, checking, rest⟩ := bind_eq_ok.mp collapsed
  obtain ⟨-, -, cmt, rfl⟩ := checkPageAlign_ok checking
  cases aligned with
  | false =>
      simp only [Bool.false_eq_true, if_false, pure_eq_ok] at rest
      rw [← rest]
      exact ⟨rfl, Or.inl rfl⟩
  | true =>
      -- aligned: the log is freed and the entry rewritten
      simp only [if_true] at rest
      obtain ⟨charged, charging, rest⟩ := bind_eq_ok.mp rest
      obtain ⟨freed, freeing, storing⟩ := bind_eq_ok.mp rest
      have kept : freed.bmap = s.bmap := by
        rw [Pblk.free_bmap _ freeing, Pblk.updateCmt_bmap _ charging]
        rfl
      refine ⟨by rw [Pblk.setPage_bmap _ storing, kept], Or.inr ⟨copy, pageEntry_setPage ?_ storing⟩⟩
      rw [kept, points]

/-! ## pblk_trans_map_set on a page-mapped segment -/

theorem transMapSetPage_entry {s s' : Pblk} {lba : Nat} {ppa : PpaAddr} {pba : PbaAddr}
    (set : transMapSetPage cfg s lba ppa pba = .ok s') :
    s'.bmap = s.bmap ∧ ∀ e, pageEntry cfg s' lba = .ok e →
      e.isCached = true ∨ ∃ copy, e.val = alignedVal pageOfDevTransMapSet copy := by
  unfold transMapSetPage at set
  by_cases other : pba.map ≠ .page
  · -- a segment entry of another type is a `BUG_ON`
    simp [other] at set
  simp only [other, if_false] at set
  obtain ⟨pmap, pointed, rest⟩ := bind_eq_ok.mp set
  have points := PbaVal.pointer?_eq_ok.mp pointed
  obtain ⟨f, table, rest⟩ := bind_eq_ok.mp rest
  obtain ⟨⟨log, opened⟩, opening, rest⟩ := bind_eq_ok.mp rest
  -- before the write, the page holds a log: the one it had, or a new one
  have withLog : opened.bmap = s.bmap ∧ ∃ e, pageEntry cfg opened lba = .ok e ∧ e.isCached = true := by
    split at opening
    · next cached =>
      obtain ⟨ptr, -, done⟩ := bind_eq_ok.mp opening
      simp only [pure_eq_ok, Prod.mk.injEq] at done
      obtain ⟨-, rfl⟩ := done
      exact ⟨rfl, _, by simp [pageEntry, points, PbaVal.pointer?, table], cached⟩
    · obtain ⟨kept, entry⟩ := pageLogCreate_entry points opening
      exact ⟨kept, _, entry, rfl⟩
  obtain ⟨openedKept, logged, entryLogged, cached⟩ := withLog
  obtain ⟨written, writing, rest⟩ := bind_eq_ok.mp rest
  have writtenKept : written.bmap = s.bmap := by rw [Pblk.setPpa_bmap _ writing, openedKept]
  have writtenEntry : pageEntry cfg written lba = .ok logged := by
    rw [pageEntry_setPpa writing, entryLogged]
  split at rest
  · obtain ⟨kept, same | ⟨copy, rewritten⟩⟩ := pageLogCollapse_entry (by rw [writtenKept, points]) rest
    · refine ⟨by rw [kept, writtenKept], fun e entry => Or.inl ?_⟩
      rw [entry, writtenEntry] at same
      cases same
      exact cached
    · refine ⟨by rw [kept, writtenKept], fun e entry => Or.inr ⟨copy, ?_⟩⟩
      rw [entry] at rewritten
      cases rewritten
      rfl
  · rw [← pure_eq_ok.mp rest]
    refine ⟨writtenKept, fun e entry => Or.inl ?_⟩
    rw [writtenEntry] at entry
    cases entry
    exact cached

theorem transMapSet_page {s s' : Pblk} {lba : Nat} {ppa : PpaAddr}
    (page : (s.bmap (cfg.lsegOf lba)).map = .page)
    (pageStream : (cfg.lstream (s.bmap (cfg.lsegOf lba)).lstream).mapType = .page)
    (set : pblkTransMapSet cfg s lba ppa = .ok s') :
    (s.bmap (cfg.lsegOf lba)).lstream < cfg.nrLstream ∧
      ∃ cmt, transMapSetPage cfg (s.withCmt cmt) lba ppa (s.bmap (cfg.lsegOf lba)) = .ok s' := by
  unfold pblkTransMapSet at set
  simp only [page, reduceCtorEq, if_false, pure_bind] at set
  obtain ⟨charged, charging, rest⟩ := bind_eq_ok.mp set
  obtain ⟨cmt, -, rfl⟩ := (Pblk.updateCmt_ok s).mp charging
  split at rest
  · cases rest
  · next valid =>
    rw [pageStream] at rest
    exact ⟨Nat.not_le.mp valid, cmt, rest⟩

/-- Whenever `pblk_trans_map_set` leaves the page of `lba` without a log, every
lba of that page reads `ADDR_EMPTY`, or a device address whose page number is
the block number of the address it comes from. -/
theorem trans_map_set_collapse_pg_is_blk {s s' : Pblk} {lba : Nat} {ppa : PpaAddr} {e : PageEntry}
    (page : (s.bmap (cfg.lsegOf lba)).map = .page)
    (pageStream : (cfg.lstream (s.bmap (cfg.lsegOf lba)).lstream).mapType = .page)
    (set : pblkTransMapSet cfg s lba ppa = .ok s')
    (entry : pageEntry cfg s' lba = .ok e) (noLog : e.isCached = false) :
    ∀ lba', cfg.lsegOf lba' = cfg.lsegOf lba → cfg.pindexOf lba' = cfg.pindexOf lba →
      mapRead cfg s' lba' = .ok .empty ∨
        ∃ g : DevAddr, mapRead cfg s' lba' = .ok (.dev { g with pg := g.blk, sec := cfg.poffsetOf lba' }) := by
  obtain ⟨valid, cmt, setPage⟩ := transMapSet_page page pageStream set
  obtain ⟨kept, entries⟩ := transMapSetPage_entry setPage
  intro lba' sameSeg samePage
  obtain cached | ⟨copy, collapsed⟩ := entries e entry
  · simp [noLog] at cached
  -- the page's other sectors read the same entry, on the same segment entry
  have entry' : pageEntry cfg s' lba' = .ok e := by rw [pageEntry_congr sameSeg samePage, entry]
  have kept' : s'.bmap (cfg.lsegOf lba') = s.bmap (cfg.lsegOf lba) := by rw [kept, sameSeg]; rfl
  have read := mapRead_page_entry (by rw [kept', page]) (by rw [kept', pageStream])
    (by rw [kept']; exact valid) entry' noLog
  rw [read, collapsed]
  unfold alignedVal
  cases copy.getD 0 zeroPpa with
  | dev g => exact Or.inr ⟨g, rfl⟩
  | empty => exact Or.inl rfl
  | cache _ _ _ => exact Or.inl rfl

/-- In `mixedConfig` (four-sector pages): segment 0 made sector-mapped (stream
0) and then page-mapped (stream 2) from `pblk_l2p_init`; recovery
(`pblk_update_map`) maps lbas 0 to 3 to sectors 0 to 3 of page 2 of block 1.
The last write collapses the page, and lba 0 then reads page 1. -/
theorem trans_map_set_collapse_pg_is_blk_on_recovery :
    ∃ s s' e, l2pRun mixedConfig (pblkL2pInit fun nrb => pblkRbInit nrb 2)
        [.setLstream 0 0, .setLstream 0 2,
          .transMapSet 0 (.dev { blk := 1, pg := 2, sec := 0, pl := 0, lun := 0, ch := 0 }),
          .transMapSet 1 (.dev { blk := 1, pg := 2, sec := 1, pl := 0, lun := 0, ch := 0 }),
          .transMapSet 2 (.dev { blk := 1, pg := 2, sec := 2, pl := 0, lun := 0, ch := 0 })] = .ok s ∧
      pblkTransMapSet mixedConfig s 3 (.dev { blk := 1, pg := 2, sec := 3, pl := 0, lun := 0, ch := 0 }) =
        .ok s' ∧ pageEntry mixedConfig s' 3 = .ok e ∧ e.isCached = false ∧
      mapRead mixedConfig s' 0 = .ok (.dev { blk := 1, pg := 1, sec := 0, pl := 0, lun := 0, ch := 0 }) ∧
      (mapRead mixedConfig s' 0 = .ok .empty ∨
        ∃ g : DevAddr, mapRead mixedConfig s' 0 = .ok (.dev { g with pg := g.blk, sec := mixedConfig.poffsetOf 0 })) := by
  refine ⟨_, ?after, ?e, rfl, ?set, ?entry, ?noLog, ?value, ?read⟩
  case read => exact trans_map_set_collapse_pg_is_blk (by rfl) (by rfl) ?set ?entry ?noLog 0 (by rfl) (by rfl)
  case set => rfl
  case entry => rfl
  case noLog => rfl
  case value => rfl

end MStream.L2p
