import MStream.L2p.State

/-!
The lookup `pblk_trans_map_get` and the reads built on it. A lookup charges
the segment to the DFTL table (`pblk_load_cmt`) and reads the address through
the segment's representation; `mapRead` is the address part alone, and every
lookup returns what `mapRead` returns on the state it starts from, changing
only the DFTL table (`transMapGet_ok`). The copies taken to build a log
(`readRange`) are therefore the addresses the segment mapped before.
-/

namespace MStream.L2p

open Machine Address Dftl

variable (cfg : Config)

/-- The address `pblk_trans_map_get` returns for `lba`, its DFTL side effect
apart. -/
def mapRead (s : Pblk) (lba : Nat) : Except Fault PpaAddr :=
  let pba := s.bmap (cfg.lsegOf lba)
  let loff := cfg.loffOf lba
  if pba.map = .none then .ok .empty
  else if cfg.nrLstream ≤ pba.lstream then .error .bug
  else
    match (cfg.lstream pba.lstream).mapType with
    | .sector =>
        if pba.map ≠ .sector then .error .bug
        else do
          let smap ← s.ppas (← pba.val.pointer?)
          match smap loff with
          | .dev g => if cfg.nrLines ≤ g.blk then .error .bug else .ok (.dev g)
          | ppa => .ok ppa
    | .block =>
        if pba.map ≠ .block then .error .bug
        else if pba.isCached then do
          let bmtlog ← s.ppas (← pba.val.pointer?)
          pure (bmtlog loff)
        else if pba.val = .empty then .ok .empty
        else if loff < 8 then .ok .empty
        else if (loff : Int) > cfg.entryNum - 17 then .ok .empty
        else do
          -- the block entry stands for the whole line: the other fields come from the lba
          let b ← pba.val.page?
          if cfg.nrLines ≤ b.blk then .error .bug else .ok (addrToGenPpa cfg.ppaf lba b.blk)
    | .page =>
        if pba.map ≠ .page then .error .bug
        else do
          let pmap ← s.pages (← pba.val.pointer?)
          let entry := pmap (cfg.pindexOf lba)
          if entry.isCached then do
            let pmtlog ← s.ppas (← entry.val.pointer?)
            pure (pmtlog (cfg.poffsetOf lba))
          else if entry.val = .empty then .ok .empty
          else do
            let b ← entry.val.page?
            pure (.dev { blk := b.blk, pg := b.pg, lun := b.lun, ch := b.ch, pl := b.pl,
                         sec := cfg.poffsetOf lba })
    | .none => .error .bug

def pblkTransMapGet (s : Pblk) (lba : Nat) : Except Fault (PpaAddr × Pblk) :=
  let lseg := cfg.lsegOf lba
  let pba := s.bmap lseg
  if pba.map = .none then .ok (.empty, s)
  else if cfg.nrLstream ≤ pba.lstream then .error .bug
  else do
    let cmt ← pblkLoadCmt s.cmt (segInfo cfg s lseg) lseg false
    let ppa ← mapRead cfg s lba
    pure (ppa, { s with cmt := cmt })

/-- The loop `copy_ppa = pblk_trans_map_get(pblk, start_lba + i)` for
`i < n`, in order. -/
def readRange : Pblk → Nat → Nat → Except Fault (List PpaAddr × Pblk)
  | s, _, 0 => .ok ([], s)
  | s, lba, n + 1 => do
      let (ppa, s) ← pblkTransMapGet cfg s lba
      let (rest, s) ← readRange s (lba + 1) n
      pure (ppa :: rest, s)

/-- The test of `pblk_check_page_align` on the four addresses of a page: all
empty, or four consecutive sectors of one flash page from sector 0. -/
def pageAligned : List PpaAddr → Bool
  | [c0, c1, c2, c3] =>
      if c0 = .empty ∧ c1 = .empty ∧ c2 = .empty ∧ c3 = .empty then true
      else if !c0.isCached ∧ !c1.isCached ∧ !c2.isCached ∧ !c3.isCached then
        let p0 := pblkPpa64ToPpa32 cfg.ppaf c0
        decide (pblkPpa64ToPpa32 cfg.ppaf c1 = (p0 + 1) % 2 ^ 32 ∧
          pblkPpa64ToPpa32 cfg.ppaf c2 = (p0 + 2) % 2 ^ 32 ∧
          pblkPpa64ToPpa32 cfg.ppaf c3 = (p0 + 3) % 2 ^ 32) &&
          (match c0 with
           | .dev g => g.sec == 0
           | _ => false)
      else false
  | _ => false

/-- `pblk_check_page_align`: whether the page starting at `startLba` can be
held by one page-table entry, with the four addresses read. -/
def pblkCheckPageAlign (s : Pblk) (startLba : Nat) : Except Fault (Bool × List PpaAddr × Pblk) := do
  let (copy, s) ← readRange cfg s startLba 4
  pure (pageAligned cfg copy, copy, s)

/-! ## A lookup changes only the DFTL table -/

variable {cfg}

@[simp] theorem mapRead_withCmt (s : Pblk) (cmt : CmtMgt) (lba : Nat) :
    mapRead cfg (s.withCmt cmt) lba = mapRead cfg s lba := rfl

theorem transMapGet_ok {s s' : Pblk} {lba : Nat} {ppa : PpaAddr}
    (got : pblkTransMapGet cfg s lba = .ok (ppa, s')) :
    mapRead cfg s lba = .ok ppa ∧ ∃ cmt, s' = s.withCmt cmt := by
  unfold pblkTransMapGet at got
  dsimp only at got
  split at got
  · next unmapped =>
    simp only [Except.ok.injEq, Prod.mk.injEq] at got
    obtain ⟨rfl, rfl⟩ := got
    exact ⟨by simp [mapRead, unmapped], s.cmt, rfl⟩
  · split at got
    · cases got
    · obtain ⟨cmt, -, rest⟩ := bind_eq_ok.mp got
      obtain ⟨read, found, done⟩ := bind_eq_ok.mp rest
      simp only [pure_eq_ok, Prod.mk.injEq] at done
      obtain ⟨rfl, rfl⟩ := done
      exact ⟨found, cmt, rfl⟩

theorem readRange_ok {s s' : Pblk} {lba n : Nat} {copies : List PpaAddr}
    (read : readRange cfg s lba n = .ok (copies, s')) :
    copies.length = n ∧ (∀ i < n, mapRead cfg s (lba + i) = .ok (copies.getD i zeroPpa)) ∧
      ∃ cmt, s' = s.withCmt cmt := by
  induction n generalizing s lba copies with
  | zero =>
      simp only [readRange, Except.ok.injEq, Prod.mk.injEq] at read
      obtain ⟨rfl, rfl⟩ := read
      exact ⟨rfl, fun i hi => absurd hi (Nat.not_lt_zero i), s.cmt, rfl⟩
  | succ n ih =>
      simp only [readRange] at read
      obtain ⟨⟨ppa, mid⟩, got, rest⟩ := bind_eq_ok.mp read
      obtain ⟨⟨tail, last⟩, ranged, done⟩ := bind_eq_ok.mp rest
      simp only [pure_eq_ok, Prod.mk.injEq] at done
      obtain ⟨rfl, rfl⟩ := done
      obtain ⟨first, cmt, rfl⟩ := transMapGet_ok got
      obtain ⟨length, reads, cmt', rfl⟩ := ih ranged
      refine ⟨by simp [length], fun i hi => ?_, cmt', by simp⟩
      -- the first copy is the lookup itself, the others come from the rest of the loop
      cases i with
      | zero => simpa using first
      | succ i =>
          have later := reads i (by omega)
          rw [mapRead_withCmt] at later
          simpa [Nat.add_assoc, Nat.add_comm 1 i] using later

theorem checkPageAlign_ok {s s' : Pblk} {start : Nat} {aligned : Bool} {copy : List PpaAddr}
    (checked : pblkCheckPageAlign cfg s start = .ok (aligned, copy, s')) :
    aligned = pageAligned cfg copy ∧ (∀ i < 4, mapRead cfg s (start + i) = .ok (copy.getD i zeroPpa)) ∧
      ∃ cmt, s' = s.withCmt cmt := by
  obtain ⟨⟨copies, mid⟩, read, done⟩ := bind_eq_ok.mp checked
  simp only [pure_eq_ok, Prod.mk.injEq] at done
  obtain ⟨rfl, rfl, rfl⟩ := done
  obtain ⟨-, reads, cmt, rfl⟩ := readRange_ok read
  exact ⟨rfl, reads, cmt, rfl⟩

/-! Lookups leave the write buffers alone. -/

theorem transMapGet_rwb {s s' : Pblk} {lba : Nat} {ppa : PpaAddr}
    (got : pblkTransMapGet cfg s lba = .ok (ppa, s')) : s'.rwb = s.rwb := by
  obtain ⟨-, cmt, rfl⟩ := transMapGet_ok got
  rfl

theorem readRange_rwb {s s' : Pblk} {lba n : Nat} {copies : List PpaAddr}
    (read : readRange cfg s lba n = .ok (copies, s')) : s'.rwb = s.rwb := by
  obtain ⟨-, -, cmt, rfl⟩ := readRange_ok read
  rfl

theorem checkPageAlign_rwb {s s' : Pblk} {start : Nat} {aligned : Bool} {copy : List PpaAddr}
    (checked : pblkCheckPageAlign cfg s start = .ok (aligned, copy, s')) : s'.rwb = s.rwb := by
  obtain ⟨-, -, cmt, rfl⟩ := checkPageAlign_ok checked
  rfl

/-! Nor the segment entries. -/

theorem transMapGet_bmap {s s' : Pblk} {lba : Nat} {ppa : PpaAddr}
    (got : pblkTransMapGet cfg s lba = .ok (ppa, s')) : s'.bmap = s.bmap := by
  obtain ⟨-, cmt, rfl⟩ := transMapGet_ok got
  rfl

theorem readRange_bmap {s s' : Pblk} {lba n : Nat} {copies : List PpaAddr}
    (read : readRange cfg s lba n = .ok (copies, s')) : s'.bmap = s.bmap := by
  obtain ⟨-, -, cmt, rfl⟩ := readRange_ok read
  rfl

end MStream.L2p
