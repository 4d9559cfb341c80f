import MStream.L2p.Stream

/-!
Block-mapped segments. While its block is being written, a block-mapped
segment holds a per-sector log; `pblk_dev_map_set` folds the log back into one
block number when the device update of the last window sector (offset
`entry_num - 17`) finds sector 8 on the device, on the same line. After the
fold a lookup no longer reads the log: inside the window `[8, entry_num - 17]`
it computes the address from the lba and the block number, and outside it
returns `ADDR_EMPTY` (`blockRead`). A fold therefore keeps what the segment
read only when the log held exactly those addresses: a window sector still in
the write buffer, or written elsewhere, now reads the computed address.
Lookups return what `mapRead` returns (`transMapGet_ok`).
-/

namespace MStream.L2p

open Machine Address RingBuffer Dftl

/-- What a block entry holding block number `blk` reads at `lba`. -/
def blockRead (cfg : Config) (lba blk : Nat) : PpaAddr :=
  if 8 ≤ cfg.loffOf lba ∧ cfg.loffOf lba + 17 ≤ cfg.entryNum then addrToGenPpa cfg.ppaf lba blk
  else .empty

variable {cfg : Config}

theorem mapRead_block_folded {s : Pblk} {lba blk : Nat} {pba : PbaAddr}
    (entry : s.bmap (cfg.lsegOf lba) = pba) (valid : pba.lstream < cfg.nrLstream)
    (blockStream : (cfg.lstream pba.lstream).mapType = .block) (block : pba.map = .block)
    (noLog : pba.isCached = false) (folded : pba.val = .page ⟨blk, 0, 0, 0, 0⟩)
    (line : blk < cfg.nrLines) :
    mapRead cfg s lba = .ok (blockRead cfg lba blk) := by
  have inRange : ¬ cfg.nrLines ≤ blk := Nat.not_le.mpr line
  simp only [mapRead, entry, block, blockStream, noLog, folded, Nat.not_le.mpr valid, blockRead]
  by_cases low : 8 ≤ cfg.loffOf lba
  · -- the source tests the window's end on `int`s
    by_cases high : cfg.loffOf lba + 17 ≤ cfg.entryNum
    · have inside : ¬ ((cfg.entryNum : Int) - 17 < cfg.loffOf lba) := by omega
      simp [low, high, inside, Nat.not_lt.mpr low, PbaVal.page?, inRange]
    · have beyond : (cfg.entryNum : Int) - 17 < cfg.loffOf lba := by omega
      simp [high, beyond, Nat.not_lt.mpr low]
  · simp [low, Nat.lt_of_not_le low]

/-- Inside the window a folded entry reads the device address of the lba's
offset in its segment: `addr_to_gen_ppa(lba mod 2^blk_offset, blk)`. -/
theorem blockRead_window {lba blk : Nat} (low : 8 ≤ cfg.loffOf lba) (high : cfg.loffOf lba + 17 ≤ cfg.entryNum) :
    blockRead cfg lba blk = addrToGenPpa cfg.ppaf (cfg.loffOf lba) blk := by
  rw [blockRead, if_pos ⟨low, high⟩, Config.loffOf, Config.entryNum, addrToGenPpa_mod]

/-- A lookup in a folded segment charges nothing in the DFTL table
(`pblk_load_cmt` returns at once for a block map without a log). -/
theorem transMapGet_block_folded {s : Pblk} {lba blk : Nat} {pba : PbaAddr}
    (entry : s.bmap (cfg.lsegOf lba) = pba) (valid : pba.lstream < cfg.nrLstream)
    (blockStream : (cfg.lstream pba.lstream).mapType = .block) (block : pba.map = .block)
    (noLog : pba.isCached = false) (folded : pba.val = .page ⟨blk, 0, 0, 0, 0⟩)
    (line : blk < cfg.nrLines) :
    pblkTransMapGet cfg s lba = .ok (blockRead cfg lba blk, s) := by
  have read := mapRead_block_folded entry valid blockStream block noLog folded line
  have loaded : pblkLoadCmt s.cmt (segInfo cfg s (cfg.lsegOf lba)) (cfg.lsegOf lba) false = .ok s.cmt := by
    simp [pblkLoadCmt, segInfo, entry, blockStream, noLog]
  simp [pblkTransMapGet, entry, block, Nat.not_le.mpr valid, loaded, read]

theorem devMapSet_block {s s' : Pblk} {lba : Nat} {ppa : PpaAddr}
    (blockStream : (cfg.lstream (s.bmap (cfg.lsegOf lba)).lstream).mapType = .block)
    (set : pblkDevMapSet cfg s lba ppa = .ok s') :
    (s.bmap (cfg.lsegOf lba)).lstream < cfg.nrLstream ∧
      ∃ cmt, devMapSetBlock cfg (s.withCmt cmt) lba ppa (s.bmap (cfg.lsegOf lba)) = .ok s' := by
  unfold pblkDevMapSet at set
  dsimp only at set
  split at set
  · cases set
  · next valid =>
    obtain ⟨mid, charged, rest⟩ := bind_eq_ok.mp set
    obtain ⟨cmt, -, rfl⟩ := (Pblk.updateCmt_ok s).mp charged
    rw [blockStream] at rest
    exact ⟨Nat.not_le.mp valid, cmt, rest⟩

theorem devMapSetBlock_entry {s s' : Pblk} {lba : Nat} {g : DevAddr} {pba : PbaAddr}
    (set : devMapSetBlock cfg s lba (.dev g) pba = .ok s') :
    pba.isCached = true ∧ (s'.bmap (cfg.lsegOf lba) = s.bmap (cfg.lsegOf lba) ∨
      s'.bmap (cfg.lsegOf lba) = { pba with isCached := false, val := .page ⟨g.blk, 0, 0, 0, 0⟩ }) := by
  unfold devMapSetBlock at set
  simp only [pure_bind] at set
  split at set
  · cases set
  split at set
  · cases set
  next held =>
  obtain ⟨log, -, rest⟩ := bind_eq_ok.mp set
  obtain ⟨stored, written, rest⟩ := bind_eq_ok.mp rest
  have unchanged := Pblk.setPpa_bmap _ written
  refine ⟨by simpa using held, ?_⟩
  split at rest
  · obtain ⟨bmtlog, -, rest⟩ := bind_eq_ok.mp rest
    split at rest
    · -- the fold: the log is freed and the entry takes the line
      obtain ⟨charged, -, rest⟩ := bind_eq_ok.mp rest
      obtain ⟨freed, -, done⟩ := bind_eq_ok.mp rest
      right
      rw [← pure_eq_ok.mp done]
      simp
    · left
      rw [← pure_eq_ok.mp rest, unchanged]
  · split at rest
    · cases rest
    · left
      rw [← pure_eq_ok.mp rest, unchanged]

/-- Whenever `pblk_dev_map_set` folds a segment's log, every lba of the segment
reads the address computed from its offset and the line of the sector just
written inside the window, and `ADDR_EMPTY` outside it, whatever the log held
before. -/
theorem dev_map_set_fold_recomputes {s s' : Pblk} {lba : Nat} {g : DevAddr}
    (blockStream : (cfg.lstream (s.bmap (cfg.lsegOf lba)).lstream).mapType = .block)
    (block : (s.bmap (cfg.lsegOf lba)).map = .block) (line : g.blk < cfg.nrLines)
    (set : pblkDevMapSet cfg s lba (.dev g) = .ok s')
    (folded : (s'.bmap (cfg.lsegOf lba)).isCached = false) :
    ∀ lba', cfg.lsegOf lba' = cfg.lsegOf lba → mapRead cfg s' lba' = .ok (blockRead cfg lba' g.blk) := by
  obtain ⟨valid, cmt, setBlock⟩ := devMapSet_block blockStream set
  obtain ⟨held, kept | refolded⟩ := devMapSetBlock_entry setBlock
  · -- an entry left as it was still holds its log
    simp [kept, held] at folded
  · intro lba' same
    have entry : s'.bmap (cfg.lsegOf lba') =
        { s.bmap (cfg.lsegOf lba) with isCached := false, val := .page ⟨g.blk, 0, 0, 0, 0⟩ } := by
      rw [same, refolded]
    exact mapRead_block_folded entry valid blockStream block rfl rfl line

/-- In `mixedConfig` (32-sector lines, window `[8, 15]`): segment 0 moved from
`pblk_l2p_init` to block-mapped stream 1; lbas 8, 9 and 15 written to the
write buffer in that order; the device update of lba 8 (line 1, sector 8).
Lba 9 then reads its cacheline. The device update of lba 15 (line 1, sector 15)
folds the log, and lba 9 reads sector 9 of line 1, where nothing was written. -/
theorem dev_map_set_fold_recomputes_out_of_order :
    ∃ s s', l2pRun mixedConfig (pblkL2pInit fun nrb => pblkRbInit nrb 2)
        [.setLstream 0 1, .cacheMapSet 8 (.cache 0 1 false), .cacheMapSet 9 (.cache 1 1 false),
          .cacheMapSet 15 (.cache 2 1 false),
          .devMapSet 8 (.dev { blk := 1, pg := 1, sec := 0, pl := 0, lun := 0, ch := 0 })] = .ok s ∧
      mapRead mixedConfig s 9 = .ok (.cache 1 1 false) ∧
      pblkDevMapSet mixedConfig s 15 (.dev { blk := 1, pg := 1, sec := 3, pl := 0, lun := 1, ch := 0 }) =
          .ok s' ∧ (s'.bmap 0).isCached = false ∧
        mapRead mixedConfig s' 9 = .ok (.dev { blk := 1, pg := 1, sec := 1, pl := 0, lun := 0, ch := 0 }) := by
  refine ⟨_, ?after, rfl, rfl, ?set, ?folded, ?read⟩
  case read => exact (dev_map_set_fold_recomputes (by rfl) (by rfl) (by decide) ?set ?folded 9 (by rfl)).trans rfl
  case set => rfl
  case folded => rfl

/-- The address encodings agree with each other: a device address that fits the
format comes back from its 32-bit form when the format is below 32 bits, and
`ADDR_EMPTY` is `~0U` both ways; the device address of an in-line sector gives
the sector back on its line; and a lookup in a folded block entry computes the
device address of the lba's offset in its segment, whose in-line sector is that
offset, as `pblk_dev_map_set` checks. -/
theorem ppa_encodings_inverse (cfg : Config) :
    (∀ g : DevAddr, g.FitsIn cfg.ppaf → cfg.ppaf.bitsize < 32 →
      pblkPpa32ToPpa64 cfg.ppaf (pblkPpa64ToPpa32 cfg.ppaf (.dev g)) = .dev g) ∧
    (pblkPpa64ToPpa32 cfg.ppaf .empty = 2 ^ 32 - 1 ∧ pblkPpa32ToPpa64 cfg.ppaf (2 ^ 32 - 1) = .empty) ∧
    (∀ paddr lineId, paddr < 2 ^ cfg.ppaf.blkOffset →
      ∃ g, addrToGenPpa cfg.ppaf paddr lineId = .dev g ∧ g.blk = lineId ∧ pblkDevPpaToLineAddr cfg.ppaf g = paddr) ∧
    (∀ (s : Pblk) (lba blk : Nat) (pba : PbaAddr), s.bmap (cfg.lsegOf lba) = pba → pba.lstream < cfg.nrLstream →
      (cfg.lstream pba.lstream).mapType = .block → pba.map = .block → pba.isCached = false →
      pba.val = .page ⟨blk, 0, 0, 0, 0⟩ → blk < cfg.nrLines → 8 ≤ cfg.loffOf lba →
      cfg.loffOf lba + 17 ≤ cfg.entryNum →
      ∃ g, mapRead cfg s lba = .ok (.dev g) ∧ addrToGenPpa cfg.ppaf (cfg.loffOf lba) blk = .dev g ∧
        g.blk = blk ∧ pblkDevPpaToLineAddr cfg.ppaf g = cfg.loffOf lba) := by
  refine ⟨fun g fits small => pblkPpa32ToPpa64_ppa64ToPpa32 fits small, ppa32_empty,
    fun paddr lineId small => lineAddr_addrToGenPpa lineId small, ?_⟩
  intro s lba blk pba entry valid blockStream block noLog folded line low high
  -- the lookup's address is built from the offset, which lies below the block offset
  have inSegment : cfg.loffOf lba < 2 ^ cfg.ppaf.blkOffset := Nat.mod_lt _ (Nat.two_pow_pos _)
  obtain ⟨g, built, onLine, back⟩ := lineAddr_addrToGenPpa blk inSegment
  refine ⟨g, ?_, built, onLine, back⟩
  rw [mapRead_block_folded entry valid blockStream block noLog folded line, blockRead_window low high, built]

/-- Every segment of stream 1 folded into line 1. -/
def foldedOnLineOne : Pblk :=
  { pblkL2pInit (fun nrb => pblkRbInit nrb 2) with
    bmap := fun _ => ⟨.block, 1, false, .page ⟨1, 0, 0, 0, 0⟩⟩ }

/-- In `mixedConfig`: an address of line 3 round-trips through its 32-bit
form, sector 21 of line 3 comes back from its device address, and lba 9 of a
segment folded into line 1 reads sector 9 of line 1. -/
theorem ppa_encodings_inverse_mixed :
    pblkPpa32ToPpa64 mixedConfig.ppaf (pblkPpa64ToPpa32 mixedConfig.ppaf (.dev ⟨3, 2, 1, 0, 1, 0⟩)) =
        .dev ⟨3, 2, 1, 0, 1, 0⟩ ∧
      (∃ g, addrToGenPpa mixedConfig.ppaf 21 3 = .dev g ∧ g.blk = 3 ∧ pblkDevPpaToLineAddr mixedConfig.ppaf g = 21) ∧
      ∃ g, mapRead mixedConfig foldedOnLineOne 9 = .ok (.dev g) ∧
        addrToGenPpa mixedConfig.ppaf (mixedConfig.loffOf 9) 1 = .dev g ∧ g.blk = 1 ∧
        pblkDevPpaToLineAddr mixedConfig.ppaf g = mixedConfig.loffOf 9 :=
  ⟨(ppa_encodings_inverse mixedConfig).1 _ (by decide) (by decide),
    (ppa_encodings_inverse mixedConfig).2.2.1 21 3 (by decide),
    (ppa_encodings_inverse mixedConfig).2.2.2 foldedOnLineOne 9 1 _ rfl (by decide) (by decide) rfl rfl rfl
      (by decide) (by decide) (by decide)⟩

end MStream.L2p
