import MStream.Cache
import MStream.L2p.Block

/-!
The map operations of the write path in sequence: stream changes, the map
updates of host writes (`pblk_update_map_cache`) and the device updates
`__pblk_rb_update_l2p` makes for recycled entries (`pblk_update_map_dev`).
The addresses handed to `pblk_map_invalidate` stand for the bits set in the
lines' `invalid_bitmap`.

A block-mapped segment keeps the addresses of its in-flight sectors in a log
until a device update of its last window sector folds the log into a block
number; from then on a lookup computes each address from the lba's offset
(`blockRead`). Every device update of such a segment must land at the lba's
own offset on the line (`BUG_ON(loff != poff)` in `pblk_dev_map_set`), so the
writer has to receive a line's window in offset order; the fold still
recomputes every offset, also one whose newest copy is elsewhere.
-/

namespace MStream.Pipeline

open Machine Address RingBuffer Dftl L2p Cache

inductive MapOp where
  | setLstream (lba lstream : Nat)
  | updateMapCache (lba : Nat) (ppa : PpaAddr)
  | updateMapDev (lba : Nat) (ppa entryLine : PpaAddr)

variable (cfg : CacheConfig)

/-- A stream change invalidates the addresses `pblk_set_lstream` drops. -/
def mapApply (c : CacheState) : MapOp → Except Fault CacheState
  | .setLstream lba lstream => do
    let (dropped, s) ← pblkSetLstream cfg.l2p c.pblk lba lstream
    pure ((dropped.foldl CacheState.invalidate c).withPblk s)
  | .updateMapCache lba ppa => pblkUpdateMapCache cfg c lba ppa
  | .updateMapDev lba ppa entryLine => pblkUpdateMapDev cfg c lba ppa entryLine

def mapRun : CacheState → List MapOp → Except Fault CacheState
  | c, [] => .ok c
  | c, op :: rest => mapApply cfg c op >>= fun c => mapRun c rest

/-- An lba the table maps to a device sector whose invalid bit is set. -/
def MapsInvalid (c : CacheState) (lba : Nat) : Prop :=
  ∃ g, mapRead cfg.l2p c.pblk lba = .ok (.dev g) ∧ PpaAddr.dev g ∈ c.invalidated

variable {cfg}

/-- When a device update folds a block log, every lba of the segment maps to
the sector its offset gives on the line, even one whose invalid bit is set. -/
theorem update_map_dev_fold_maps_invalid {c c' : CacheState} {lba x : Nat} {g a : DevAddr}
    {entryLine : PpaAddr}
    (blockStream : (cfg.l2p.lstream (c.pblk.bmap (cfg.l2p.lsegOf lba)).lstream).mapType = .block)
    (block : (c.pblk.bmap (cfg.l2p.lsegOf lba)).map = .block) (line : g.blk < cfg.l2p.nrLines)
    (current : mapRead cfg.l2p c.pblk lba = .ok entryLine) (valid : lba < cfg.nrSecs)
    (notPad : lba ≠ addrEmpty) (update : pblkUpdateMapDev cfg c lba (.dev g) entryLine = .ok c')
    (folded : (c'.pblk.bmap (cfg.l2p.lsegOf lba)).isCached = false)
    (same : cfg.l2p.lsegOf x = cfg.l2p.lsegOf lba)
    (computed : blockRead cfg.l2p x g.blk = .dev a) (stale : PpaAddr.dev a ∈ c.invalidated) :
    MapsInvalid cfg c' x := by
  obtain ⟨kept, cmt, set⟩ := updateMapDev_current current valid notPad update
  obtain ⟨inRange, cmt', setBlock⟩ := devMapSet_block (s := c.pblk.withCmt cmt) blockStream set
  obtain ⟨held, unchanged | refolded⟩ := devMapSetBlock_entry setBlock
  · -- an entry left as it was still holds its log
    simp only [Pblk.withCmt_bmap] at held unchanged
    simp [unchanged, held] at folded
  · have entry : c'.pblk.bmap (cfg.l2p.lsegOf x) =
        { c.pblk.bmap (cfg.l2p.lsegOf lba) with isCached := false, val := .page ⟨g.blk, 0, 0, 0, 0⟩ } := by
      rw [same, refolded]
      rfl
    refine ⟨a, ?_, kept ▸ stale⟩
    rw [← computed]
    exact mapRead_block_folded entry inRange blockStream block rfl rfl line

/-- Segments 0 and 1 moved to block-mapped stream 1 (32-sector lines, window
`[8, 15]`). Lbas 8 to 15 fill cachelines 0 to 7, and the writer puts them on
sectors 8 to 15 of line 1. Each later one-sector write recycles one entry
(`pblk_rb_may_write` frees only what it needs): lbas 40 to 45 take cachelines 0
to 5, and the rewrite of lba 9 takes cacheline 6, which invalidates sector 9. -/
def rewriteRun : List MapOp :=
  [.setLstream 0 1, .setLstream 32 1,
    .updateMapCache 8 (.cache 0 1 false), .updateMapCache 9 (.cache 1 1 false),
    .updateMapCache 10 (.cache 2 1 false), .updateMapCache 11 (.cache 3 1 false),
    .updateMapCache 12 (.cache 4 1 false), .updateMapCache 13 (.cache 5 1 false),
    .updateMapCache 14 (.cache 6 1 false), .updateMapCache 15 (.cache 7 1 false),
    .updateMapDev 8 (.dev ⟨1, 1, 0, 0, 0, 0⟩) (.cache 0 1 false), .updateMapCache 40 (.cache 0 1 false),
    .updateMapDev 9 (.dev ⟨1, 1, 1, 0, 0, 0⟩) (.cache 1 1 false), .updateMapCache 41 (.cache 1 1 false),
    .updateMapDev 10 (.dev ⟨1, 1, 2, 0, 0, 0⟩) (.cache 2 1 false), .updateMapCache 42 (.cache 2 1 false),
    .updateMapDev 11 (.dev ⟨1, 1, 3, 0, 0, 0⟩) (.cache 3 1 false), .updateMapCache 43 (.cache 3 1 false),
    .updateMapDev 12 (.dev ⟨1, 1, 0, 0, 1, 0⟩) (.cache 4 1 false), .updateMapCache 44 (.cache 4 1 false),
    .updateMapDev 13 (.dev ⟨1, 1, 1, 0, 1, 0⟩) (.cache 5 1 false), .updateMapCache 45 (.cache 5 1 false),
    .updateMapDev 14 (.dev ⟨1, 1, 2, 0, 1, 0⟩) (.cache 6 1 false), .updateMapCache 9 (.cache 6 1 false)]

/-- The next recycled entry, lba 15 at sector 15 of line 1, folds the log while
the rewrite of lba 9 is still in the buffer, and lba 9 maps to sector 9, whose
invalid bit the rewrite set. -/
theorem update_map_dev_fold_maps_invalid_rewrite :
    ∃ c c', mapRun flushConfig cacheInit rewriteRun = .ok c ∧
      pblkUpdateMapDev flushConfig c 15 (.dev ⟨1, 1, 3, 0, 1, 0⟩) (.cache 7 1 false) = .ok c' ∧
      MapsInvalid flushConfig c' 9 := by
  refine ⟨_, ?after, rfl, ?update, update_map_dev_fold_maps_invalid (x := 9) (a := ⟨1, 1, 1, 0, 0, 0⟩)
    (by rfl) (by rfl) (by decide) (by rfl) (by decide) (by decide) ?update ?folded (by rfl) (by rfl) (by decide)⟩
  case update => rfl
  case folded => rfl

end MStream.Pipeline
