import MStream.Pipeline

/-!
pblk as the host sees it: the write path of `Cache`, the write thread that
moves buffered sectors to the media (`pblk_submit_write`), and the read path
(`pblk_read_rq`). Beside the write path's state the model keeps what the C
code holds outside the L2P map: the payload of every buffer entry
(`entry->data`), the media, the line each write buffer's thread fills, and the
write requests in flight. A payload is a number, the same for every sector of
one host write.

The specification is a block device: a read hands back what the last host
write of the lba carried.

Metadata writes (`pblk_sched_meta_io`), erases ahead of a line
(`pblk_map_erase_rq`), write errors and the writer's free-block check are not
modelled; the writer takes its next lines in the order `dataNext` gives them
(`Lines` models how `pblk_line_replace_data` prepares them).
-/

namespace MStream.Device

open Machine Circ Address RingBuffer Dftl L2p Cache Pipeline

/-! ## The block device -/

/-- What a block device holds: the payload last written to each lba. -/
abbrev BlockDevice := Nat → Option Nat

def BlockDevice.write (dev : BlockDevice) (lba nrSecs payload : Nat) : BlockDevice :=
  fun x => if lba ≤ x ∧ x < lba + nrSecs then some payload else dev x

/-! ## State -/

/-- What the write thread reads and changes of the line `pblk_line_get_data`
returns: its id, `cur_sec`, the sectors `map_bitmap` has taken and
`left_msecs`. -/
structure DataLine where
  id : Nat
  curSec : Nat
  mapBitmap : Nat → Bool
  leftMsecs : Int

structure DeviceConfig where
  cache : CacheConfig
  /-- `pblk->min_write_pgs` -/
  minWritePgs : Nat
  /-- `pblk->sec_per_write` -/
  secPerWrite : Nat
  /-- `pblk->max_write_pgs` -/
  maxWritePgs : Nat
  /-- `lm->sec_per_line` -/
  secPerLine : Nat
  /-- a line as `pblk_line_setup_metadata` hands it to the writer, its
  metadata sectors already taken in `map_bitmap` -/
  freshLine : Nat → DataLine

structure DeviceState where
  cache : CacheState
  /-- `entry->data`, per write buffer and position -/
  data : Nat → Nat → Nat
  media : DevAddr → Option Nat
  /-- `l_mg->data_line`, per write buffer -/
  dataLine : Nat → DataLine
  /-- the lines each write buffer moves to next -/
  dataNext : Nat → List Nat
  /-- per write buffer, `nr_valid` of each request submitted and not yet
  completed, oldest first -/
  inflight : Nat → List Nat
  /-- the block device the host has written so far -/
  written : BlockDevice

inductive ReadOutcome where
  /-- the bio is filled with a payload, or left as it was (`none`) -/
  | done (data : Option Nat)
  /-- the buffer refused the copy; the read looks the lba up again -/
  | spin
  /-- the lba lies past the device (`WARN`) -/
  | ignored
  deriving DecidableEq, Repr

namespace DeviceState

def setEntry (d : DeviceState) (nrb pos : Nat) (w : WCtx) : DeviceState :=
  { d with cache := d.cache.setRb nrb ((d.cache.rb nrb).setEntry pos w) }

end DeviceState

variable (cfg : DeviceConfig)

/-! ## The write thread -/

def findNextZeroBit (bits : Nat → Bool) (size start : Nat) : Nat :=
  ((List.range' start (size - start)).find? fun i => !bits i).getD size

theorem findNextZeroBit_spec (bits : Nat → Bool) (size start : Nat) :
    findNextZeroBit bits size start ≤ size ∧
      (∀ i, start ≤ i → i < findNextZeroBit bits size start → bits i = true) ∧
      (findNextZeroBit bits size start < size →
        start ≤ findNextZeroBit bits size start ∧ bits (findNextZeroBit bits size start) = false) := by
  unfold findNextZeroBit
  cases found : (List.range' start (size - start)).find? fun i => !bits i with
  | none =>
    rw [List.find?_range'_eq_none] at found
    refine ⟨Nat.le_refl size, fun i lo hi => ?_, fun lt => absurd lt (Nat.lt_irrefl size)⟩
    simpa using found i lo (by simp only [Option.getD_none] at hi; omega)
  | some r =>
    rw [List.find?_range'_eq_some] at found
    obtain ⟨clear, mem, before⟩ := found
    rw [List.mem_range'_1] at mem
    simp only [Option.getD_some]
    refine ⟨by omega, fun i lo hi => by simpa using before i lo hi, fun _ => ⟨mem.1, by simpa using clear⟩⟩

theorem findNextZeroBit_of_clear {bits : Nat → Bool} {size start : Nat} (inside : start < size)
    (clear : bits start = false) : findNextZeroBit bits size start = start := by
  obtain ⟨-, set, found⟩ := findNextZeroBit_spec bits size start
  -- any later stop would have passed over `start` as a set bit
  have notPast : ¬start < findNextZeroBit bits size start := fun past => by
    simpa [clear] using set start (Nat.le_refl _) past
  by_cases stops : findNextZeroBit bits size start < size
  · exact Nat.le_antisymm (Nat.not_lt.mp notPast) (found stops).1
  · omega

def pblkAllocPage (line : DataLine) (nrSecs : Nat) : Nat × DataLine :=
  -- a request past the line's end is cut short (`WARN`), but `left_msecs`
  -- drops by the whole request
  let n := if cfg.secPerLine < line.curSec + nrSecs then cfg.secPerLine - line.curSec else nrSecs
  let addr := findNextZeroBit line.mapBitmap cfg.secPerLine line.curSec
  (addr, { line with
    curSec := addr + n
    mapBitmap := fun i => line.mapBitmap i || (addr ≤ i && i < addr + n)
    leftMsecs := line.leftMsecs - nrSecs })

@[simp] theorem pblkAllocPage_id (line : DataLine) (nrSecs : Nat) : (pblkAllocPage cfg line nrSecs).2.id = line.id := rfl

@[simp] theorem pblkAllocPage_leftMsecs (line : DataLine) (nrSecs : Nat) :
    (pblkAllocPage cfg line nrSecs).2.leftMsecs = line.leftMsecs - nrSecs := rfl

theorem pblkAllocPage_of_free {line : DataLine} {nrSecs : Nat} (pos : 0 < nrSecs)
    (inLine : line.curSec + nrSecs ≤ cfg.secPerLine) (clear : line.mapBitmap line.curSec = false) :
    (pblkAllocPage cfg line nrSecs).1 = line.curSec ∧
      (pblkAllocPage cfg line nrSecs).2.curSec = line.curSec + nrSecs ∧
      ∀ i, (pblkAllocPage cfg line nrSecs).2.mapBitmap i =
        (line.mapBitmap i || (line.curSec ≤ i && i < line.curSec + nrSecs)) := by
  have start := findNextZeroBit_of_clear (show line.curSec < cfg.secPerLine by omega) clear
  unfold pblkAllocPage
  rw [if_neg (by omega), start]
  exact ⟨rfl, rfl, fun _ => rfl⟩

/-- The writer's side of `pblk_line_replace_data`: the buffer moves to its
next line, if one is prepared. -/
def replaceDataLine (d : DeviceState) (nrb : Nat) : DeviceState :=
  match d.dataNext nrb with
  | [] => d
  | next :: rest =>
      { d with dataLine := Function.update d.dataLine nrb (cfg.freshLine next)
               dataNext := Function.update d.dataNext nrb rest }

@[simp] theorem replaceDataLine_cache (d : DeviceState) (nrb : Nat) : (replaceDataLine cfg d nrb).cache = d.cache := by
  unfold replaceDataLine
  split <;> rfl

def pblkMapPageData (d : DeviceState) (nrb sentry validSecs : Nat) : DeviceState :=
  let (paddr, line) := pblkAllocPage cfg (d.dataLine nrb) cfg.minWritePgs
  let d := { d with dataLine := Function.update d.dataLine nrb line }
  let d := (List.range cfg.minWritePgs).foldl (fun d i =>
    let ppa := addrToGenPpa cfg.cache.l2p.ppaf (paddr + i) line.id
    if i < validSecs then
      let pos := pblkRbWrapPos (d.cache.rb nrb) (sentry + i)
      d.setEntry nrb pos { (d.cache.rb nrb).entries pos with ppa := ppa }
    -- a padded sector is invalid as soon as it is mapped
    else { d with cache := d.cache.invalidate ppa }) d
  if line.leftMsecs = 0 then replaceDataLine cfg d nrb else d

/-- `pblk_map_rq` from offset 0: `pblk_map_page_data` for every
`min_write_pgs` sectors of the request. -/
def pblkMapRq (d : DeviceState) (nrb sentry validSecs nrPpas : Nat) : DeviceState :=
  let min := cfg.minWritePgs
  (List.range ((nrPpas + min - 1) / min)).foldl (fun d k =>
    let i := k * min
    let mapSecs := if validSecs < i + min then validSecs % min else min
    pblkMapPageData cfg d nrb (sentry + i) mapSecs) d

def pblkCalcSecs (secsAvail secsToFlush : Nat) : Nat :=
  if cfg.secPerWrite ≤ secsAvail then cfg.secPerWrite
  else if cfg.minWritePgs ≤ secsAvail then cfg.minWritePgs * (secsAvail / cfg.minWritePgs)
  else if secsToFlush ≠ 0 then cfg.minWritePgs
  else 0

/-- The wait at the top of `pblk_rb_read_to_bio`'s loop, over `n` entries from
`pos`: `true` when all are filled or invalidated. The thread waits at an entry
still being filled, and an entry still reserved is a `BUG_ON`. -/
def readyToRead (rb : Rb) (pos : Nat) : Nat → Except Fault Bool
  | 0 => pure true
  | n + 1 =>
      let w := rb.entries pos
      if w.flags.written || w.flags.invalidate then readyToRead rb (advance pos 1 rb.nrEntries) n
      else if w.flags.reserved then throw .bug
      else pure false

/-- `pblk_rb_read_to_bio` over entries that are ready: each becomes submitted,
and a flush point it passes is cleared. -/
def pblkRbReadToBio (rb : Rb) (pos : Nat) : Nat → Rb
  | 0 => rb
  | n + 1 =>
      let w := rb.entries pos
      let rb := if w.flags.flush ∧ rb.syncPoint = some pos then { rb with syncPoint := none } else rb
      let rb := rb.setEntry pos { w with
        flags := { w.flags with reserved := false, flush := false, written := false, submitted := true }
        submitFlags := { submitted := true } }
      pblkRbReadToBio rb (advance pos 1 rb.nrEntries) n

/-- `pblk_submit_io` of the data: the media keeps each entry's payload at the
address the entry was mapped to. -/
def submitData (d : DeviceState) (nrb pos : Nat) : Nat → DeviceState
  | 0 => d
  | n + 1 =>
      let d := match ((d.cache.rb nrb).entries pos).ppa with
        | .dev g => { d with media := Function.update d.media g (some (d.data nrb pos)) }
        | _ => d
      submitData d nrb (advance pos 1 (d.cache.rb nrb).nrEntries) n

/-- `pblk_submit_write` for write buffer `nrb`. A thread that returns early, or
that would wait for an entry still being filled, leaves the state as it was. -/
def pblkSubmitWrite (d : DeviceState) (nrb : Nat) : Except Fault DeviceState := do
  let rb := d.cache.rb nrb
  if pblkRbReadCount rb = 0 then return d
  let secsToFlush := pblkRbSyncPointCount rb
  -- entries still being filled by a producer do not count
  let secsAvail := if rb.nrUser < pblkRbReadCount rb then pblkRbReadCount rb - rb.nrUser else 0
  if secsAvail < cfg.minWritePgs + 8 then return d
  let secsToSync := pblkCalcSecs cfg secsAvail secsToFlush
  if cfg.maxWritePgs < secsToSync then return d
  let secsToCom := min secsToSync secsAvail
  let toRead := min secsToSync secsAvail
  let (pos, rb) := pblkRbReadCommit rb secsToCom
  if !(← readyToRead rb pos toRead) then return d
  let d := { d with cache := d.cache.setRb nrb (pblkRbReadToBio rb pos toRead) }
  let d := pblkMapRq cfg d nrb pos toRead secsToSync
  let d := submitData d nrb pos toRead
  pure { d with inflight := Function.update d.inflight nrb (d.inflight nrb ++ [toRead]) }

/-- `pblk_end_io_write` of the oldest request in flight. `pblk_complete_write`
holds back a request that completes early until those before it have, so
completions reach `sync` in submission order. -/
def pblkCompleteWrite (d : DeviceState) (nrb : Nat) : DeviceState :=
  match d.inflight nrb with
  | [] => d
  | nrValid :: rest =>
      { d with cache := d.cache.setRb nrb (pblkRbSyncAdvance (d.cache.rb nrb) nrValid)
               inflight := Function.update d.inflight nrb rest }

/-! ## Host writes -/

/-- `entry->data` after a host write. An entry the write filled holds its
payload; an entry `pblk_rb_reserved_entry` filled for another sector of the
page holds the payload of the entry it copied, the lba's cacheline before the
write. -/
def entryPayload (before after : CacheState) (data : Nat → Nat → Nat) (bio : UserBio) (payload : Nat)
    (nrb pos : Nat) : Nat :=
  let w := (after.rb nrb).entries pos
  if w.flags.written && !((before.rb nrb).entries pos).flags.written then
    if bio.lba ≤ w.lba ∧ w.lba < bio.lba + bio.nrSecs then payload
    else match mapRead cfg.cache.l2p before.pblk w.lba with
      | .ok (.cache line oldNrb _) => data oldNrb (pblkRbWrapPos (before.rb oldNrb) line)
      | _ => data nrb pos
  else data nrb pos

def hostWrite (d : DeviceState) (bio : UserBio) (payload : Nat) : Except Fault DeviceState := do
  let (ret, c) ← pblkWriteToCache cfg.cache d.cache bio { user := true }
  let written := if ret = .requeue ∨ ret = .err then d.written else d.written.write bio.lba bio.nrSecs payload
  pure { d with cache := c, data := entryPayload cfg d.cache c d.data bio payload, written }

inductive HostOp where
  | write (bio : UserBio) (payload : Nat)
  /-- a `SETSTREAM` request reaching `pblk_set_lstream` -/
  | setStream (lba lstream : Nat)
  | submit (nrb : Nat)
  | complete (nrb : Nat)

def hostStep (d : DeviceState) : HostOp → Except Fault DeviceState
  | .write bio payload => hostWrite cfg d bio payload
  | .setStream lba lstream => do
      let c ← mapApply cfg.cache d.cache (.setLstream lba lstream)
      pure { d with cache := c }
  | .submit nrb => pblkSubmitWrite cfg d nrb
  | .complete nrb => pure (pblkCompleteWrite d nrb)

def hostRun : DeviceState → List HostOp → Except Fault DeviceState
  | d, [] => .ok d
  | d, op :: rest => hostStep cfg d op >>= fun d => hostRun d rest

/-! ## Reads -/

def pblkGetReservedOldAddr (c : CacheState) : PpaAddr → PpaAddr
  | ppa@(.cache line nrb _) =>
      let w := (c.rb nrb).entries (pblkRbWrapPos (c.rb nrb) line)
      if w.flags.written then ppa
      else if w.flags.submitted then ppa
      else if w.flags.reserved then w.ppa
      else if w.flags.waitread then w.ppa
      else ppa
  | ppa => ppa

def pblkLookupL2p (c : CacheState) (lba : Nat) : Except Fault (PpaAddr × CacheState) := do
  let (ppa, s) ← pblkTransMapGet cfg.cache.l2p c.pblk lba
  let c := c.withPblk s
  pure (if pblkAddrInCache ppa then pblkGetReservedOldAddr c ppa else ppa, c)

/-- `pblk_rb_copy_to_bio`: the entry's payload, unless the lba no longer maps
to the entry, the entry holds another lba, or it was recycled. -/
def pblkRbCopyToBio (d : DeviceState) (lba line nrb : Nat) (ppa : PpaAddr) :
    Except Fault (Option Nat × CacheState) := do
  let w := (d.cache.rb nrb).entries line
  let (l2pPpa, s) ← pblkTransMapGet cfg.cache.l2p d.cache.pblk lba
  let c := d.cache.withPblk s
  if l2pPpa ≠ ppa ∨ w.lba ≠ lba ∨ w.flags.writable then pure (none, c)
  else pure (some (d.data nrb line), c)

def pblkReadRq (d : DeviceState) (lba : Nat) : Except Fault (ReadOutcome × CacheState) := do
  if cfg.cache.nrSecs ≤ lba then return (.ignored, d.cache)
  let (ppa, c) ← pblkLookupL2p cfg d.cache lba
  match ppa with
  | .empty => pure (.done none, c)
  | .cache line nrb _ =>
      let (got, c) ← pblkRbCopyToBio cfg { d with cache := c } lba line nrb ppa
      match got with
      | some v => pure (.done (some v), c)
      -- the lookup is made again, and with no other thread running it finds
      -- the same entry
      | none => pure (.spin, c)
  | .dev g => pure (.done (d.media g), c)

/-! ## The specification -/

/-- The read of `x` hands back what the host last wrote there. -/
def ReadsLastWrite (d : DeviceState) (x : Nat) : Prop :=
  ∃ c, pblkReadRq cfg d x = .ok (.done (d.written x), c)

def writesInWindow (l2p : Config) (ops : List HostOp) : Bool :=
  ops.all fun
    | .write bio _ => (List.range bio.nrSecs).all fun i =>
        8 ≤ l2p.loffOf (bio.lba + i) && l2p.loffOf (bio.lba + i) + 17 ≤ l2p.entryNum
    | _ => true

/-! ## Reads of a folded segment -/

section Folded

variable {cfg}

/-- A read of an lba whose segment is folded into block number `blk` returns
the media at the sector the lba's offset gives on that line, whatever the
write buffers hold. -/
theorem readRq_folded {d : DeviceState} {x blk : Nat} {a : DevAddr} {pba : PbaAddr}
    (entry : d.cache.pblk.bmap (cfg.cache.l2p.lsegOf x) = pba)
    (valid : pba.lstream < cfg.cache.l2p.nrLstream)
    (blockStream : (cfg.cache.l2p.lstream pba.lstream).mapType = .block) (block : pba.map = .block)
    (noLog : pba.isCached = false) (folded : pba.val = .page ⟨blk, 0, 0, 0, 0⟩)
    (line : blk < cfg.cache.l2p.nrLines) (computed : blockRead cfg.cache.l2p x blk = .dev a)
    (inRange : x < cfg.cache.nrSecs) :
    pblkReadRq cfg d x = .ok (.done (d.media a), d.cache) := by
  have got := transMapGet_block_folded entry valid blockStream block noLog folded line
  rw [computed] at got
  have lookup : pblkLookupL2p cfg d.cache x = .ok (.dev a, d.cache) := by
    simp [pblkLookupL2p, got, CacheState.withPblk]
  simp [pblkReadRq, Nat.not_le.mpr inRange, lookup]

/-- Once a block segment is folded, the read of any lba of it misses the host's
last write whenever the sector its offset gives holds something else. -/
theorem read_rq_folded_misses_write {d : DeviceState} {x blk : Nat} {a : DevAddr} {pba : PbaAddr}
    (entry : d.cache.pblk.bmap (cfg.cache.l2p.lsegOf x) = pba)
    (valid : pba.lstream < cfg.cache.l2p.nrLstream)
    (blockStream : (cfg.cache.l2p.lstream pba.lstream).mapType = .block) (block : pba.map = .block)
    (noLog : pba.isCached = false) (folded : pba.val = .page ⟨blk, 0, 0, 0, 0⟩)
    (line : blk < cfg.cache.l2p.nrLines) (computed : blockRead cfg.cache.l2p x blk = .dev a)
    (inRange : x < cfg.cache.nrSecs) (stale : d.media a ≠ d.written x) :
    ¬ ReadsLastWrite cfg d x := by
  rintro ⟨c, reads⟩
  rw [readRq_folded entry valid blockStream block noLog folded line computed inRange] at reads
  simp only [Except.ok.injEq, Prod.mk.injEq, ReadOutcome.done.injEq] at reads
  exact stale reads.1

/-- Stream 1 block-mapped over 32-sector segments and lines (`mixedConfig`),
16-entry write buffers, four-sector write units, and lines whose data sectors
are 8 to 15. `SETSTREAM` requests have given segments 0 and 1 to stream 1,
whose buffer their writes go to. -/
def devConfig : DeviceConfig where
  cache := { l2p := mixedConfig, rbUserMax := 64, nrSecs := 128,
             getLstream := fun lba _ => if lba < 64 then 1 else 0, maxLstream := 7 }
  minWritePgs := 4
  secPerWrite := 4
  maxWritePgs := 8
  secPerLine := 32
  freshLine := fun id => { id, curSec := 8, mapBitmap := fun i => i < 8 || 16 ≤ i, leftMsecs := 8 }

def devInit : DeviceState where
  cache := { pblk := pblkL2pInit fun nrb => pblkRbInit nrb 4
             rl := fun _ => { rbUserCnt := 0, rbGcCnt := 0, rbSpace := -1 }
             stopped := false, invalidated := [] }
  data := fun _ _ => 0
  media := fun _ => none
  dataLine := fun nrb => devConfig.freshLine (nrb + 1)
  dataNext := fun nrb => [nrb + 2]
  inflight := fun _ => []
  written := fun _ => none

/-- Lbas 8 to 15 (payload 1) and 40 to 47 go to buffer 1, and the writer puts
lbas 8 to 15 on sectors 8 to 15 of line 2. Once the buffer is full each
one-sector write recycles one entry: the rewrite of lba 9 (payload 4)
recycles lba 9's entry, and the writes of lbas 40 to 45 recycle those of lbas
10 to 15; the last folds segment 0 into line 2. -/
def rewriteOps : List HostOp :=
  [.setStream 0 1, .setStream 32 1,
    .write ⟨8, 8, 0, true⟩ 1, .write ⟨40, 4, 0, true⟩ 2, .submit 1, .complete 1,
    .write ⟨44, 4, 0, true⟩ 3, .submit 1, .complete 1,
    .write ⟨9, 1, 0, true⟩ 4, .write ⟨40, 1, 0, true⟩ 5, .write ⟨41, 1, 0, true⟩ 6,
    .write ⟨42, 1, 0, true⟩ 7, .write ⟨43, 1, 0, true⟩ 8, .write ⟨44, 1, 0, true⟩ 9,
    .write ⟨45, 1, 0, true⟩ 10]

def rewriteState : DeviceState := (hostRun devConfig devInit rewriteOps).toOption.getD devInit

theorem rewriteOps_run : hostRun devConfig devInit rewriteOps = .ok rewriteState := by
  have ran : (hostRun devConfig devInit rewriteOps).toBool = true := by decide +kernel
  unfold rewriteState
  generalize hostRun devConfig devInit rewriteOps = r at ran ⊢
  cases r <;> simp_all [Except.toBool, Except.toOption]

/-- The read of lba 9 returns payload 1 from sector 9 of line 2, while the
host last wrote payload 4, still in the write buffer. -/
theorem read_rq_folded_misses_write_after_rewrite :
    writesInWindow devConfig.cache.l2p rewriteOps = true ∧
      ∃ d, hostRun devConfig devInit rewriteOps = .ok d ∧ d.written 9 = some 4 ∧
        ¬ ReadsLastWrite devConfig d 9 :=
  ⟨by decide +kernel, rewriteState, rewriteOps_run, by decide +kernel,
    @read_rq_folded_misses_write devConfig rewriteState 9 2 ⟨2, 1, 1, 0, 0, 0⟩ ⟨.block, 1, false, .page ⟨2, 0, 0, 0, 0⟩⟩
      (by decide +kernel) (by decide) rfl rfl rfl rfl (by decide) (by decide +kernel) (by decide) (by decide +kernel)⟩

end Folded

end MStream.Device
