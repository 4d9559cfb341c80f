import MStream.L2p.Stream

/-!
The user write path of the multi-stream pblk (pblk-cache.c, the user
producers of pblk-rb.c and the map updates of pblk-core.c). A user bio is cut
into chunks of at most four sectors; each chunk goes to the write buffer of
the lba's stream (`pblk_get_lstream`, a fixed function of the lba under
`EXT4_TEST`, built from stream numbers declared outside the repository, so a
parameter here). The buffer admits the chunk through the rate limiter and the
ring space; its entries are filled and the L2P map pointed at them. A chunk of
a page-mapped stream first fills entries a page already reserved, and
reserves the four entries of a page it starts.

`pblk_rb_may_write_flush` sets a sync point for a `REQ_PREFLUSH` bio only
without `CONFIG_PBLK_MULTIMAP`: here every admitted request is `NVM_IO_DONE`,
and nothing of the path reads `REQ_PREFLUSH`.

Waiting is left to the caller: where the source sleeps on `NVM_IO_REQUEUE`
and jumps back to its `retry:` label, `writeToCacheAt` returns `requeue` with
nothing changed, and a woken thread calls it again with the same
`WriteCtx`. The entries' data, the GC-policy hints (`invalid_line`,
`last_use_rrwb`), the writer kick and the debug counters are not modelled; a
`pblk_map_invalidate` is recorded as the address it is given.
-/

namespace MStream.Cache

open Machine Circ Address RingBuffer Dftl L2p

inductive NvmIo where
  | ok
  | requeue
  | done
  | err
  deriving DecidableEq, Repr

/-- The counters of `struct pblk_rl_per_rb` the user path reads and writes.
`rb_space` is negative until `pblk_rl_set_space_limit` bounds it. -/
structure RlPerRb where
  rbUserCnt : Int
  rbGcCnt : Int
  rbSpace : Int

structure CacheConfig where
  l2p : Config
  /-- `rl->rb_user_max` -/
  rbUserMax : Int
  /-- `rl->nr_secs`, the exposed capacity -/
  nrSecs : Nat
  /-- `pblk_get_lstream`, with the `DIR_STREAM` write-hint override -/
  getLstream : Nat → Nat → Nat
  /-- `MAX_LSTREAM` -/
  maxLstream : Nat

/-- The write path's state: the L2P map with the write buffers, the
per-buffer rate limiter, whether `pblk_pipeline_stop` ran, and the addresses
handed to `pblk_map_invalidate`, in call order. -/
structure CacheState where
  pblk : Pblk
  rl : Nat → RlPerRb
  stopped : Bool
  invalidated : List PpaAddr

variable (cfg : CacheConfig)

namespace CacheState

variable (c : CacheState)

def rb (nrb : Nat) : Rb := c.pblk.rwb nrb

def setRb (nrb : Nat) (rb : Rb) : CacheState := { c with pblk := c.pblk.setRwb nrb rb }

def setRl (nrb : Nat) (rl : RlPerRb) : CacheState := { c with rl := Function.update c.rl nrb rl }

def withPblk (s : Pblk) : CacheState := { c with pblk := s }

/-- `pblk_map_invalidate` -/
def invalidate (ppa : PpaAddr) : CacheState := { c with invalidated := c.invalidated ++ [ppa] }

@[simp] theorem invalidate_rb (ppa : PpaAddr) : (c.invalidate ppa).rb = c.rb := rfl

def updatePblk (f : Pblk → Except Fault Pblk) : Except Fault CacheState := do
  pure (c.withPblk (← f c.pblk))

@[simp] theorem setRb_rb (nrb : Nat) (rb : Rb) (other : Nat) :
    (c.setRb nrb rb).rb other = if other = nrb then rb else c.rb other := by
  simp [setRb, CacheState.rb, Pblk.setRwb, Function.update_apply]

@[simp] theorem setRb_rl (nrb : Nat) (rb : Rb) : (c.setRb nrb rb).rl = c.rl := rfl

@[simp] theorem setRl_rb (nrb : Nat) (rl : RlPerRb) : (c.setRl nrb rl).rb = c.rb := rfl

@[simp] theorem setRl_rl (nrb : Nat) (rl : RlPerRb) :
    (c.setRl nrb rl).rl = Function.update c.rl nrb rl := rfl

end CacheState

/-! ## The rate limiter -/

def pblkRlUserMayInsert (rl : RlPerRb) (nrEntries : Nat) : NvmIo :=
  if 0 ≤ rl.rbSpace ∧ rl.rbSpace - nrEntries < 0 then .err
  else if cfg.rbUserMax ≤ rl.rbUserCnt then .requeue
  else .ok

def pblkRlUserIn (rl : RlPerRb) (nrEntries : Int) : RlPerRb := { rl with rbUserCnt := rl.rbUserCnt + nrEntries }

def pblkRlOut (rl : RlPerRb) (nrUser nrGc : Int) : RlPerRb :=
  { rl with rbUserCnt := rl.rbUserCnt - nrUser, rbGcCnt := rl.rbGcCnt - nrGc }

def pblkRlInserted (rl : RlPerRb) (nrEntries : Int) : RlPerRb :=
  if 0 ≤ rl.rbSpace then { rl with rbSpace := rl.rbSpace - nrEntries } else rl

/-! ## Map updates -/

/-- `pblk_update_map_cache` under `CONFIG_PBLK_MULTIMAP`: the old address of
`lba` is invalidated, through the write-buffer entry that shadows it. -/
def pblkUpdateMapCache (c : CacheState) (lba : Nat) (ppa : PpaAddr) : Except Fault CacheState := do
  let (l2pPpa, s) ← pblkTransMapGet cfg.l2p c.pblk lba
  let (l2pPpa, s) := if pblkAddrInCache ppa then pblkCacheInvalidate s l2pPpa else (l2pPpa, s)
  let c := c.withPblk s
  let c := if !pblkAddrInCache l2pPpa && !pblkPpaEmpty l2pPpa then c.invalidate l2pPpa else c
  c.updatePblk fun s => pblkCacheMapSet cfg.l2p s lba ppa

/-- `pblk_update_map_dev`: point `lba` at the device address its entry was
written to, unless the entry is no longer the lba's mapping. -/
def pblkUpdateMapDev (c : CacheState) (lba : Nat) (ppa entryLine : PpaAddr) : Except Fault CacheState := do
  -- padded entries
  if lba = addrEmpty then return c.invalidate ppa
  if cfg.nrSecs ≤ lba then return c
  let (l2pLine, s) ← pblkTransMapGet cfg.l2p c.pblk lba
  let c := c.withPblk s
  if l2pLine ≠ entryLine then
    return if pblkPpaEmpty ppa = false then c.invalidate ppa else c
  c.updatePblk fun s => pblkDevMapSet cfg.l2p s lba ppa

/-- The map updates and rate-limiter release of `__pblk_rb_update_l2p` for the
entries a write buffer recycled, from the write contexts they held. -/
def updateL2pRecycled (nrb : Nat) (c : CacheState) (recycled : List (Nat × WCtx)) : Except Fault CacheState := do
  let c ← recycled.foldlM (fun c (pos, w) => pblkUpdateMapDev cfg c w.lba w.ppa (pblkCachelineToAddr pos nrb)) c
  let userIo := (recycled.filter fun (_, w) => w.flags.user).length
  let gcIo := (recycled.filter fun (_, w) => !w.flags.user && w.flags.gc).length
  pure (c.setRl nrb (pblkRlOut (c.rl nrb) userIo gcIo))

def pblkRbMayWriteUser (c : CacheState) (nrb nrEntries : Nat) : Except Fault (NvmIo × Nat × CacheState) := do
  match pblkRlUserMayInsert cfg (c.rl nrb) nrEntries with
  | .ok =>
      match pblkRbMayWriteFlush (c.rb nrb) nrEntries with
      | none => pure (.requeue, 0, c)
      | some (pos, rb, recycled) =>
          let c ← updateL2pRecycled cfg nrb (c.setRb nrb rb) recycled
          pure (.done, pos, c)
  | io => pure (io, 0, c)

/-! ## Filling entries -/

def pblkRbWriteEntryUser (c : CacheState) (nrb : Nat) (w : WCtx) (pos : Nat) : Except Fault CacheState := do
  let entry := (c.rb nrb).entries pos
  if entry.flags.writable = false then throw .bug
  let c := c.setRb nrb ((c.rb nrb).setEntry pos { entry with lba := w.lba, ppa := w.ppa })
  let c ← pblkUpdateMapCache cfg c w.lba (pblkCachelineToAddr pos nrb)
  let entry := (c.rb nrb).entries pos
  pure (c.setRb nrb ((c.rb nrb).setEntry pos { entry with flags := { w.flags with written := true } }))

/-- `pblk_rb_write_entry_user_to_rrwb`: an entry reserved for the lba's page
takes the sector. -/
def pblkRbWriteEntryUserToRrwb (c : CacheState) (nrb : Nat) (w : WCtx) (pos : Nat) : Except Fault CacheState := do
  let entry := (c.rb nrb).entries pos
  if entry.flags.writable = false then throw .bug
  if entry.lba ≠ w.lba then throw .bug
  let c := if !pblkAddrInCache entry.ppa && !pblkPpaEmpty entry.ppa then c.invalidate entry.ppa else c
  let c ← c.updatePblk fun s => pblkCacheMapSet cfg.l2p s w.lba (pblkCachelineToAddr pos nrb)
  let entry := (c.rb nrb).entries pos
  pure (c.setRb nrb ((c.rb nrb).setEntry pos
    { entry with lba := w.lba, ppa := w.ppa, flags := { w.flags with written := true, reserved := false } }))

/-- What `pblk_rb_reserved_entry` does with the entry the lba's old cacheline
names: the new entry takes its data, its shadowed device address, or nothing. -/
def takeOldEntry (c : CacheState) (nrb pos : Nat) (flags : Flags) (oldNrb oldLine : Nat) :
    Except Fault (Flags × CacheState) := do
  let oldPos := pblkRbWrapPos (c.rb oldNrb) oldLine
  let old := (c.rb oldNrb).entries oldPos
  let entry := (c.rb nrb).entries pos
  if old.flags.invalidate then pure (flags, c)
  -- the data is still in the old entry: it is copied, with no device address
  else if old.flags.written ∨ old.flags.submitted then
    pure ({ flags with written := true }, c.setRb nrb ((c.rb nrb).setEntry pos { entry with ppa := .empty }))
  else if old.flags.reserved ∨ old.flags.waitread then do
    let c := c.setRb nrb ((c.rb nrb).setEntry pos { entry with ppa := old.ppa })
    let old := (c.rb oldNrb).entries oldPos
    let oldFlags := if old.flags.reserved then
        { old.flags with reserved := false, writable := false, invalidate := true, written := true }
      else { old.flags with waitread := false, invalidate := true, written := true }
    pure (flags, c.setRb oldNrb ((c.rb oldNrb).setEntry oldPos { old with ppa := .empty, flags := oldFlags }))
  else throw .bug

/-- `pblk_rb_reserved_entry`: reserve an entry for a sector of a page, keeping
the sector's old address in it. -/
def pblkRbReservedEntry (c : CacheState) (nrb : Nat) (w : WCtx) (pos : Nat) : Except Fault CacheState := do
  let entry := (c.rb nrb).entries pos
  if entry.flags.writable = false then throw .bug
  let flags := { w.flags with writable := true }
  let (l2pPpa, s) ← pblkTransMapGet cfg.l2p c.pblk w.lba
  let c := c.withPblk s
  let c := c.setRb nrb ((c.rb nrb).setEntry pos { entry with lba := w.lba, ppa := l2pPpa })
  let (flags, c) ← match l2pPpa with
    | .cache oldLine oldNrb _ => takeOldEntry c nrb pos flags oldNrb oldLine
    | _ => pure (flags, c)
  if pblkAddrInCache ((c.rb nrb).entries pos).ppa then throw .bug
  let c ← c.updatePblk fun s => pblkCacheMapSet cfg.l2p s w.lba (.cache pos nrb true)
  let entry := (c.rb nrb).entries pos
  pure (c.setRb nrb ((c.rb nrb).setEntry pos { entry with flags := { flags with reserved := true } }))

/-- `pblk_get_reserved_addr`: for a page-mapped segment, whether the lba's
mapping is an entry still reserved (`some (true, ppa)`) or not
(`some (false, ppa)`); `none` (the source's `-1`) for other segments. The
model reads the reserved bit of a cacheline only: a device address is taken
to have it clear. -/
def pblkGetReservedAddr (c : CacheState) (lba : Nat) : Except Fault (Option (Bool × PpaAddr) × CacheState) := do
  if (c.pblk.bmap (cfg.l2p.lsegOf lba)).map ≠ .page then return (none, c)
  let (rPpa, s) ← pblkTransMapGet cfg.l2p c.pblk lba
  let c := c.withPblk s
  match rPpa with
  | .cache line nrb true =>
      let flags := ((c.rb nrb).entries (pblkRbWrapPos (c.rb nrb) line)).flags
      pure (some (flags.reserved, rPpa), c)
  | _ => pure (some (false, rPpa), c)

/-! ## __pblk_write_to_cache -/

/-- Where `__pblk_write_to_cache` stands at its `retry:` label. -/
structure WriteCtx where
  nrb : Nat
  lba : Nat
  nrEntries : Nat
  /-- `nr_entries_padding` -/
  padding : Int
  /-- `start_i`: the sectors already written to reserved entries -/
  startI : Nat
  flags : Flags
  hasData : Bool

def userWCtx (lba : Nat) (flags : Flags) : WCtx :=
  { lba := lba, ppa := .empty, flags := flags, bios := [], submitFlags := {} }

/-- A reserved address counts only in the chunk's own buffer. -/
def ownReserved (nrb : Nat) : Option (Bool × PpaAddr) → Option (Bool × PpaAddr)
  | some (true, rPpa@(.cache _ rNrb _)) => if nrb = rNrb then some (true, rPpa) else some (false, rPpa)
  | r => r

/-- The first loop of the `PAGE_MAP` case: the sectors of the chunk's first
page already reserved are written to their entries, up to the first one not
reserved or the page's end. Returns whether a sector not reserved was found. -/
def prepareLoop (c : CacheState) (nrb lba : Nat) (flags : Flags) : Nat → Nat → Except Fault (Bool × Nat × CacheState)
  | _, 0 => pure (false, 0, c)
  | i, n + 1 => do
      let (r, c) ← pblkGetReservedAddr cfg c (lba + i)
      match ownReserved nrb r with
      | some (false, _) => pure (true, 0, c)
      | some (true, rPpa) => do
          let (rLine, rNrb) ← match rPpa with
            | .cache line rNrb _ => pure (line, rNrb)
            | _ => throw .bug
          let c ← pblkRbWriteEntryUserToRrwb cfg c rNrb (userWCtx (lba + i) flags)
            (pblkRbWrapPos (c.rb rNrb) rLine)
          if (lba + i) % 4 = 3 then pure (false, i + 1, c)
          else do
            let (found, startI, c) ← prepareLoop c nrb lba flags (i + 1) n
            pure (found, max startI (i + 1), c)
      | none =>
          if (lba + i) % 4 = 3 then pure (false, 0, c)
          else prepareLoop c nrb lba flags (i + 1) n

/-- The write buffer of a user chunk: its stream, or buffer 0 beyond
`MAX_LSTREAM`. -/
def userBuffer (lba hint : Nat) : Nat :=
  let nrb := cfg.getLstream lba hint
  if cfg.maxLstream < nrb then 0 else nrb

def writeToCachePrepare (c : CacheState) (lba nrEntries hint : Nat) (flags : Flags) (hasData : Bool) :
    Except Fault (WriteCtx × CacheState) := do
  let nrb := userBuffer cfg lba hint
  let ctx : WriteCtx := { nrb, lba, nrEntries, padding := 0, startI := 0, flags, hasData }
  if nrEntries = 0 then pure (ctx, c)
  else if (cfg.l2p.lstream nrb).mapType ≠ .page then pure ({ ctx with padding := nrEntries }, c)
  else do
    -- the chunk rounded out to whole pages
    let padding : Int := (((lba + nrEntries + 3) / 4 - lba / 4) * 4 : Nat)
    let (found, startI, c) ← prepareLoop cfg c nrb lba flags 0 nrEntries
    pure ({ ctx with padding := if found then padding else padding - 4, startI }, c)

/-- The second loop: every sector from `start_i` on goes to a reserved entry,
to a page of four entries reserved for it, or to a fresh entry. Returns the
entries used and the next position. -/
def fillLoop (c : CacheState) (ctx : WriteCtx) : Nat → Nat → Nat → Int → Except Fault (Int × Nat × CacheState)
  | _, 0, posIndex, real => pure (real, posIndex, c)
  | i, n + 1, posIndex, real => do
      let lba := ctx.lba + i
      let w := userWCtx lba ctx.flags
      let (r, c) ← pblkGetReservedAddr cfg c lba
      let r := ownReserved ctx.nrb r
      -- a page not yet reserved: reserve its four entries, then look again
      let (r, c, posIndex, real) ← match r with
        | some (false, _) => do
            let startLba := lba / 4 * 4
            let real := real + 4
            if ctx.padding < real then throw .bug
            let c ← (List.range 4).foldlM (fun c j =>
                pblkRbReservedEntry cfg c ctx.nrb { w with lba := startLba + j }
                  (pblkRbWrapPos (c.rb ctx.nrb) (posIndex + j))) c
            -- looked up again without the own-buffer check
            let (r, c) ← pblkGetReservedAddr cfg c lba
            pure (r, c, posIndex + 4, real)
        | r => pure (r, c, posIndex, real)
      let (c, posIndex, real) ← match r with
        | some (true, rPpa) => do
            let (rLine, rNrb) ← match rPpa with
              | .cache line rNrb _ => pure (line, rNrb)
              | _ => throw .bug
            let c ← pblkRbWriteEntryUserToRrwb cfg c rNrb w (pblkRbWrapPos (c.rb rNrb) rLine)
            pure (c, posIndex, real)
        | some (false, _) => throw .bug
        | none => do
            let c ← pblkRbWriteEntryUser cfg c ctx.nrb w (pblkRbWrapPos (c.rb ctx.nrb) posIndex)
            pure (c, posIndex + 1, real + 1)
      fillLoop c ctx (i + 1) n posIndex real

/-- The `out:` label: the entries no longer being filled leave `nr_user`. -/
def writeToCacheOut (c : CacheState) (nrb : Nat) (padding : Int) : CacheState :=
  if 0 < padding then
    c.setRb nrb { c.rb nrb with nrUser := wrap32 ((c.rb nrb).nrUser - padding) }
  else c

def writeToCacheAt (c : CacheState) (ctx : WriteCtx) : Except Fault (NvmIo × CacheState) := do
  let (ret, pos, c) ← pblkRbMayWriteUser cfg c ctx.nrb ctx.padding.toNat
  match ret with
  | .requeue => pure (.requeue, c)
  | .err =>
      -- `pblk_pipeline_stop`, and nothing was admitted
      pure (.err, writeToCacheOut { c with stopped := true } ctx.nrb 0)
  | _ =>
      let c := c.setRl ctx.nrb (pblkRlUserIn (c.rl ctx.nrb) ctx.padding)
      if ctx.startI = ctx.nrEntries ∨ ctx.hasData = false then
        pure (ret, writeToCacheOut c ctx.nrb ctx.padding)
      else do
        let (real, _, c) ← fillLoop cfg c ctx ctx.startI (ctx.nrEntries - ctx.startI) pos 0
        let c := if real < ctx.padding then
            c.setRl ctx.nrb (pblkRlOut (c.rl ctx.nrb) (ctx.padding - real) 0)
          else c
        if ctx.padding < real then throw .bug
        let c := c.setRl ctx.nrb (pblkRlInserted (c.rl ctx.nrb) real)
        pure (ret, writeToCacheOut c ctx.nrb real)

def pblkWriteToCacheChunk (c : CacheState) (lba nrEntries hint : Nat) (flags : Flags) (hasData : Bool) :
    Except Fault (NvmIo × CacheState) := do
  let (ctx, c) ← writeToCachePrepare cfg c lba nrEntries hint flags hasData
  writeToCacheAt cfg c ctx

/-- `pblk_write_to_cache`: four sectors at a time; only the last chunk's
answer is returned. A chunk the buffer refuses leaves the bio waiting, and the
loop stops there. -/
def writeToCacheLoop (c : CacheState) (hint : Nat) (flags : Flags) (hasData : Bool) :
    Nat → Nat → Except Fault (NvmIo × CacheState)
  -- more than `unit = 4` entries left: a chunk of four, whose answer is dropped
  | lba, n + 5 => do
      let (ret, c) ← pblkWriteToCacheChunk cfg c lba 4 hint flags hasData
      if ret = .requeue then pure (.requeue, c)
      else writeToCacheLoop c hint flags hasData (lba + 4) (n + 1)
  | lba, nrEntries => pblkWriteToCacheChunk cfg c lba nrEntries hint flags hasData

/-- A host write as `pblk_write_to_cache` reads it: its first lba, its sector
count, its write hint and whether it carries data. -/
structure UserBio where
  lba : Nat
  nrSecs : Nat
  writeHint : Nat
  hasData : Bool

def pblkWriteToCache (c : CacheState) (bio : UserBio) (flags : Flags) : Except Fault (NvmIo × CacheState) :=
  writeToCacheLoop cfg c bio.writeHint flags bio.hasData bio.lba bio.nrSecs

section MapSpecs

variable {cfg}

theorem updateMapDev_current {c c' : CacheState} {lba : Nat} {ppa entryLine : PpaAddr}
    (current : mapRead cfg.l2p c.pblk lba = .ok entryLine) (valid : lba < cfg.nrSecs)
    (notPad : lba ≠ addrEmpty) (update : pblkUpdateMapDev cfg c lba ppa entryLine = .ok c') :
    c'.invalidated = c.invalidated ∧ ∃ cmt, pblkDevMapSet cfg.l2p (c.pblk.withCmt cmt) lba ppa = .ok c'.pblk := by
  have inRange : ¬ cfg.nrSecs ≤ lba := Nat.not_le.mpr valid
  simp only [pblkUpdateMapDev, notPad, inRange, if_false] at update
  obtain ⟨⟨l2pLine, s⟩, got, rest⟩ := bind_eq_ok.mp update
  obtain ⟨read, cmt, rfl⟩ := transMapGet_ok got
  -- the lookup read the cacheline the entry was written from
  have same : l2pLine = entryLine := by
    rw [current] at read
    exact (Except.ok.inj read).symm
  subst same
  simp only [ne_eq, not_true_eq_false, if_false, CacheState.updatePblk] at rest
  obtain ⟨s', set, done⟩ := bind_eq_ok.mp rest
  rw [← pure_eq_ok.mp done]
  exact ⟨rfl, cmt, set⟩

end MapSpecs

/-! ## What filling entries leaves alone

The entries of a buffer are filled between its claim and the `out:` label;
nothing on the way moves a buffer's head, its user count or its size, or
touches the rate limiter. -/

section Frames

variable {cfg}

/-- Two sets of write buffers that differ at most in their entries. -/
structure Heads (r r' : Nat → Rb) : Prop where
  mem : ∀ nrb, (r' nrb).mem = (r nrb).mem
  nrUser : ∀ nrb, (r' nrb).nrUser = (r nrb).nrUser
  power : ∀ nrb, (r' nrb).power = (r nrb).power

theorem Heads.refl (r : Nat → Rb) : Heads r r := ⟨fun _ => rfl, fun _ => rfl, fun _ => rfl⟩

theorem Heads.trans {r r' r'' : Nat → Rb} (first : Heads r r') (second : Heads r' r'') : Heads r r'' :=
  ⟨fun nrb => (second.mem nrb).trans (first.mem nrb), fun nrb => (second.nrUser nrb).trans (first.nrUser nrb),
    fun nrb => (second.power nrb).trans (first.power nrb)⟩

theorem heads_setEntry (r : Nat → Rb) (nrb pos : Nat) (w : WCtx) :
    Heads r (Function.update r nrb ((r nrb).setEntry pos w)) := by
  refine ⟨fun n => ?_, fun n => ?_, fun n => ?_⟩ <;>
    by_cases same : n = nrb <;> simp [same]

theorem cacheInvalidate_heads (s : Pblk) (rPpa : PpaAddr) :
    Heads s.rwb (pblkCacheInvalidate s rPpa).2.rwb := by
  unfold pblkCacheInvalidate
  split
  · dsimp only
    split_ifs <;> first | exact Heads.refl _ | exact heads_setEntry _ _ _ _
  · exact Heads.refl _

/-- A write-path step that keeps the rate limiter and every buffer's head. -/
structure Keeps (c c' : CacheState) : Prop where
  rl : c'.rl = c.rl
  heads : Heads c.pblk.rwb c'.pblk.rwb

theorem Keeps.refl (c : CacheState) : Keeps c c := ⟨rfl, Heads.refl _⟩

theorem Keeps.trans {c c' c'' : CacheState} (first : Keeps c c') (second : Keeps c' c'') : Keeps c c'' :=
  ⟨second.rl.trans first.rl, first.heads.trans second.heads⟩

theorem keeps_setEntry (c : CacheState) (nrb pos : Nat) (w : WCtx) :
    Keeps c (c.setRb nrb ((c.rb nrb).setEntry pos w)) :=
  ⟨rfl, heads_setEntry _ _ _ _⟩

theorem keeps_withPblk {c : CacheState} {s : Pblk} (heads : Heads c.pblk.rwb s.rwb) : Keeps c (c.withPblk s) :=
  ⟨rfl, heads⟩

theorem keeps_invalidate (c : CacheState) (ppa : PpaAddr) : Keeps c (c.invalidate ppa) := ⟨rfl, Heads.refl _⟩

theorem keeps_updatePblk {c c' : CacheState} {f : Pblk → Except Fault Pblk}
    (frame : ∀ s s', f s = .ok s' → s'.rwb = s.rwb) (updated : c.updatePblk f = .ok c') : Keeps c c' := by
  obtain ⟨s, called, done⟩ := bind_eq_ok.mp updated
  rw [← pure_eq_ok.mp done]
  exact keeps_withPblk (by rw [frame _ _ called]; exact Heads.refl _)

theorem keeps_cacheMapSet {c c' : CacheState} {lba : Nat} {ppa : PpaAddr}
    (updated : c.updatePblk (fun s => pblkCacheMapSet cfg.l2p s lba ppa) = .ok c') : Keeps c c' :=
  keeps_updatePblk (fun _ _ set => cacheMapSet_rwb set) updated

theorem keeps_transMapGet {c : CacheState} {lba : Nat} {ppa : PpaAddr} {s : Pblk}
    (got : pblkTransMapGet cfg.l2p c.pblk lba = .ok (ppa, s)) : Keeps c (c.withPblk s) :=
  keeps_withPblk (by rw [transMapGet_rwb got]; exact Heads.refl _)

theorem getReservedAddr_keeps {c c' : CacheState} {lba : Nat} {r : Option (Bool × PpaAddr)}
    (got : pblkGetReservedAddr cfg c lba = .ok (r, c')) : Keeps c c' := by
  unfold pblkGetReservedAddr at got
  split at got
  · cases pure_eq_ok.mp got
    exact Keeps.refl c
  · obtain ⟨⟨rPpa, s⟩, read, rest⟩ := bind_eq_ok.mp got
    dsimp only at rest
    split at rest <;>
    · simp only [pure_eq_ok, Prod.mk.injEq] at rest
      rw [← rest.2]
      exact keeps_transMapGet read

theorem updateMapCache_keeps {c c' : CacheState} {lba : Nat} {ppa : PpaAddr}
    (updated : pblkUpdateMapCache cfg c lba ppa = .ok c') : Keeps c c' := by
  obtain ⟨⟨l2pPpa, s⟩, read, rest⟩ := bind_eq_ok.mp updated
  dsimp only at rest
  have looked := keeps_transMapGet read
  -- the shadowed entry, if any, is invalidated in place
  have shadow : Keeps c (c.withPblk (if pblkAddrInCache ppa then pblkCacheInvalidate s l2pPpa else (l2pPpa, s)).2) := by
    by_cases cached : pblkAddrInCache ppa
    · rw [if_pos cached]
      exact keeps_withPblk (looked.heads.trans (cacheInvalidate_heads s l2pPpa))
    · rw [if_neg cached]
      exact looked
  generalize (if pblkAddrInCache ppa then pblkCacheInvalidate s l2pPpa else (l2pPpa, s)) = p at rest shadow
  refine shadow.trans ((?_ : Keeps _ _).trans (keeps_cacheMapSet rest))
  split_ifs
  · exact keeps_invalidate _ _
  · exact Keeps.refl _

theorem writeEntryUser_keeps {c c' : CacheState} {nrb pos : Nat} {w : WCtx}
    (wrote : pblkRbWriteEntryUser cfg c nrb w pos = .ok c') : Keeps c c' := by
  unfold pblkRbWriteEntryUser at wrote
  dsimp only at wrote
  split at wrote
  · cases wrote
  · obtain ⟨mapped, map, done⟩ := bind_eq_ok.mp wrote
    rw [← pure_eq_ok.mp done]
    exact ((keeps_setEntry _ _ _ _).trans (updateMapCache_keeps map)).trans (keeps_setEntry _ _ _ _)

theorem writeEntryUserToRrwb_keeps {c c' : CacheState} {nrb pos : Nat} {w : WCtx}
    (wrote : pblkRbWriteEntryUserToRrwb cfg c nrb w pos = .ok c') : Keeps c c' := by
  unfold pblkRbWriteEntryUserToRrwb at wrote
  dsimp only at wrote
  split at wrote
  · cases wrote
  split at wrote
  · cases wrote
  obtain ⟨mapped, map, done⟩ := bind_eq_ok.mp wrote
  rw [← pure_eq_ok.mp done]
  have shadow : Keeps c (if !pblkAddrInCache ((c.rb nrb).entries pos).ppa &&
      !pblkPpaEmpty ((c.rb nrb).entries pos).ppa then c.invalidate ((c.rb nrb).entries pos).ppa else c) := by
    split_ifs
    · exact keeps_invalidate _ _
    · exact Keeps.refl _
  exact (shadow.trans (keeps_cacheMapSet map)).trans (keeps_setEntry _ _ _ _)

theorem takeOldEntry_keeps {c c' : CacheState} {nrb pos oldNrb oldLine : Nat} {flags flags' : Flags}
    (taken : takeOldEntry c nrb pos flags oldNrb oldLine = .ok (flags', c')) : Keeps c c' := by
  unfold takeOldEntry at taken
  dsimp only at taken
  split at taken
  · cases pure_eq_ok.mp taken
    exact Keeps.refl c
  split at taken
  · simp only [pure_eq_ok, Prod.mk.injEq] at taken
    rw [← taken.2]
    exact keeps_setEntry _ _ _ _
  split at taken
  · simp only [pure_eq_ok, Prod.mk.injEq] at taken
    rw [← taken.2]
    exact (keeps_setEntry _ _ _ _).trans (keeps_setEntry _ _ _ _)
  · cases taken

theorem reservedEntry_keeps {c c' : CacheState} {nrb pos : Nat} {w : WCtx}
    (reserved : pblkRbReservedEntry cfg c nrb w pos = .ok c') : Keeps c c' := by
  unfold pblkRbReservedEntry at reserved
  dsimp only at reserved
  split at reserved
  · cases reserved
  obtain ⟨⟨l2pPpa, s⟩, read, rest⟩ := bind_eq_ok.mp reserved
  dsimp only at rest
  -- the old cacheline, if the lba had one, gives up its data or its address
  split at rest <;>
  · obtain ⟨⟨flags, mid⟩, took, rest⟩ := bind_eq_ok.mp rest
    have old : Keeps c mid := by
      first
        | exact ((keeps_transMapGet read).trans (keeps_setEntry _ _ _ _)).trans (takeOldEntry_keeps took)
        | simp only [pure_eq_ok, Prod.mk.injEq] at took
          rw [← took.2]
          exact (keeps_transMapGet read).trans (keeps_setEntry _ _ _ _)
    dsimp only at rest
    split at rest
    · cases rest
    obtain ⟨mapped, map, done⟩ := bind_eq_ok.mp rest
    rw [← pure_eq_ok.mp done]
    exact (old.trans (keeps_cacheMapSet map)).trans (keeps_setEntry _ _ _ _)

theorem updateMapDev_keeps {c c' : CacheState} {lba : Nat} {ppa entryLine : PpaAddr}
    (updated : pblkUpdateMapDev cfg c lba ppa entryLine = .ok c') : Keeps c c' := by
  unfold pblkUpdateMapDev at updated
  dsimp only at updated
  split at updated
  · cases pure_eq_ok.mp updated
    exact keeps_invalidate _ _
  split at updated
  · cases pure_eq_ok.mp updated
    exact Keeps.refl c
  obtain ⟨⟨l2pLine, s⟩, read, rest⟩ := bind_eq_ok.mp updated
  dsimp only at rest
  have looked := keeps_transMapGet read
  split at rest
  · -- the entry no longer maps the lba: at most its address is invalidated
    cases pure_eq_ok.mp rest
    split_ifs
    · exact looked.trans (keeps_invalidate _ _)
    · exact looked
  · exact looked.trans (keeps_updatePblk (fun _ _ set => devMapSet_rwb set) rest)

theorem updateL2pRecycled_heads {c c' : CacheState} {nrb : Nat} {recycled : List (Nat × WCtx)}
    (updated : updateL2pRecycled cfg nrb c recycled = .ok c') : Heads c.pblk.rwb c'.pblk.rwb := by
  obtain ⟨mid, fold, done⟩ := bind_eq_ok.mp updated
  rw [← pure_eq_ok.mp done]
  exact (foldlM_rel Keeps.refl Keeps.trans (fun _ _ _ updated => updateMapDev_keeps updated) _ _ _ fold).heads

theorem userMayInsert_ne_done (rl : RlPerRb) (nrEntries : Nat) : pblkRlUserMayInsert cfg rl nrEntries ≠ .done := by
  unfold pblkRlUserMayInsert
  split_ifs <;> simp

theorem mayWriteUser_granted {c c' : CacheState} {nrb n pos : Nat}
    (granted : pblkRbMayWriteUser cfg c nrb n = .ok (.done, pos, c')) :
    pos = (c.rb nrb).mem ∧ (c'.rb nrb).mem = advance (c.rb nrb).mem n (c.rb nrb).nrEntries ∧
      (c'.rb nrb).nrUser = wrap32 ((c.rb nrb).nrUser + n : Nat) ∧ (c'.rb nrb).nrEntries = (c.rb nrb).nrEntries := by
  unfold pblkRbMayWriteUser at granted
  split at granted
  · split at granted
    · simp at granted
    · next pos' rb recycled claim =>
      obtain ⟨mid, recycle, done⟩ := bind_eq_ok.mp granted
      simp only [pure_eq_ok, Prod.mk.injEq] at done
      obtain ⟨-, rfl, rfl⟩ := done
      have heads := updateL2pRecycled_heads recycle
      obtain ⟨rfl, mem, user, power⟩ := mayWriteFlush_heads claim
      have own : (c.setRb nrb rb).rb nrb = rb := by simp
      refine ⟨rfl, ?_, ?_, ?_⟩
      · rw [← mem, ← own]
        exact heads.mem nrb
      · rw [← user, ← own]
        exact heads.nrUser nrb
      · simp only [Rb.nrEntries]
        rw [← power, ← own]
        exact congrArg (2 ^ ·) (heads.power nrb)
  · next io refused =>
    simp only [pure_eq_ok, Prod.mk.injEq] at granted
    exact absurd granted.1 (userMayInsert_ne_done _ _)

end Frames

/-! ## Flushes -/

section Flush

variable {cfg}

theorem userMayInsert_zero {rl : RlPerRb} (admitted : rl.rbUserCnt < cfg.rbUserMax) :
    pblkRlUserMayInsert cfg rl 0 = .ok := by
  have underBudget : ¬ cfg.rbUserMax ≤ rl.rbUserCnt := Int.not_le.mpr admitted
  simp [pblkRlUserMayInsert, underBudget]

theorem mayWriteUser_zero {c : CacheState} {nrb : Nat} (admitted : (c.rl nrb).rbUserCnt < cfg.rbUserMax) :
    pblkRbMayWriteUser cfg c nrb 0 =
      .ok (.done, (c.rb nrb).mem,
        (c.setRb nrb
          { c.rb nrb with mem := advance (c.rb nrb).mem 0 (c.rb nrb).nrEntries, nrUser := wrap32 (c.rb nrb).nrUser }).setRl
          nrb
          (pblkRlOut (c.rl nrb) 0 0)) := by
  simp only [pblkRbMayWriteUser, userMayInsert_zero admitted, mayWriteFlush_zero]
  rfl

/-- Under `CONFIG_PBLK_MULTIMAP` nothing on the write path reads
`REQ_PREFLUSH`, so an empty flush bio is a write of no sectors: whenever the
rate limiter of its buffer admits user I/O it is answered `NVM_IO_DONE`, on
which `pblk_make_rq` ends it, and every write buffer keeps its sync pointer,
its sync point and its entries, none of which holds the bio. -/
theorem empty_flush_done_unsynced (c : CacheState) (lba hint : Nat) (flags : Flags)
    (admitted : (c.rl (userBuffer cfg lba hint)).rbUserCnt < cfg.rbUserMax) :
    ∃ c', pblkWriteToCache cfg c ⟨lba, 0, hint, false⟩ flags = .ok (.done, c') ∧
      ∀ nrb, (c'.rb nrb).sync = (c.rb nrb).sync ∧ (c'.rb nrb).syncPoint = (c.rb nrb).syncPoint ∧
        (c'.rb nrb).entries = (c.rb nrb).entries := by
  -- one chunk of no sectors, admitted at once
  simp only [pblkWriteToCache, writeToCacheLoop, pblkWriteToCacheChunk, writeToCachePrepare, if_true, pure_bind, writeToCacheAt,
    Int.toNat_zero, mayWriteUser_zero admitted, ok_bind]
  refine ⟨_, rfl, fun nrb => ?_⟩
  by_cases same : nrb = userBuffer cfg lba hint <;> simp [writeToCacheOut, same]

/-- Write buffers of four entries, every lba in stream 0 of `mixedConfig`
(sector-mapped), a user budget of 16 entries a buffer. -/
def flushConfig : CacheConfig where
  l2p := mixedConfig
  rbUserMax := 16
  nrSecs := 128
  getLstream := fun _ _ => 0
  maxLstream := 7

/-- The write path as `pblk_init` leaves it: empty buffers, no space limit
(`rb_space = -1`), every segment unmapped. -/
def cacheInit : CacheState where
  pblk := pblkL2pInit fun nrb => pblkRbInit nrb 2
  rl := fun _ => { rbUserCnt := 0, rbGcCnt := 0, rbSpace := -1 }
  stopped := false
  invalidated := []

/-- A one-sector write to lba 0 is answered `NVM_IO_DONE` (and ended) with its
entry, position 0 of buffer 0, not yet persisted (`sync = 0`, `mem = 1`); an
empty flush that follows is answered `NVM_IO_DONE` with the sync pointer still
at 0. -/
theorem empty_flush_done_after_write :
    ∃ c, pblkWriteToCache flushConfig cacheInit ⟨0, 1, 0, true⟩ { user := true } = .ok (.done, c) ∧
      (c.rb 0).sync = 0 ∧ (c.rb 0).mem = 1 ∧
      ∃ c', pblkWriteToCache flushConfig c ⟨0, 0, 0, false⟩ { user := true } = .ok (.done, c') ∧
        ∀ nrb, (c'.rb nrb).sync = (c.rb nrb).sync ∧ (c'.rb nrb).syncPoint = (c.rb nrb).syncPoint ∧
          (c'.rb nrb).entries = (c.rb nrb).entries := by
  refine ⟨_, rfl, rfl, rfl, ?_⟩
  exact empty_flush_done_unsynced _ 0 0 _ (by decide)

end Flush

end MStream.Cache
