import MStream.Device
import MStream.L2p.Sector
import MStream.RateLimit

/-!
The GC producer of the write buffers under `CONFIG_PBLK_MULTIMAP`
(`pblk_write_gc_to_cache` in pblk-cache.c, with `pblk_rb_gc_data_to_rrwb`,
`pblk_rb_may_write_gc` and `pblk_rb_write_entry_gc` of pblk-rb.c and
`pblk_update_map_gc` of pblk-core.c). GC has read the valid sectors of a
victim line; each goes to the GC buffer `GC_NRB`, and the map is pointed at
the copy only while the lba's current data still lies on the victim line, as
`pblk_get_reserved_old_addr2` reads it through the write-buffer entry a
cacheline names. A copy the map is not moved to is kept as padding
(`ADDR_EMPTY`), which `pblk_update_map_dev` invalidates once the entry is
written out. A sector of a page-mapped stream whose page already reserved an
entry for it is copied into that entry instead (`pblk_rb_gc_data_to_rrwb`).

As on the user path, the entries' data, the skip and `preinvalid_map`
counters and the writer kick are not modelled, and waiting is the caller's:
where the source sleeps until `pblk_rb_may_write_gc` admits the batch and
jumps back to `retry_sector:`, `writeGcToCacheAt` returns `requeue` with
nothing changed. `rb_user_active`, which a timer clears, and the limiter
state `pblk_rl_gc_may_insert` reads are given to it.

On the sector-mapped configuration of `MStream.L2p.Sector` a batch refines
`gcRemap`: every lba whose data lies on the victim line moves to its first
copy, and no other mapping changes.
-/

namespace MStream.Gc

open Machine Address RingBuffer Dftl L2p Cache

/-- `GC_NRB` with `PBLK_ALL_PMT` and `NR_DATA = 4`: `MAX_PSTREAM - 2`. -/
def gcNrb : Nat := 6

/-! ## Reading through the write buffer -/

/-- `pblk_get_reserved_old_addr2`: a cacheline stands for the address its
entry keeps while the entry is submitted, reserved or waiting for a read, and
for itself while the entry holds written data. -/
def pblkGetReservedOldAddr2 (c : CacheState) : PpaAddr → PpaAddr
  | ppa@(.cache line nrb _) =>
      let w := (c.rb nrb).entries (pblkRbWrapPos (c.rb nrb) line)
      if w.flags.written then ppa
      else if w.flags.submitted then w.ppa
      else if w.flags.reserved then w.ppa
      else if w.flags.waitread then w.ppa
      else ppa
  | ppa => ppa

/-- Whether the data an address holds lies on line `gcLine`, read through the
entry a cacheline names: the test of `pblk_update_map_gc`. -/
def onGcLine (c : CacheState) (gcLine : Nat) (ppa : PpaAddr) : Bool :=
  decide (pblkTgtPpaToLine (pblkGetReservedOldAddr2 c ppa) = some gcLine)

/-- Flags under which `pblk_get_reserved_old_addr2` answers an entry's
cacheline with the cacheline itself. -/
def keepsCacheline (f : Flags) : Bool := f.written || !(f.submitted || f.reserved || f.waitread)

@[simp] theorem getReservedOldAddr2_empty (c : CacheState) : pblkGetReservedOldAddr2 c .empty = .empty := rfl

@[simp] theorem getReservedOldAddr2_dev (c : CacheState) (g : DevAddr) :
    pblkGetReservedOldAddr2 c (.dev g) = .dev g := rfl

theorem getReservedOldAddr2_of_cached (c : CacheState) (ppa : PpaAddr) :
    (if pblkAddrInCache ppa then pblkGetReservedOldAddr2 c ppa else ppa) = pblkGetReservedOldAddr2 c ppa := by
  cases ppa <;> rfl

theorem getReservedOldAddr2_cacheline {c : CacheState} {line nrb : Nat} (r : Bool)
    (keeps : keepsCacheline ((c.rb nrb).entries (pblkRbWrapPos (c.rb nrb) line)).flags = true) :
    pblkGetReservedOldAddr2 c (.cache line nrb r) = .cache line nrb r := by
  simp only [keepsCacheline, Bool.or_eq_true, Bool.not_eq_true', Bool.or_eq_false_iff] at keeps
  simp only [pblkGetReservedOldAddr2]
  rcases keeps with written | ⟨⟨submitted, reserved⟩, waitread⟩
  · simp [written]
  · simp [submitted, reserved, waitread]

/-- The read path's `pblk_get_reserved_old_addr` and GC's
`pblk_get_reserved_old_addr2` differ on one kind of entry: one submitted to
the media and not yet recycled, which a read still copies from the buffer and
GC looks through to the device address it is being written to. -/
theorem getReservedOldAddr2_eq (c : CacheState) (line nrb : Nat) (r : Bool) :
    pblkGetReservedOldAddr2 c (.cache line nrb r) =
      if ((c.rb nrb).entries (pblkRbWrapPos (c.rb nrb) line)).flags.written = false ∧
          ((c.rb nrb).entries (pblkRbWrapPos (c.rb nrb) line)).flags.submitted = true then
        ((c.rb nrb).entries (pblkRbWrapPos (c.rb nrb) line)).ppa
      else Device.pblkGetReservedOldAddr c (.cache line nrb r) := by
  simp only [pblkGetReservedOldAddr2, Device.pblkGetReservedOldAddr]
  by_cases written : ((c.rb nrb).entries (pblkRbWrapPos (c.rb nrb) line)).flags.written <;>
    by_cases submitted : ((c.rb nrb).entries (pblkRbWrapPos (c.rb nrb) line)).flags.submitted <;>
    simp [written, submitted]

theorem getReservedOldAddr2_setEntry {c : CacheState} {nrb pos : Nat} {w : WCtx}
    (before : keepsCacheline ((c.rb nrb).entries pos).flags = true) (after : keepsCacheline w.flags = true)
    (ppa : PpaAddr) :
    pblkGetReservedOldAddr2 (c.setRb nrb ((c.rb nrb).setEntry pos w)) ppa = pblkGetReservedOldAddr2 c ppa := by
  cases ppa with
  | empty => rfl
  | dev g => rfl
  | cache line nrb' r =>
    by_cases hit : nrb' = nrb ∧ pblkRbWrapPos (c.rb nrb) line = pos
    · obtain ⟨rfl, wrapped⟩ := hit
      have now : keepsCacheline (((c.setRb nrb' ((c.rb nrb').setEntry pos w)).rb nrb').entries
          (pblkRbWrapPos ((c.setRb nrb' ((c.rb nrb').setEntry pos w)).rb nrb') line)).flags = true := by
        simpa [pblkRbWrapPos, Rb.setEntry_entries, show line % (c.rb nrb').nrEntries = pos from wrapped] using after
      rw [getReservedOldAddr2_cacheline r now, getReservedOldAddr2_cacheline r (wrapped ▸ before)]
    · -- another entry is read, as it was
      have wrap : pblkRbWrapPos ((c.setRb nrb ((c.rb nrb).setEntry pos w)).rb nrb') line =
          pblkRbWrapPos (c.rb nrb') line := by
        by_cases other : nrb' = nrb
        · subst other
          simp [pblkRbWrapPos]
        · simp [other]
      have entry : ((c.setRb nrb ((c.rb nrb).setEntry pos w)).rb nrb').entries (pblkRbWrapPos (c.rb nrb') line) =
          (c.rb nrb').entries (pblkRbWrapPos (c.rb nrb') line) := by
        by_cases other : nrb' = nrb
        · subst other
          have moved : pblkRbWrapPos (c.rb nrb') line ≠ pos := fun eq => hit ⟨rfl, eq⟩
          simp [Rb.setEntry_entries, moved]
        · simp [other]
      simp only [pblkGetReservedOldAddr2, wrap, entry]

/-! ## The producer -/

variable (cfg : CacheConfig)

/-- `pblk_update_map_gc` under `CONFIG_PBLK_MULTIMAP`: `true` when the lba now
maps to its copy `ppa`. -/
def pblkUpdateMapGc (c : CacheState) (lba : Nat) (ppa : PpaAddr) (gcLine : Nat) :
    Except Fault (Bool × CacheState) := do
  -- an lba past the device is a corrupted request (`WARN`)
  if cfg.nrSecs ≤ lba then return (false, c)
  let (l2pPpa, s) ← pblkTransMapGet cfg.l2p c.pblk lba
  let c := c.withPblk s
  let l2pPpa := if pblkAddrInCache l2pPpa then pblkGetReservedOldAddr2 c l2pPpa else l2pPpa
  -- a newer write, an unmapped lba or data on another line keeps its mapping
  if pblkAddrInCache l2pPpa ∨ pblkPpaEmpty l2pPpa ∨ pblkTgtPpaToLine l2pPpa ≠ some gcLine then
    return (false, c)
  let pba := c.pblk.bmap (cfg.l2p.lsegOf lba)
  if cfg.l2p.nrLstream ≤ pba.lstream then throw .bug
  if (cfg.l2p.lstream pba.lstream).mapType = .block then return (false, c)
  let s ← pblkTransMapSet cfg.l2p c.pblk lba ppa
  pure (true, c.withPblk s)

def pblkRbWriteEntry (rb : Rb) (w : WCtx) (pos : Nat) : Rb :=
  rb.setEntry pos { rb.entries pos with lba := w.lba, ppa := w.ppa }

/-- The end of `pblk_rb_write_entry_gc`: a copy the map was not moved to is
padding, and the flags are released with `PBLK_WRITTEN_DATA`. -/
def gcReleaseEntry (rb : Rb) (pos : Nat) (flags : Flags) (moved : Bool) : Rb :=
  let entry := rb.entries pos
  rb.setEntry pos { entry with lba := if moved then entry.lba else addrEmpty, flags := { flags with written := true } }

/-- `pblk_rb_write_entry_gc`: the copy takes the entry, which keeps its lba
only if `pblk_update_map_gc` moved the lba there. -/
def pblkRbWriteEntryGc (c : CacheState) (nrb : Nat) (w : WCtx) (gcLine pos : Nat) : Except Fault CacheState := do
  if ((c.rb nrb).entries pos).flags.writable = false then throw .bug
  let c := c.setRb nrb (pblkRbWriteEntry (c.rb nrb) w pos)
  let (moved, c) ← if w.lba = addrEmpty then pure (false, c)
    else pblkUpdateMapGc cfg c w.lba (pblkCachelineToAddr pos nrb) gcLine
  pure (c.setRb nrb (gcReleaseEntry (c.rb nrb) pos w.flags moved))

/-- `pblk_rb_gc_data_to_rrwb`, for an lba whose segment is not sector-mapped:
`true` when the sector is to go to the GC buffer. A page that reserved an
entry for the sector while its old copy lies on the victim line takes the
copy in that entry. -/
def pblkRbGcDataToRrwb (c : CacheState) (lba gcLine : Nat) : Except Fault (Bool × CacheState) := do
  let (l2pPpa, s) ← pblkTransMapGet cfg.l2p c.pblk lba
  let c := c.withPblk s
  match l2pPpa with
  | .empty => pure (false, c)
  | .dev _ => pure (decide (pblkTgtPpaToLine l2pPpa = some gcLine), c)
  | .cache line nrb _ =>
      let pos := pblkRbWrapPos (c.rb nrb) line
      let entry := (c.rb nrb).entries pos
      let onVictim := !pblkAddrInCache entry.ppa && !pblkPpaEmpty entry.ppa &&
        decide (pblkTgtPpaToLine entry.ppa = some gcLine)
      if entry.flags.written then pure (false, c)
      else if entry.flags.invalidate then pure (false, c)
      else if entry.flags.reserved then
        if onVictim then
          let c := c.invalidate entry.ppa
          pure (false, c.setRb nrb ((c.rb nrb).setEntry pos
            { entry with ppa := .empty, flags := { entry.flags with written := true } }))
        else pure (false, c)
      else if entry.flags.waitread then
        if onVictim then do
          let c := c.invalidate entry.ppa
          let c ← c.updatePblk fun s => pblkCacheMapSet cfg.l2p s lba (pblkCachelineToAddr pos nrb)
          let entry := (c.rb nrb).entries pos
          pure (false, c.setRb nrb ((c.rb nrb).setEntry pos
            { entry with ppa := .empty, flags := { entry.flags with written := true, waitread := false } }))
        else pure (false, c)
      -- in flight: the copy is taken if the entry is being written from the victim line
      else if entry.flags.submitted then
        pure (!pblkPpaEmpty entry.ppa && decide (pblkTgtPpaToLine entry.ppa = some gcLine), c)
      else pure (false, c)

/-- The first loop of `pblk_write_gc_to_cache`: which lbas of the batch go to
the GC buffer (`copy_list`). A sector-mapped lba always does; for another,
`pblk_rb_gc_data_to_rrwb` decides. -/
def gcCopyList (c : CacheState) (gcLine : Nat) : List Nat → Except Fault (List Bool × CacheState)
  | [] => pure ([], c)
  | lba :: rest => do
      let (copy, c) ← if lba = addrEmpty then pure (false, c)
        else if (c.pblk.bmap (cfg.l2p.lsegOf lba)).map = .sector then pure (true, c)
        else pblkRbGcDataToRrwb cfg c lba gcLine
      let (copies, c) ← gcCopyList c gcLine rest
      pure (copy :: copies, c)

/-- `pblk_write_gc_to_cache` up to its `retry_sector:` label: a victim of a
block-mapped stream is a `BUG_ON`. -/
def writeGcToCachePrepare (c : CacheState) (lbaList : List Nat) (gcLine gcPstream : Nat) :
    Except Fault (List Bool × CacheState) := do
  if (cfg.l2p.lstream gcPstream).mapType = .block then throw .bug
  gcCopyList cfg c gcLine lbaList

def pblkRlGcIn (rl : RlPerRb) (nrEntries : Int) : RlPerRb := { rl with rbGcCnt := rl.rbGcCnt + nrEntries }

/-- `pblk_rb_may_write_gc`: the limiter's GC share, then room in the ring; the
entries recycled on the way update the map as on the user path. -/
def pblkRbMayWriteGc (c : CacheState) (rl : RateLimit.Rl) (userActive : Bool) (nrb nrEntries : Nat) :
    Except Fault (Option Nat × CacheState) := do
  if !RateLimit.pblkRlGcMayInsert rl (c.rl nrb).rbGcCnt userActive then return (none, c)
  match pblkRbMayWrite (c.rb nrb) nrEntries with
  | none => pure (none, c)
  | some (pos, rb, recycled) =>
      let c ← updateL2pRecycled cfg nrb (c.setRb nrb rb) recycled
      pure (some pos, c.setRl nrb (pblkRlGcIn (c.rl nrb) nrEntries))

def gcWCtx (lba : Nat) (flags : Flags) : WCtx :=
  { lba := lba, ppa := .empty, flags := flags, bios := [], submitFlags := {} }

/-- The second loop of `pblk_write_gc_to_cache`, from the position
`pblk_rb_may_write_gc` granted: the `k`-th copy goes to entry `bpos + k` of
the GC buffer. -/
def gcWriteLoop (c : CacheState) (gcLine bpos : Nat) (flags : Flags) :
    List (Nat × Bool) → Nat → Except Fault CacheState
  | [], _ => pure c
  | (lba, copy) :: rest, k =>
      if lba = addrEmpty ∨ copy = false then gcWriteLoop c gcLine bpos flags rest k
      else do
        let c ← pblkRbWriteEntryGc cfg c gcNrb (gcWCtx lba flags) gcLine
          (pblkRbWrapPos (c.rb gcNrb) (bpos + k))
        gcWriteLoop c gcLine bpos flags rest (k + 1)

def writeGcToCacheAt (c : CacheState) (rl : RateLimit.Rl) (userActive : Bool) (lbaList : List Nat)
    (copies : List Bool) (gcLine : Nat) (flags : Flags) : Except Fault (NvmIo × CacheState) := do
  let (granted, c) ← pblkRbMayWriteGc cfg c rl userActive gcNrb (copies.filter id).length
  match granted with
  | none => pure (.requeue, c)
  | some bpos => do
      let c ← gcWriteLoop cfg c gcLine bpos flags (lbaList.zip copies) 0
      pure (.ok, c)

def pblkWriteGcToCache (c : CacheState) (rl : RateLimit.Rl) (userActive : Bool) (lbaList : List Nat)
    (gcLine gcPstream : Nat) (flags : Flags) : Except Fault (NvmIo × CacheState) := do
  let (copies, c) ← writeGcToCachePrepare cfg c lbaList gcLine gcPstream
  writeGcToCacheAt cfg c rl userActive lbaList copies gcLine flags

/-! ## The abstract remap -/

/-- What a GC batch is meant to do to the map `m`: an lba whose data lies on
the victim line, as `c` reads it, moves to the entry of its copy; every other
mapping stays. `k` counts the copies already placed. -/
def gcRemap (c : CacheState) (gcLine bpos : Nat) : (Nat → PpaAddr) → List Nat → Nat → Nat → PpaAddr
  | m, [], _ => m
  | m, lba :: rest, k =>
      let target := pblkCachelineToAddr (pblkRbWrapPos (c.rb gcNrb) (bpos + k)) gcNrb
      gcRemap c gcLine bpos (if onGcLine c gcLine (m lba) then Function.update m lba target else m) rest (k + 1)

def gcCopied : List (Nat × Bool) → List Nat
  | [] => []
  | (lba, copy) :: rest => if lba = addrEmpty ∨ copy = false then gcCopied rest else lba :: gcCopied rest

section Remap

variable {c : CacheState} {gcLine bpos : Nat}

theorem onGcLine_cacheline {line nrb : Nat} (r : Bool)
    (keeps : keepsCacheline ((c.rb nrb).entries (pblkRbWrapPos (c.rb nrb) line)).flags = true) :
    onGcLine c gcLine (.cache line nrb r) = false := by
  simp [onGcLine, getReservedOldAddr2_cacheline r keeps, pblkTgtPpaToLine]

theorem gcRemap_of_not_mem {x : Nat} :
    ∀ (m : Nat → PpaAddr) (l : List Nat) (k : Nat), x ∉ l → gcRemap c gcLine bpos m l k x = m x
  | _, [], _, _ => rfl
  | m, lba :: rest, k, out => by
    have other : x ≠ lba := fun eq => out (eq ▸ List.mem_cons_self ..)
    rw [gcRemap, gcRemap_of_not_mem _ rest (k + 1) (fun mem => out (List.mem_cons_of_mem _ mem))]
    split_ifs <;> simp [Function.update_of_ne other]

theorem gcRemap_stays {x : Nat} :
    ∀ (m : Nat → PpaAddr) (l : List Nat) (k : Nat), onGcLine c gcLine (m x) = false →
      gcRemap c gcLine bpos m l k x = m x
  | _, [], _, _ => rfl
  | m, lba :: rest, k, away => by
    rw [gcRemap]
    -- the step leaves `x` where it was: it moves `lba` only, and `x` only if its data is away
    have kept : (if onGcLine c gcLine (m lba) then
        Function.update m lba (pblkCachelineToAddr (pblkRbWrapPos (c.rb gcNrb) (bpos + k)) gcNrb) else m) x = m x := by
      split_ifs with moved
      · have other : x ≠ lba := fun eq => by rw [eq] at away; simp [away] at moved
        exact Function.update_of_ne other ..
      · rfl
    rw [gcRemap_stays _ rest (k + 1) (kept ▸ away), kept]

theorem gcRemap_changed {x : Nat} :
    ∀ (m : Nat → PpaAddr) (l : List Nat) (k : Nat), gcRemap c gcLine bpos m l k x ≠ m x →
      onGcLine c gcLine (m x) = true
  | _, [], _, changed => absurd rfl changed
  | m, lba :: rest, k, changed => by
    rw [gcRemap] at changed
    by_cases moved : onGcLine c gcLine (m lba) = true
    · rw [if_pos moved] at changed
      by_cases hit : x = lba
      · exact hit ▸ moved
      · have same := Function.update_of_ne hit (pblkCachelineToAddr (pblkRbWrapPos (c.rb gcNrb) (bpos + k)) gcNrb) m
        rw [← same]
        exact gcRemap_changed _ rest (k + 1) (same ▸ changed)
    · rw [if_neg moved] at changed
      exact gcRemap_changed _ rest (k + 1) changed

theorem gcRemap_moves {x : Nat} :
    ∀ (m : Nat → PpaAddr) (l : List Nat) (k : Nat),
      (∀ j < l.length, keepsCacheline ((c.rb gcNrb).entries (pblkRbWrapPos (c.rb gcNrb) (bpos + (k + j)))).flags = true) →
      x ∈ l → onGcLine c gcLine (m x) = true → gcRemap c gcLine bpos m l k x ≠ m x
  | _, [], _, _, mem, _ => absurd mem (List.not_mem_nil)
  | m, lba :: rest, k, free, mem, on => by
    rw [gcRemap]
    have shifted : ∀ j < rest.length, keepsCacheline ((c.rb gcNrb).entries
        (pblkRbWrapPos (c.rb gcNrb) (bpos + (k + 1 + j)))).flags = true := fun j lt => by
      simpa [Nat.add_assoc, Nat.add_comm 1 j] using free (j + 1) (by simp; omega)
    by_cases hit : x = lba
    · subst hit
      rw [if_pos on]
      -- the copy's entry is free, so the lba cannot move again
      have target : keepsCacheline ((c.rb gcNrb).entries (pblkRbWrapPos (c.rb gcNrb)
          (pblkRbWrapPos (c.rb gcNrb) (bpos + k)))).flags = true := by
        simpa [pblkRbWrapPos] using free 0 (by simp)
      have away : onGcLine c gcLine (pblkCachelineToAddr (pblkRbWrapPos (c.rb gcNrb) (bpos + k)) gcNrb) = false :=
        onGcLine_cacheline false target
      rw [gcRemap_stays _ rest (k + 1) (by rw [Function.update_self]; exact away), Function.update_self]
      intro same
      rw [← same, away] at on
      exact Bool.false_ne_true on
    · have mem' : x ∈ rest := (List.mem_cons.mp mem).resolve_left hit
      by_cases moved : onGcLine c gcLine (m lba) = true
      · rw [if_pos moved]
        have same := Function.update_of_ne hit (pblkCachelineToAddr (pblkRbWrapPos (c.rb gcNrb) (bpos + k)) gcNrb) m
        rw [← same]
        exact gcRemap_moves _ rest (k + 1) shifted mem' (same ▸ on)
      · rw [if_neg moved]
        exact gcRemap_moves _ rest (k + 1) shifted mem' on

end Remap

/-! ## On the sector-mapped configuration -/

theorem refines_setRwb {l2p : Config} {s : Pblk} {m : Nat → PpaAddr} (inv : SectorRefines l2p s m)
    (nrb : Nat) (rb : Rb) : SectorRefines l2p (s.setRwb nrb rb) m :=
  ⟨inv.shape, inv.unmapped, inv.table, inv.apart, inv.lines, inv.charged⟩

theorem getReservedOldAddr2_congr {c c' : CacheState} (same : c'.rb = c.rb) (ppa : PpaAddr) :
    pblkGetReservedOldAddr2 c' ppa = pblkGetReservedOldAddr2 c ppa := by
  cases ppa <;> simp [pblkGetReservedOldAddr2, same]

/-- The three tests of `pblk_update_map_gc` are one: the data lies on the line. -/
theorem gcGuard_iff (ppa : PpaAddr) (gcLine : Nat) :
    (pblkAddrInCache ppa = true ∨ pblkPpaEmpty ppa = true ∨ pblkTgtPpaToLine ppa ≠ some gcLine) ↔
      pblkTgtPpaToLine ppa ≠ some gcLine := by
  cases ppa <;> simp [pblkTgtPpaToLine]

@[simp] theorem setRb_pblk (c : CacheState) (nrb : Nat) (rb : Rb) : (c.setRb nrb rb).pblk = c.pblk.setRwb nrb rb :=
  rfl

@[simp] theorem withPblk_pblk (c : CacheState) (s : Pblk) : (c.withPblk s).pblk = s := rfl

theorem withPblk_rb {c : CacheState} {s : Pblk} (same : s.rwb = c.pblk.rwb) : (c.withPblk s).rb = c.rb := by
  funext n
  simp [CacheState.rb, CacheState.withPblk, same]

theorem gcReleaseEntry_writeEntry (rb : Rb) (w : WCtx) (pos : Nat) (flags : Flags) (moved : Bool) :
    gcReleaseEntry (pblkRbWriteEntry rb w pos) pos flags moved = rb.setEntry pos { rb.entries pos with
      lba := if moved then w.lba else addrEmpty, ppa := w.ppa, flags := { flags with written := true } } := by
  simp [gcReleaseEntry, pblkRbWriteEntry, Rb.setEntry]

@[simp] theorem wrapPos_setEntry (rb : Rb) (pos : Nat) (w : WCtx) (x : Nat) :
    pblkRbWrapPos (rb.setEntry pos w) x = pblkRbWrapPos rb x := rfl

section Sector

variable {cfg} (conf : SectorConfig cfg.l2p)
include conf

variable {c : CacheState} {m : Nat → PpaAddr}

theorem updateMapGc_spec (inv : SectorRefines cfg.l2p c.pblk m) {lba : Nat} {ppa : PpaAddr}
    (ok : onLines cfg.l2p ppa = true) (valid : lba < cfg.nrSecs) (gcLine : Nat) :
    ∃ s, pblkUpdateMapGc cfg c lba ppa gcLine = .ok (onGcLine c gcLine (m lba), c.withPblk s) ∧
      s.rwb = c.pblk.rwb ∧
      SectorRefines cfg.l2p s (if onGcLine c gcLine (m lba) then Function.update m lba ppa else m) := by
  obtain ⟨s1, got, inv1⟩ := inv.transMapGet conf lba
  have rwb1 : s1.rwb = c.pblk.rwb := transMapGet_rwb got
  have resolve : pblkGetReservedOldAddr2 (c.withPblk s1) (m lba) = pblkGetReservedOldAddr2 c (m lba) :=
    getReservedOldAddr2_congr (by funext n; simp [CacheState.rb, CacheState.withPblk, rwb1]) _
  have inRange : ¬ cfg.nrSecs ≤ lba := Nat.not_le.mpr valid
  simp only [pblkUpdateMapGc, inRange, if_false, got, ok_bind, getReservedOldAddr2_of_cached, resolve,
    gcGuard_iff]
  by_cases on : onGcLine c gcLine (m lba) = true
  · -- on the victim line: the segment is sector-mapped, and the copy is stored
    have line : pblkTgtPpaToLine (pblkGetReservedOldAddr2 c (m lba)) = some gcLine := by
      simpa [onGcLine] using on
    obtain ⟨s2, set, inv2⟩ : ∃ s2, pblkTransMapSet cfg.l2p s1 lba ppa = .ok s2 ∧
        SectorRefines cfg.l2p s2 (Function.update m lba ppa) := inv1.transMapSet conf ok
    have streams : cfg.l2p.nrLstream ≠ 0 := Nat.pos_iff_ne_zero.mp conf.valid
    refine ⟨s2, ?_, by rw [transMapSet_rwb set, rwb1], by simpa [on] using inv2⟩
    simp [line, CacheState.withPblk, streams, inv1.lstream_zero, conf.sector, set, on]
  · have away : onGcLine c gcLine (m lba) = false := by simpa using on
    have line : pblkTgtPpaToLine (pblkGetReservedOldAddr2 c (m lba)) ≠ some gcLine := by
      simpa [onGcLine] using away
    refine ⟨s1, ?_, rwb1, by simpa [away] using inv1⟩
    simp [line, away]

theorem writeEntryGc_spec (inv : SectorRefines cfg.l2p c.pblk m) {nrb pos gcLine : Nat} {w : WCtx}
    (valid : w.lba < cfg.nrSecs) (writable : ((c.rb nrb).entries pos).flags.writable = true)
    (idle : keepsCacheline ((c.rb nrb).entries pos).flags = true) :
    ∃ c', pblkRbWriteEntryGc cfg c nrb w gcLine pos = .ok c' ∧
      c'.rb = (c.setRb nrb (gcReleaseEntry (pblkRbWriteEntry (c.rb nrb) w pos) pos w.flags
        (decide (w.lba ≠ addrEmpty) && onGcLine c gcLine (m w.lba)))).rb ∧
      SectorRefines cfg.l2p c'.pblk
        (if decide (w.lba ≠ addrEmpty) && onGcLine c gcLine (m w.lba) then
          Function.update m w.lba (pblkCachelineToAddr pos nrb) else m) := by
  have check : ¬ (((c.rb nrb).entries pos).flags.writable = false) := by simp [writable]
  set c1 := c.setRb nrb (pblkRbWriteEntry (c.rb nrb) w pos) with c1Def
  have inv1 : SectorRefines cfg.l2p c1.pblk m := refines_setRwb inv nrb _
  have raw : c1.rb nrb = pblkRbWriteEntry (c.rb nrb) w pos := by simp [c1Def]
  -- the raw copy keeps the entry's flags, so nothing reads through it differently
  have keep : ∀ ppa, pblkGetReservedOldAddr2 c1 ppa = pblkGetReservedOldAddr2 c ppa :=
    getReservedOldAddr2_setEntry idle idle
  have on1 : onGcLine c1 gcLine (m w.lba) = onGcLine c gcLine (m w.lba) := by
    simp only [onGcLine, keep]
  have below : ∀ rb, (c1.setRb nrb rb).rb = (c.setRb nrb rb).rb := fun rb => by
    funext n
    by_cases hit : n = nrb <;> simp [c1Def, hit]
  by_cases pad : w.lba = addrEmpty
  · refine ⟨c1.setRb nrb (gcReleaseEntry (c1.rb nrb) pos w.flags false), ?_, ?_, ?_⟩
    · simp [pblkRbWriteEntryGc, check, pad, c1Def]
    · simp [below, raw, pad]
    · simpa [pad] using refines_setRwb inv1 nrb (gcReleaseEntry (c1.rb nrb) pos w.flags false)
  · obtain ⟨s, update, rwbS, invS⟩ :=
      updateMapGc_spec conf inv1 (show onLines cfg.l2p (pblkCachelineToAddr pos nrb) = true from rfl) valid gcLine
    rw [on1] at update invS
    refine ⟨(c1.withPblk s).setRb nrb (gcReleaseEntry ((c1.withPblk s).rb nrb) pos w.flags
      (onGcLine c gcLine (m w.lba))), ?_, ?_, ?_⟩
    · simp only [pblkRbWriteEntryGc, check, if_false, pad, ← c1Def, update]
      rfl
    · have same : ∀ rb, ((c1.withPblk s).setRb nrb rb).rb = (c.setRb nrb rb).rb := fun rb => by
        rw [← below rb]
        funext n
        by_cases hit : n = nrb <;> simp [hit, withPblk_rb rwbS]
      simp [same, withPblk_rb rwbS, raw, pad]
    · simpa [pad] using refines_setRwb invS nrb _

/-- The write loop of a batch into free entries of the GC buffer refines
`gcRemap`, read against the buffers `c0` the loop started from. -/
theorem gcWriteLoop_spec {c0 : CacheState} {gcLine bpos : Nat} {flags : Flags} :
    ∀ (batch : List (Nat × Bool)) (c : CacheState) (m : Nat → PpaAddr) (k : Nat),
      SectorRefines cfg.l2p c.pblk m →
      (∀ ppa, pblkGetReservedOldAddr2 c ppa = pblkGetReservedOldAddr2 c0 ppa) →
      (c.rb gcNrb).nrEntries = (c0.rb gcNrb).nrEntries →
      (∀ x ∈ gcCopied batch, x < cfg.nrSecs) →
      (∀ j < (gcCopied batch).length,
        ((c.rb gcNrb).entries (pblkRbWrapPos (c.rb gcNrb) (bpos + (k + j)))).flags = .writableOnly) →
      (gcCopied batch).length ≤ (c.rb gcNrb).nrEntries →
      ∃ c', gcWriteLoop cfg c gcLine bpos flags batch k = .ok c' ∧
        SectorRefines cfg.l2p c'.pblk (gcRemap c0 gcLine bpos m (gcCopied batch) k)
  | [], c, _, _, inv, _, _, _, _, _ => ⟨c, rfl, inv⟩
  | (lba, copy) :: rest, c, m, k, inv, resolve, size, valid, free, room => by
    by_cases skip : lba = addrEmpty ∨ copy = false
    · have copied : gcCopied ((lba, copy) :: rest) = gcCopied rest := by simp [gcCopied, skip]
      rw [copied] at valid free room ⊢
      simpa [gcWriteLoop, skip] using gcWriteLoop_spec rest c m k inv resolve size valid free room
    have copied : gcCopied ((lba, copy) :: rest) = lba :: gcCopied rest := by simp [gcCopied, skip]
    rw [copied] at valid free room ⊢
    have notPad : lba ≠ addrEmpty := fun eq => skip (.inl eq)
    -- the copy goes to the first free entry
    have fresh := free 0 (by simp)
    simp only [Nat.add_zero] at fresh
    obtain ⟨c1, run, rb1, inv1⟩ := @writeEntryGc_spec cfg conf c m inv gcNrb (pblkRbWrapPos (c.rb gcNrb) (bpos + k))
      gcLine (gcWCtx lba flags) (valid lba (by simp)) (by rw [fresh]; rfl) (by rw [fresh]; rfl)
    have moved : (decide ((gcWCtx lba flags).lba ≠ addrEmpty) && onGcLine c gcLine (m (gcWCtx lba flags).lba)) =
        onGcLine c0 gcLine (m lba) := by
      simp [gcWCtx, notPad, onGcLine, resolve]
    rw [moved, gcReleaseEntry_writeEntry] at rb1
    rw [moved] at inv1
    -- the entries still to fill lie apart from this one
    have wrap : pblkRbWrapPos (c.rb gcNrb) (bpos + k) = pblkRbWrapPos (c0.rb gcNrb) (bpos + k) := by
      simp [pblkRbWrapPos, size]
    have resolve1 : ∀ ppa, pblkGetReservedOldAddr2 c1 ppa = pblkGetReservedOldAddr2 c0 ppa := fun ppa => by
      rw [getReservedOldAddr2_congr rb1, getReservedOldAddr2_setEntry (by rw [fresh]; rfl) (by simp [keepsCacheline]),
        resolve]
    have size1 : (c1.rb gcNrb).nrEntries = (c.rb gcNrb).nrEntries := by simp [rb1]
    have free1 : ∀ j < (gcCopied rest).length,
        ((c1.rb gcNrb).entries (pblkRbWrapPos (c1.rb gcNrb) (bpos + (k + 1 + j)))).flags = .writableOnly := by
      intro j lt
      have apart : pblkRbWrapPos (c.rb gcNrb) (bpos + (k + 1 + j)) ≠ pblkRbWrapPos (c.rb gcNrb) (bpos + k) := by
        have gap := wrap_add_ne (n := (c.rb gcNrb).nrEntries) (a := bpos + k) (d := 1 + j) (by omega)
          (by simp at room; omega)
        simpa [pblkRbWrapPos, Nat.add_assoc] using gap
      have later := free (j + 1) (by simp; omega)
      simp only [rb1, CacheState.setRb_rb, if_pos, wrapPos_setEntry, Rb.setEntry_entries, apart, if_false]
      simpa [Nat.add_assoc, Nat.add_comm 1 j] using later
    obtain ⟨c2, run2, inv2⟩ := gcWriteLoop_spec rest c1 _ (k + 1) inv1 resolve1 (size1.trans size)
      (fun x mem => valid x (List.mem_cons_of_mem _ mem)) free1 (by rw [size1]; simp at room; omega)
    refine ⟨c2, ?_, ?_⟩
    · simp only [gcWriteLoop, skip, if_false]
      rw [run, ok_bind, run2]
    · rw [gcRemap, ← wrap]
      exact inv2

end Sector

/-! ## GC never moves newer data -/

section Moves

variable {cfg}

/-- On the sector-mapped configuration `pblk_update_map_gc` never faults. It
answers whether the lba's data, read through the write-buffer entry its
cacheline names, lies on the victim line; a lookup afterwards finds the copy
for that lba exactly then, and every other mapping as it was. -/
theorem update_map_gc_moves_only_victim_data (conf : SectorConfig cfg.l2p) {c : CacheState} {m : Nat → PpaAddr}
    (inv : SectorRefines cfg.l2p c.pblk m) {lba : Nat} {ppa : PpaAddr} (ok : onLines cfg.l2p ppa = true)
    (valid : lba < cfg.nrSecs) (gcLine : Nat) :
    ∃ c', pblkUpdateMapGc cfg c lba ppa gcLine = .ok (onGcLine c gcLine (m lba), c') ∧ c'.rb = c.rb ∧
      ∀ x, ∃ s, pblkTransMapGet cfg.l2p c'.pblk x =
        .ok (if onGcLine c gcLine (m lba) = true ∧ x = lba then ppa else m x, s) := by
  obtain ⟨s, update, rwbS, invS⟩ := updateMapGc_spec conf inv ok valid gcLine
  refine ⟨c.withPblk s, update, withPblk_rb rwbS, fun x => ?_⟩
  obtain ⟨s', got, -⟩ := invS.transMapGet conf x
  refine ⟨s', ?_⟩
  rw [withPblk_pblk, got]
  -- the copy shows at the lba alone, and only when it moved
  by_cases on : onGcLine c gcLine (m lba) = true <;> by_cases hit : x = lba <;> simp [on, hit]

/-- Line 1 of `mixedConfig` holds lba 5 at sector 1; no other lba is mapped. -/
def victimMap : Nat → PpaAddr := Function.update (fun _ => .empty) 5 (.dev ⟨1, 0, 1, 0, 0, 0⟩)

def victimState : CacheState :=
  { cacheInit with pblk :=
      (pblkTransMapSet mixedConfig cacheInit.pblk 5 (.dev ⟨1, 0, 1, 0, 0, 0⟩)).toOption.getD cacheInit.pblk }

theorem victimState_refines : SectorRefines mixedConfig victimState.pblk victimMap ∧ victimState.rb = cacheInit.rb := by
  obtain ⟨s, set, inv⟩ : ∃ s, pblkTransMapSet mixedConfig cacheInit.pblk 5 (.dev ⟨1, 0, 1, 0, 0, 0⟩) = .ok s ∧
      SectorRefines mixedConfig s victimMap :=
    (refines_init mixedConfig fun nrb => pblkRbInit nrb 2).transMapSet mixedConfig_sector (by decide)
  have state : victimState.pblk = s := by simp [victimState, set, Except.toOption]
  refine ⟨state ▸ inv, ?_⟩
  funext nrb
  simp [CacheState.rb, state, transMapSet_rwb set]

/-- GC of line 1 moves lba 5 to its copy in entry 0 of the GC buffer. -/
theorem update_map_gc_moves_only_victim_data_line1 :
    SectorConfig flushConfig.l2p ∧ SectorRefines flushConfig.l2p victimState.pblk victimMap ∧
      ∃ c', pblkUpdateMapGc flushConfig victimState 5 (.cache 0 gcNrb false) 1 =
          .ok (onGcLine victimState 1 (victimMap 5), c') ∧ c'.rb = victimState.rb ∧
        ∀ x, ∃ s, pblkTransMapGet flushConfig.l2p c'.pblk x =
          .ok (if onGcLine victimState 1 (victimMap 5) = true ∧ x = 5 then .cache 0 gcNrb false else victimMap x, s) :=
  ⟨mixedConfig_sector, victimState_refines.1,
    update_map_gc_moves_only_victim_data mixedConfig_sector victimState_refines.1 rfl (by decide) 1⟩

/-- On the sector-mapped configuration, the write loop of
`pblk_write_gc_to_cache` into free entries of the GC buffer never faults; a
lookup afterwards finds the map `gcRemap` gives, which differs from the old
one exactly at the lbas of the batch whose data lay on the victim line. -/
theorem gc_write_moves_only_victim_data (conf : SectorConfig cfg.l2p) {c : CacheState} {m : Nat → PpaAddr}
    (inv : SectorRefines cfg.l2p c.pblk m) {batch : List (Nat × Bool)} {gcLine bpos : Nat} (flags : Flags)
    (valid : ∀ x ∈ gcCopied batch, x < cfg.nrSecs)
    (free : ∀ k < (gcCopied batch).length,
      ((c.rb gcNrb).entries (pblkRbWrapPos (c.rb gcNrb) (bpos + k))).flags = .writableOnly)
    (room : (gcCopied batch).length ≤ (c.rb gcNrb).nrEntries) :
    ∃ c', gcWriteLoop cfg c gcLine bpos flags batch 0 = .ok c' ∧
      ∀ x, (∃ s, pblkTransMapGet cfg.l2p c'.pblk x = .ok (gcRemap c gcLine bpos m (gcCopied batch) 0 x, s)) ∧
        (gcRemap c gcLine bpos m (gcCopied batch) 0 x ≠ m x ↔
          x ∈ gcCopied batch ∧ onGcLine c gcLine (m x) = true) := by
  obtain ⟨c', run, inv'⟩ := gcWriteLoop_spec conf batch c m 0 inv (fun _ => rfl) rfl valid
    (fun j lt => by simpa using free j lt) room
  refine ⟨c', run, fun x => ⟨?_, ?_, ?_⟩⟩
  · obtain ⟨s, got, -⟩ := inv'.transMapGet conf x
    exact ⟨s, got⟩
  · intro changed
    by_cases mem : x ∈ gcCopied batch
    · exact ⟨mem, gcRemap_changed m _ 0 changed⟩
    · exact absurd (gcRemap_of_not_mem m _ 0 mem) changed
  · rintro ⟨mem, on⟩
    exact gcRemap_moves m _ 0 (fun j lt => by rw [Nat.zero_add, free j lt]; rfl) mem on

/-- A batch of lba 5, on line 1, and lba 9, never written, into the first two
entries of the GC buffer: lba 5 moves to entry 0 and lba 9 keeps its empty
mapping. -/
theorem gc_write_moves_only_victim_data_pair :
    SectorConfig flushConfig.l2p ∧ SectorRefines flushConfig.l2p victimState.pblk victimMap ∧
      (∀ x ∈ gcCopied [(5, true), (9, true)], x < flushConfig.nrSecs) ∧
      (∀ k < (gcCopied [(5, true), (9, true)]).length,
        ((victimState.rb gcNrb).entries (pblkRbWrapPos (victimState.rb gcNrb) (0 + k))).flags = .writableOnly) ∧
      (gcCopied [(5, true), (9, true)]).length ≤ (victimState.rb gcNrb).nrEntries ∧
      ∃ c', gcWriteLoop flushConfig victimState 1 0 { gc := true } [(5, true), (9, true)] 0 = .ok c' ∧
        ∀ x, (∃ s, pblkTransMapGet flushConfig.l2p c'.pblk x =
            .ok (gcRemap victimState 1 0 victimMap (gcCopied [(5, true), (9, true)]) 0 x, s)) ∧
          (gcRemap victimState 1 0 victimMap (gcCopied [(5, true), (9, true)]) 0 x ≠ victimMap x ↔
            x ∈ gcCopied [(5, true), (9, true)] ∧ onGcLine victimState 1 (victimMap x) = true) := by
  have free : ∀ k < (gcCopied [(5, true), (9, true)]).length,
      ((victimState.rb gcNrb).entries (pblkRbWrapPos (victimState.rb gcNrb) (0 + k))).flags = .writableOnly := by
    rw [victimState_refines.2]
    decide
  have room : (gcCopied [(5, true), (9, true)]).length ≤ (victimState.rb gcNrb).nrEntries := by
    rw [victimState_refines.2]
    decide
  exact ⟨mixedConfig_sector, victimState_refines.1, by decide, free, room,
    gc_write_moves_only_victim_data mixedConfig_sector victimState_refines.1 { gc := true } (by decide) free room⟩

end Moves

end MStream.Gc
