import MStream.L2p.Set

/-!
Changing a segment's logical stream (`pblk_set_lstream`, reached from a
`SETSTREAM` request when `EXT4_TEST` is undefined). A segment never mapped
takes the new stream's map type with nothing in it. Otherwise, when the map
type changes, the new representation is built through lookups in the old one:
a sector map copies every address, taking back the device address a still
reserved or read-waiting write-buffer entry shadows; a page map is built page
by page by `pblk_setting_page_map`; a block map starts empty
(`pblk_empty_map_set`) once every address the segment held has been handed to
`pblk_map_invalidate`. The model returns those addresses, in call order, in
place of the constant `0` the function returns.
-/

namespace MStream.L2p

open Machine Address RingBuffer Dftl

variable (cfg : Config)

/-! ## Write-buffer entries a lookup found -/

def entryFlags (s : Pblk) (nrb line : Nat) : Flags :=
  ((s.rwb nrb).entries (pblkRbWrapPos (s.rwb nrb) line)).flags

/-- Take back the device address a write-buffer entry shadows (`w_ctx->ppa`):
the entry's `ppa` is emptied and its flags replaced. -/
def takeShadow (s : Pblk) (nrb line : Nat) (flags : Flags) : PpaAddr × Pblk :=
  let rb := s.rwb nrb
  let pos := pblkRbWrapPos rb line
  let w := rb.entries pos
  (w.ppa, s.setRwb nrb (rb.setEntry pos { w with ppa := .empty, flags := flags }))

def pblkCacheInvalidate (s : Pblk) (rPpa : PpaAddr) : PpaAddr × Pblk :=
  match rPpa with
  | .cache line nrb _ =>
      let flags := entryFlags s nrb line
      if flags.invalidate then (rPpa, s)
      -- a reserved entry keeps its `RESERVED` bit, a read-waiting one loses `WAITREAD`
      else if flags.reserved then takeShadow s nrb line { flags with invalidate := true }
      else if flags.waitread then
        takeShadow s nrb line { flags with waitread := false, invalidate := true }
      else (rPpa, s)
  | _ => (rPpa, s)

/-- The check of the copy loop of the `SECTOR_MAP` branch of `pblk_set_lstream`:
an entry not yet written or submitted, reserved or waiting for a read, gives
back its device address and is invalidated. -/
def sectorCopyShadow (s : Pblk) (copy : PpaAddr) : PpaAddr × Pblk :=
  match copy with
  | .cache line nrb _ =>
      let flags := entryFlags s nrb line
      if flags.invalidate ∨ flags.written ∨ flags.submitted then (copy, s)
      else if flags.reserved ∨ flags.waitread then
        takeShadow s nrb line { flags with reserved := false, waitread := false, invalidate := true }
      else (copy, s)
  | _ => (copy, s)

/-! ## Freeing and building representations -/

/-- The loop `vfree(pmap[i].pointer)` over the page logs of a page table. -/
def freePageLogs (pmap : Nat → PageEntry) (s : Pblk) : Except Fault Pblk :=
  List.foldlM (fun s i => if (pmap i).isCached then do s.free (← (pmap i).val.pointer?) else pure s)
    s (List.range cfg.pmapEntryNum)

/-- The tables a segment entry owns, freed before the entry is replaced. -/
def freeMap (s : Pblk) (pba : PbaAddr) : Except Fault Pblk :=
  match pba.map with
  | .sector => do s.free (← pba.val.pointer?)
  | .block => if pba.isCached then do s.free (← pba.val.pointer?) else pure s
  | .page => do
      let p ← pba.val.pointer?
      let s ← freePageLogs cfg (← s.pages p) s
      s.free p
  | .none => pure s

def pblkEmptyMapSet (s : Pblk) (lba : Nat) : Except Fault Pblk := do
  let lseg := cfg.lsegOf lba
  let pba := s.bmap lseg
  let s ← freeMap cfg s pba
  let s := s.withCmt (pblkDeleteCmt s.cmt lseg)
  let s := s.setBmap lseg { pba with map := .block, val := .empty, isCached := false }
  s.updateCmt fun cmt => pblkChangeMap cmt (segInfo cfg s lseg) lseg

/-- A `vzalloc`ed `struct pba_addr`: the union reads as page address zero. -/
def zeroEntry : PageEntry := { isCached := false, val := .page ⟨0, 0, 0, 0, 0⟩ }

/-- The loop of `pblk_setting_page_map` over `n` pages from page `index`:
an aligned page becomes one page entry, any other gets a log of its four
addresses. -/
def settingPageLoop (pmap start : Nat) : Pblk → Nat → Nat → Except Fault Pblk
  | s, _, 0 => pure s
  | s, index, n + 1 => do
      let (found, copy, s) ← pblkCheckPageAlign cfg s (start + 4 * index)
      let (entry, s) : PageEntry × Pblk :=
        if found then ({ isCached := false, val := alignedVal pageOfDev copy }, s)
        else
          let (log, s) := s.alloc (.ppas (fillTable copy))
          ({ isCached := true, val := .pointer log }, s)
      let s ← s.setPage pmap index entry
      settingPageLoop pmap start s (index + 1) n

def pblkSettingPageMap (s : Pblk) (lba : Nat) : Except Fault Pblk := do
  let lseg := cfg.lsegOf lba
  let pba := s.bmap lseg
  let (pmap, s) := s.alloc (.pages fun _ => zeroEntry)
  -- `for (i = 0; i < entry_num; i += 4, index++)`
  let s ← settingPageLoop cfg pmap (lseg * cfg.entryNum) s 0 ((cfg.entryNum + 3) / 4)
  let s ← match pba.map with
    | .sector | .block => freeMap cfg s pba
    | _ => pure s
  let isCached := if pba.map = .block then false else pba.isCached
  let s := s.setBmap lseg { pba with map := .page, isCached := isCached, val := .pointer pmap }
  s.updateCmt fun cmt => pblkChangeMap cmt (segInfo cfg s lseg) lseg

/-- The copy loop of the `SECTOR_MAP` branch of `pblk_set_lstream`:
`smap[i] = copy_ppa` for `n` offsets from `i`. -/
def sectorCopyLoop (smap start : Nat) : Pblk → Nat → Nat → Except Fault Pblk
  | s, _, 0 => pure s
  | s, i, n + 1 => do
      let (copy, s) ← pblkTransMapGet cfg s (start + i)
      let (copy, s) := sectorCopyShadow s copy
      let s ← s.setPpa smap i copy
      sectorCopyLoop smap start s (i + 1) n

/-- The loop of the `BLOCK_MAP` branch of `pblk_set_lstream` over `n` lbas from
`lba`, with the device addresses it invalidates. -/
def invalidateLoop : Pblk → Nat → Nat → Except Fault (List PpaAddr × Pblk)
  | s, _, 0 => pure ([], s)
  | s, lba, n + 1 => do
      let (ppa, s) ← pblkTransMapGet cfg s lba
      let (ppa, s) := if pblkAddrInCache ppa then pblkCacheInvalidate s ppa else (ppa, s)
      let (rest, s) ← invalidateLoop s (lba + 1) n
      pure (if !pblkAddrInCache ppa && !pblkPpaEmpty ppa then ppa :: rest else rest, s)

/-! ## pblk_set_lstream -/

/-- The `NONE_MAP` branch: the segment takes the stream's map type empty. -/
def setLstreamNone (s : Pblk) (lseg lstream : Nat) : Except Fault Pblk := do
  let pba := s.bmap lseg
  let type := (cfg.lstream lstream).mapType
  let (val, s) : PbaVal × Pblk := match type with
    | .sector =>
        let (smap, s) := s.alloc (.ppas fun _ => .empty)
        (.pointer smap, s)
    | .block => (.empty, s)
    -- the page table is built, but its pointer is never stored in the entry
    | .page => (pba.val, (s.alloc (.pages fun _ => { isCached := false, val := .empty })).2)
    | .none => (pba.val, s)
  let s := s.setBmap lseg { map := type, lstream := lstream, isCached := false, val := val }
  s.updateCmt fun cmt => pblkChangeMap cmt (segInfo cfg s lseg) lseg

/-- The `SECTOR_MAP` branch for a segment of another type. -/
def setLstreamSector (s : Pblk) (lseg : Nat) : Except Fault Pblk := do
  let pba := s.bmap lseg
  if pba.map = .sector then throw .bug
  let (smap, s) := s.alloc (.ppas fun _ => zeroPpa)
  let s ← sectorCopyLoop cfg smap (lseg * cfg.entryNum) s 0 cfg.entryNum
  let s ← match pba.map with
    | .page | .block => freeMap cfg s pba
    | _ => throw .bug
  let s := s.setBmap lseg { pba with map := .sector, isCached := false, val := .pointer smap }
  s.updateCmt fun cmt => pblkChangeMap cmt (segInfo cfg s lseg) lseg

def pblkSetLstream (s : Pblk) (lba lstream : Nat) : Except Fault (List PpaAddr × Pblk) := do
  let lseg := cfg.lsegOf lba
  let lstream := if cfg.nrLstream ≤ lstream then 0 else lstream
  if (s.bmap lseg).map = .none then
    pure ([], ← setLstreamNone cfg s lseg lstream)
  else do
    let new := (cfg.lstream lstream).mapType
    let old := (cfg.lstream (s.bmap lseg).lstream).mapType
    let (invalidated, s) ← match new with
      | .sector => if old = .sector then pure ([], s) else do pure ([], ← setLstreamSector cfg s lseg)
      | .block =>
          if old = .block then pure ([], s)
          else do
            let (invalidated, s) ← invalidateLoop cfg s (lseg * cfg.entryNum) cfg.entryNum
            pure (invalidated, ← pblkEmptyMapSet cfg s lba)
      | .page => if old = .page then pure ([], s) else do pure ([], ← pblkSettingPageMap cfg s lba)
      | .none => pure ([], s)
    pure (invalidated, s.setBmap lseg { s.bmap lseg with lstream := lstream })

/-! ## Runs of map operations -/

inductive L2pOp where
  | setLstream (lba lstream : Nat)
  | transMapSet (lba : Nat) (ppa : PpaAddr)
  | cacheMapSet (lba : Nat) (ppa : PpaAddr)
  | devMapSet (lba : Nat) (ppa : PpaAddr)

def l2pApply (s : Pblk) : L2pOp → Except Fault Pblk
  | .setLstream lba lstream => do pure (← pblkSetLstream cfg s lba lstream).2
  | .transMapSet lba ppa => pblkTransMapSet cfg s lba ppa
  | .cacheMapSet lba ppa => pblkCacheMapSet cfg s lba ppa
  | .devMapSet lba ppa => pblkDevMapSet cfg s lba ppa

def l2pRun : Pblk → List L2pOp → Except Fault Pblk
  | s, [] => .ok s
  | s, op :: rest => l2pApply cfg s op >>= fun s => l2pRun s rest

/-! ## A never-mapped segment moved to a page-mapped stream -/

variable {cfg}

theorem segInfo_unlinked_page {s : Pblk} {lseg : Nat}
    (page : (cfg.lstream (s.bmap lseg).lstream).mapType = .page) (never : (s.bmap lseg).val = .empty) :
    (segInfo cfg s lseg).mapType = .page ∧ (segInfo cfg s lseg).cachedPages = .error .wild := by
  simp [segInfo, cachedPagesOf, page, never, PbaVal.pointer?]

/-- On a segment `pblk_l2p_init` left `NONE_MAP` with `ADDR_EMPTY`, and which
the DFTL table has never charged, a change to a page-mapped stream never
returns: the entry is marked `PAGE_MAP` without the pointer to the page table
just built, and the `pblk_change_map` that follows reads the page table
through `ADDR_EMPTY`. -/
theorem set_lstream_page_table_unlinked {s : Pblk} {lba l : Nat}
    (unmapped : (s.bmap (cfg.lsegOf lba)).map = .none)
    (never : (s.bmap (cfg.lsegOf lba)).val = .empty)
    (absent : pblkSearchCmt s.cmt (cfg.lsegOf lba) = none)
    (valid : l < cfg.nrLstream) (page : (cfg.lstream l).mapType = .page) :
    pblkSetLstream cfg s lba l = .error .wild := by
  have kept : ¬ cfg.nrLstream ≤ l := Nat.not_le.mpr valid
  -- the entry stored by the `NONE_MAP` branch, in the state it is stored in
  let stored : Pblk := (s.alloc (.pages fun _ => { isCached := false, val := .empty })).2.setBmap
    (cfg.lsegOf lba) { map := .page, lstream := l, isCached := false, val := .empty }
  have seen : (segInfo cfg stored (cfg.lsegOf lba)).mapType = .page ∧
      (segInfo cfg stored (cfg.lsegOf lba)).cachedPages = .error .wild :=
    segInfo_unlinked_page (by simp [stored, page]) (by simp [stored])
  have charged : pblkChangeMap stored.cmt (segInfo cfg stored (cfg.lsegOf lba)) (cfg.lsegOf lba) =
      .error .wild := changeMap_page_reads_table seen.1 absent seen.2
  have unlinked : setLstreamNone cfg s (cfg.lsegOf lba) l = .error .wild := by
    simp only [setLstreamNone, page, never]
    exact Pblk.updateCmt_error _ charged
  simp [pblkSetLstream, kept, unmapped, unlinked]

/-- Four-sector pages (`pln_offset = 2`) on lines of 32 sectors, 4 lines. -/
def mixedFormat : AddrFormat :=
  { secLen := 2, plnLen := 0, chLen := 0, lunLen := 1, pgLen := 2, blkLen := 2 }

/-- A stream table with a stream of each map type: 0 sector-mapped, 1
block-mapped (`log_size = entry_num`, `map_size = 1`, as `pblk_l2p_init` sets
up block-mapped streams) and 2 page-mapped. -/
def mixedConfig : Config where
  ppaf := mixedFormat
  nrLines := 4
  nrLstream := 3
  lstream := fun i =>
    if i = 1 then { mapType := .block, mapSize := 1, logSize := 32 }
    else if i = 2 then { mapType := .page, mapSize := 32, logSize := 0 }
    else { mapType := .sector, mapSize := 32, logSize := 0 }

theorem set_lstream_page_table_unlinked_at_init :
    pblkSetLstream mixedConfig (pblkL2pInit fun nrb => pblkRbInit nrb 2) 0 2 = .error .wild :=
  set_lstream_page_table_unlinked rfl rfl rfl (by decide) rfl

/-! ## No page maps on a table without page-mapped streams

A stream change gives a segment the new stream's map type, and the lookups,
shadow takes and frees of the rebuild leave the segment entries alone. -/

section NoPage

variable {s s' : Pblk}

theorem cacheInvalidate_bmap (rPpa : PpaAddr) : (pblkCacheInvalidate s rPpa).2.bmap = s.bmap := by
  unfold pblkCacheInvalidate
  split
  · dsimp only
    split_ifs <;> rfl
  · rfl

theorem sectorCopyShadow_bmap (copy : PpaAddr) : (sectorCopyShadow s copy).2.bmap = s.bmap := by
  unfold sectorCopyShadow
  split
  · dsimp only
    split_ifs <;> rfl
  · rfl

theorem sectorCopyLoop_bmap {smap start i n : Nat} (copied : sectorCopyLoop cfg smap start s i n = .ok s') :
    s'.bmap = s.bmap := by
  induction n generalizing s i with
  | zero =>
    simp only [sectorCopyLoop, pure_eq_ok] at copied
    rw [copied]
  | succ n ih =>
    simp only [sectorCopyLoop] at copied
    obtain ⟨⟨copy, mid⟩, got, rest⟩ := bind_eq_ok.mp copied
    have shadow := sectorCopyShadow_bmap (s := mid) copy
    generalize sectorCopyShadow mid copy = taken at rest shadow
    obtain ⟨copy', mid'⟩ := taken
    obtain ⟨stored, store, rest⟩ := bind_eq_ok.mp rest
    rw [ih rest, Pblk.setPpa_bmap _ store, shadow, transMapGet_bmap got]

theorem invalidateLoop_bmap {lba n : Nat} {invalidated : List PpaAddr}
    (ran : invalidateLoop cfg s lba n = .ok (invalidated, s')) : s'.bmap = s.bmap := by
  induction n generalizing s lba invalidated with
  | zero =>
    simp only [invalidateLoop, pure_eq_ok, Prod.mk.injEq] at ran
    rw [← ran.2]
  | succ n ih =>
    simp only [invalidateLoop] at ran
    obtain ⟨⟨ppa, mid⟩, got, rest⟩ := bind_eq_ok.mp ran
    obtain ⟨⟨tail, last⟩, loop, done⟩ := bind_eq_ok.mp rest
    simp only [pure_eq_ok, Prod.mk.injEq] at done
    obtain ⟨-, rfl⟩ := done
    -- a cached address is invalidated through its entry, which is in a buffer
    have shadow : (if pblkAddrInCache ppa then pblkCacheInvalidate mid ppa else (ppa, mid)).2.bmap = mid.bmap := by
      split
      · exact cacheInvalidate_bmap ppa
      · rfl
    rw [ih loop, shadow, transMapGet_bmap got]

theorem freePageLogs_bmap {pmap : Nat → PageEntry} (freed : freePageLogs cfg pmap s = .ok s') : s'.bmap = s.bmap := by
  refine foldlM_rel (r := fun a b : Pblk => b.bmap = a.bmap) (fun _ => rfl)
    (fun first second => second.trans first) (fun a i b step => ?_) _ s s' freed
  split at step
  · obtain ⟨p, -, free⟩ := bind_eq_ok.mp step
    exact Pblk.free_bmap _ free
  · rw [← pure_eq_ok.mp step]

theorem freeMap_bmap {pba : PbaAddr} (freed : freeMap cfg s pba = .ok s') : s'.bmap = s.bmap := by
  unfold freeMap at freed
  split at freed
  · obtain ⟨p, -, free⟩ := bind_eq_ok.mp freed
    exact Pblk.free_bmap _ free
  · split at freed
    · obtain ⟨p, -, free⟩ := bind_eq_ok.mp freed
      exact Pblk.free_bmap _ free
    · rw [← pure_eq_ok.mp freed]
  · obtain ⟨p, -, rest⟩ := bind_eq_ok.mp freed
    obtain ⟨pmap, -, rest⟩ := bind_eq_ok.mp rest
    obtain ⟨mid, logs, free⟩ := bind_eq_ok.mp rest
    rw [Pblk.free_bmap _ free, freePageLogs_bmap logs]
  · rw [← pure_eq_ok.mp freed]

theorem NoPageSegments.store {t : Pblk} {lseg : Nat} {pba : PbaAddr} {f : CmtMgt → Except Fault CmtMgt}
    (charged : (t.setBmap lseg pba).updateCmt f = .ok s') (flat : NoPageSegments s) (same : t.bmap = s.bmap)
    (map : pba.map ≠ .page) : NoPageSegments s' :=
  (NoPageSegments.setBmap (flat.of_bmap same) map).of_bmap (Pblk.updateCmt_bmap _ charged)

theorem emptyMapSet_noPage (flat : NoPageSegments s) {lba : Nat} (set : pblkEmptyMapSet cfg s lba = .ok s') :
    NoPageSegments s' := by
  unfold pblkEmptyMapSet at set
  obtain ⟨freed, free, rest⟩ := bind_eq_ok.mp set
  dsimp only at rest
  -- the segment is left block-mapped and empty
  exact NoPageSegments.store rest flat (by rw [Pblk.withCmt_bmap, freeMap_bmap free]) (by simp)

theorem setLstreamNone_noPage (streams : NoPageStreams cfg) (flat : NoPageSegments s) {lseg l : Nat}
    (set : setLstreamNone cfg s lseg l = .ok s') : NoPageSegments s' := by
  unfold setLstreamNone at set
  -- the entry takes the stream's map type, which is not `PAGE_MAP`
  have typed := streams l
  cases kind : (cfg.lstream l).mapType with
  | page => exact absurd kind typed
  | sector | block | none =>
    simp only [kind] at set
    exact NoPageSegments.store set flat rfl (by simp)

theorem setLstreamSector_noPage (flat : NoPageSegments s) {lseg : Nat} (set : setLstreamSector cfg s lseg = .ok s') :
    NoPageSegments s' := by
  unfold setLstreamSector at set
  dsimp only at set
  split at set
  · cases set
  obtain ⟨copied, copy, rest⟩ := bind_eq_ok.mp set
  -- the copy and the free of the old representation leave the entries alone
  split at rest
  all_goals first
    | (obtain ⟨freed, free, charged⟩ := bind_eq_ok.mp rest
       exact NoPageSegments.store charged flat (by rw [freeMap_bmap free, sectorCopyLoop_bmap copy]; rfl) (by simp))
    | simp at rest

theorem NoPageSegments.relabel (flat : NoPageSegments s) (lseg l : Nat) :
    NoPageSegments (s.setBmap lseg { s.bmap lseg with lstream := l }) :=
  NoPageSegments.setBmap flat (flat lseg)

theorem setLstream_noPage (streams : NoPageStreams cfg) (flat : NoPageSegments s) {lba l : Nat}
    {invalidated : List PpaAddr} (set : pblkSetLstream cfg s lba l = .ok (invalidated, s')) : NoPageSegments s' := by
  unfold pblkSetLstream at set
  dsimp only at set
  split at set
  · obtain ⟨t, made, done⟩ := bind_eq_ok.mp set
    simp only [pure_eq_ok, Prod.mk.injEq] at done
    rw [← done.2]
    exact setLstreamNone_noPage streams flat made
  -- one case per map type of the new stream; an unchanged type keeps the representation
  split at set
  · split at set
    · simp only [pure_bind, pure_eq_ok, Prod.mk.injEq] at set
      rw [← set.2]
      exact flat.relabel _ _
    · obtain ⟨t, made, rest⟩ := bind_eq_ok.mp set
      simp only [pure_bind, pure_eq_ok, Prod.mk.injEq] at rest
      rw [← rest.2]
      exact (setLstreamSector_noPage flat made).relabel _ _
  · split at set
    · simp only [pure_bind, pure_eq_ok, Prod.mk.injEq] at set
      rw [← set.2]
      exact flat.relabel _ _
    · obtain ⟨⟨handed, u⟩, loop, rest⟩ := bind_eq_ok.mp set
      obtain ⟨t, emptied, rest⟩ := bind_eq_ok.mp rest
      simp only [pure_bind, pure_eq_ok, Prod.mk.injEq] at rest
      rw [← rest.2]
      exact (emptyMapSet_noPage (flat.of_bmap (invalidateLoop_bmap loop)) emptied).relabel _ _
  · next page => exact absurd page (streams _)
  · simp only [pure_bind, pure_eq_ok, Prod.mk.injEq] at set
    rw [← set.2]
    exact flat.relabel _ _

theorem l2pApply_noPage (streams : NoPageStreams cfg) (flat : NoPageSegments s) {op : L2pOp}
    (applied : l2pApply cfg s op = .ok s') : NoPageSegments s' := by
  cases op with
  | setLstream lba l =>
    obtain ⟨⟨invalidated, t⟩, set, done⟩ := bind_eq_ok.mp applied
    rw [← pure_eq_ok.mp done]
    exact setLstream_noPage streams flat set
  | transMapSet lba ppa => exact transMapSet_noPage streams flat applied
  | cacheMapSet lba ppa => exact cacheMapSet_noPage streams flat applied
  | devMapSet lba ppa => exact devMapSet_noPage streams flat applied

/-- On a stream table without page-mapped streams, every run of map
operations keeps every segment off `PAGE_MAP`, from `pblk_l2p_init` on. -/
theorem NoPageSegments.l2pRun (streams : NoPageStreams cfg) (flat : NoPageSegments s) (ops : List L2pOp)
    (ran : l2pRun cfg s ops = .ok s') : NoPageSegments s' := by
  induction ops generalizing s with
  | nil =>
    simp only [MStream.L2p.l2pRun, Except.ok.injEq] at ran
    exact ran ▸ flat
  | cons op rest ih =>
    obtain ⟨t, applied, ran⟩ := bind_eq_ok.mp ran
    exact ih (l2pApply_noPage streams flat applied) ran

end NoPage

end MStream.L2p
