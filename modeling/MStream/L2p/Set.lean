import MStream.L2p.Get

/-!
The three writers of the L2P table (pblk.h): `pblk_cache_map_set` points an
lba at a write-buffer entry, `pblk_dev_map_set` moves it to the device address
the entry was written to, and `pblk_trans_map_set` stores any address (GC,
discards, the write path of pblk-core.c).

A block-mapped segment needs a per-sector log while its block is being
written; the log is created by a cache write at offset 8, the first data
sector of a line, and folded back into one block number when the device
update of the last data sector (offset `entry_num - 17`) finds sector 8 on the
same line. A page-mapped segment gives a page a four-sector log when one of
its sectors is written, and collapses it back into one page entry when the
last sector is written and `pblk_check_page_align` finds the page empty or
consecutive. The log creations and the page collapse are shared by the
writers; the two block-log collapses and the two ways a collapsed page is
written differ between writers and keep their own bodies.
-/

namespace MStream.L2p

open Machine Address Dftl

variable (cfg : Config)

/-- The log of a block-mapped segment, created on its first write in the
window: `vzalloc`, copy the segment's addresses through the lookup, charge it
with `pblk_alloc_log` and store the pointer with `m.is_cached` set. -/
def blockLogCreate (s : Pblk) (lba : Nat) (pba : PbaAddr) : Except Fault (Nat × PbaAddr × Pblk) := do
  let lseg := cfg.lsegOf lba
  let (log, s) := s.alloc (.ppas fun _ => zeroPpa)
  let (copies, s) ← readRange cfg s (lba - cfg.loffOf lba) cfg.entryNum
  let s := s.setTable log (.ppas (fillTable copies))
  let s ← s.updateCmt fun cmt => pblkAllocLog cmt (segInfo cfg s lseg) lseg .block cfg.entryNum
  let pba := { pba with isCached := true, val := .pointer log }
  pure (log, pba, s.setBmap lseg pba)

/-- The log of a page held by one page-table entry: `vzalloc`, charge it with
`pblk_alloc_log`, copy the page's addresses through the lookup and store the
pointer in the page table with `m.is_cached` set. -/
def pageLogCreate (s : Pblk) (lba pmap : Nat) : Except Fault (Nat × Pblk) := do
  let lseg := cfg.lsegOf lba
  let (log, s) := s.alloc (.ppas fun _ => zeroPpa)
  let s ← s.updateCmt fun cmt => pblkAllocLog cmt (segInfo cfg s lseg) lseg .page cfg.logEntryNum
  let (copies, s) ← readRange cfg s (lba - cfg.poffsetOf lba) cfg.logEntryNum
  let s := s.setTable log (.ppas (fillTable copies))
  let s ← s.setPage pmap (cfg.pindexOf lba) { isCached := true, val := .pointer log }
  pure (log, s)

/-- The page entry of a page `pblk_check_page_align` accepted: all four sectors
empty, or on the device from the first one's page on. -/
def alignedVal (pageOf : DevAddr → PageAddr) (copy : List PpaAddr) : PbaVal :=
  match copy.getD 0 zeroPpa with
  | .dev g => .page (pageOf g)
  | _ => .empty

/-- The collapse of a page log back into one page-table entry when
`pblk_check_page_align` accepts the page; `pageOf` is how the writer fills
the entry's page address from the first sector's device address. -/
def pageLogCollapse (s : Pblk) (lba pmap log : Nat) (pageOf : DevAddr → PageAddr) :
    Except Fault Pblk := do
  let lseg := cfg.lsegOf lba
  let (aligned, copy, s) ← pblkCheckPageAlign cfg s (lba - cfg.poffsetOf lba)
  if aligned then do
    let s ← s.updateCmt fun cmt => pblkFreeLog cmt (segInfo cfg s lseg) lseg .page cfg.logEntryNum
    let s ← s.free log
    s.setPage pmap (cfg.pindexOf lba) { isCached := false, val := alignedVal pageOf copy }
  else pure s

/-- The page address `pblk_dev_map_set` and `pblk_setting_page_map` write. -/
def pageOfDev (g : DevAddr) : PageAddr := { blk := g.blk, pg := g.pg, lun := g.lun, ch := g.ch, pl := g.pl }

/-- The page address `pblk_trans_map_set` writes: `page_addr.b.pg =
copy_ppa[0].g.blk`. -/
def pageOfDevTransMapSet (g : DevAddr) : PageAddr :=
  { blk := g.blk, pg := g.blk, lun := g.lun, ch := g.ch, pl := g.pl }

/-! ## pblk_trans_map_set -/

def transMapSetBlock (s : Pblk) (lba : Nat) (ppa : PpaAddr) (pba : PbaAddr) : Except Fault Pblk := do
  let lseg := cfg.lsegOf lba
  let loff := cfg.loffOf lba
  -- `loff < 8 || loff >= entry_num - 16`: outside the window, nothing is stored
  if loff < 8 ∨ cfg.entryNum ≤ loff + 16 then pure s
  else do
    let (log, pba, s) ← (if pba.isCached then do pure ((← pba.val.pointer?), pba, s)
      else blockLogCreate cfg s lba pba)
    let s ← s.setPpa log loff ppa
    if loff + 17 = cfg.entryNum then do
      let bmtlog ← s.ppas log
      -- first and last sector empty: the log is dropped, whatever it holds between
      if bmtlog 8 = .empty ∧ bmtlog loff = .empty then do
        let s ← s.updateCmt fun cmt => pblkFreeLog cmt (segInfo cfg s lseg) lseg .block cfg.entryNum
        let s ← s.free log
        pure (s.setBmap lseg { pba with isCached := false, val := .empty })
      else pure s
    else pure s

def transMapSetPage (s : Pblk) (lba : Nat) (ppa : PpaAddr) (pba : PbaAddr) : Except Fault Pblk := do
  let lseg := cfg.lsegOf lba
  if pba.map ≠ .page then throw .bug
  let pmap ← (s.bmap lseg).val.pointer?
  let entry := (← s.pages pmap) (cfg.pindexOf lba)
  let (log, s) ← (if entry.isCached then do pure ((← entry.val.pointer?), s)
    else pageLogCreate cfg s lba pmap)
  let s ← s.setPpa log (cfg.poffsetOf lba) ppa
  if cfg.poffsetOf lba + 1 = cfg.logEntryNum ∧ pblkAddrInCache ppa = false then
    pageLogCollapse cfg s lba pmap log pageOfDevTransMapSet
  else pure s

def pblkTransMapSet (s : Pblk) (lba : Nat) (ppa : PpaAddr) : Except Fault Pblk := do
  let lseg := cfg.lsegOf lba
  -- a segment never mapped gets a sector map of empty entries, in stream 0
  let (pba, s) ← (if (s.bmap lseg).map = .none then do
      let (smap, s) := s.alloc (.ppas fun _ => .empty)
      let pba : PbaAddr := { map := .sector, lstream := 0, isCached := false, val := .pointer smap }
      let s := s.setBmap lseg pba
      let s ← s.updateCmt fun cmt => pblkChangeMap cmt (segInfo cfg s lseg) lseg
      pure (pba, s)
    else pure (s.bmap lseg, s))
  let s ← s.updateCmt fun cmt => pblkLoadCmt cmt (segInfo cfg s lseg) lseg true
  if cfg.nrLstream ≤ pba.lstream then throw .bug
  match (cfg.lstream pba.lstream).mapType with
  | .sector =>
      if pba.map ≠ .sector then throw .bug
      s.setPpa (← pba.val.pointer?) (cfg.loffOf lba) ppa
  | .block => transMapSetBlock cfg s lba ppa pba
  | .page => transMapSetPage cfg s lba ppa pba
  | .none => throw .bug

/-! ## pblk_cache_map_set -/

def pblkCacheMapSet (s : Pblk) (lba : Nat) (ppa : PpaAddr) : Except Fault Pblk := do
  let lseg := cfg.lsegOf lba
  let loff := cfg.loffOf lba
  let pba := s.bmap lseg
  if pba.map = .none then do
    -- a segment never mapped gets a sector map holding only this address
    let (smap, s) := s.alloc (.ppas fun _ => zeroPpa)
    let s ← s.updateCmt fun cmt => pblkChangeMap cmt (segInfo cfg s lseg) lseg
    let s := s.setTable smap (.ppas (Function.update (fun _ => .empty) loff ppa))
    pure (s.setBmap lseg { map := .sector, lstream := 0, isCached := false, val := .pointer smap })
  else do
    let s ← s.updateCmt fun cmt => pblkLoadCmt cmt (segInfo cfg s lseg) lseg true
    if cfg.nrLstream ≤ pba.lstream then throw .bug
    match (cfg.lstream pba.lstream).mapType with
    | .sector =>
        if pba.map ≠ .sector then throw .bug
        s.setPpa (← pba.val.pointer?) loff ppa
    | .block => do
        -- no window check: a log, once there, takes a cacheline at any offset
        let (log, s) ← (if pba.isCached then do pure ((← pba.val.pointer?), s)
          else if loff ≠ 8 then throw .bug
          else do
            let (log, _, s) ← blockLogCreate cfg s lba pba
            pure (log, s))
        s.setPpa log loff ppa
    | .page => do
        if pba.map ≠ .page then throw .bug
        let pmap ← (s.bmap lseg).val.pointer?
        let entry := (← s.pages pmap) (cfg.pindexOf lba)
        let (log, s) ← (if entry.isCached then do pure ((← entry.val.pointer?), s)
          else pageLogCreate cfg s lba pmap)
        s.setPpa log (cfg.poffsetOf lba) ppa
    | .none => pure s

/-! ## pblk_dev_map_set -/

def devMapSetBlock (s : Pblk) (lba : Nat) (ppa : PpaAddr) (pba : PbaAddr) : Except Fault Pblk := do
  let lseg := cfg.lsegOf lba
  let loff := cfg.loffOf lba
  let g ← match ppa with
    | .dev g => pure g
    | _ => throw .wild
  -- the sector must land at the lba's own offset in the line
  if loff ≠ pblkDevPpaToLineAddr cfg.ppaf g then throw .bug
  if pba.isCached = false then throw .bug
  let log ← pba.val.pointer?
  let s ← s.setPpa log loff ppa
  if loff + 17 = cfg.entryNum then do
    let bmtlog ← s.ppas log
    -- sector 8 on the device, on the same line: the log folds into the line's number
    if pblkAddrInCache (bmtlog 8) = false ∧ pblkPpaEmpty (bmtlog 8) = false ∧
        pblkTgtPpaToLine (bmtlog 8) = pblkTgtPpaToLine (bmtlog loff) then do
      let s ← s.updateCmt fun cmt => pblkFreeLog cmt (segInfo cfg s lseg) lseg .block cfg.entryNum
      let s ← s.free log
      pure (s.setBmap lseg { pba with isCached := false, val := .page ⟨g.blk, 0, 0, 0, 0⟩ })
    else pure s
  else if cfg.entryNum < loff + 17 then throw .bug
  else pure s

def devMapSetPage (s : Pblk) (lba : Nat) (ppa : PpaAddr) (pba : PbaAddr) : Except Fault Pblk := do
  let lseg := cfg.lsegOf lba
  if pba.map ≠ .page then throw .bug
  let pmap ← (s.bmap lseg).val.pointer?
  let entry := (← s.pages pmap) (cfg.pindexOf lba)
  if entry.isCached = false then throw .bug
  let log ← entry.val.pointer?
  let s ← s.setPpa log (cfg.poffsetOf lba) ppa
  if cfg.poffsetOf lba + 1 = cfg.logEntryNum then
    pageLogCollapse cfg s lba pmap log pageOfDev
  else pure s

def pblkDevMapSet (s : Pblk) (lba : Nat) (ppa : PpaAddr) : Except Fault Pblk := do
  let lseg := cfg.lsegOf lba
  let pba := s.bmap lseg
  if cfg.nrLstream ≤ pba.lstream then throw .bug
  let s ← s.updateCmt fun cmt => pblkLoadCmt cmt (segInfo cfg s lseg) lseg true
  match (cfg.lstream pba.lstream).mapType with
  | .sector =>
      if pba.map ≠ .sector then throw .bug
      s.setPpa (← pba.val.pointer?) (cfg.loffOf lba) ppa
  | .block => devMapSetBlock cfg s lba ppa pba
  | .page => devMapSetPage cfg s lba ppa pba
  | .none => pure s

/-! ## The writers leave the write buffers alone

Each writer changes the segment table, the heap and the DFTL table only; the
write-path proofs use this to follow a buffer's pointers across map updates. -/

section Rwb

variable {cfg} {s s' : Pblk} {lba : Nat}

theorem blockLogCreate_rwb {pba pba' : PbaAddr} {log : Nat}
    (made : blockLogCreate cfg s lba pba = .ok (log, pba', s')) : s'.rwb = s.rwb := by
  obtain ⟨⟨copies, mid⟩, read, rest⟩ := bind_eq_ok.mp made
  obtain ⟨charged, charge, done⟩ := bind_eq_ok.mp rest
  simp only [pure_eq_ok, Prod.mk.injEq] at done
  obtain ⟨-, -, rfl⟩ := done
  rw [Pblk.setBmap_rwb, Pblk.updateCmt_rwb _ charge, Pblk.setTable_rwb, readRange_rwb read]

theorem pageLogCreate_rwb {pmap log : Nat} (made : pageLogCreate cfg s lba pmap = .ok (log, s')) :
    s'.rwb = s.rwb := by
  obtain ⟨charged, charge, rest⟩ := bind_eq_ok.mp made
  obtain ⟨⟨copies, mid⟩, read, rest⟩ := bind_eq_ok.mp rest
  obtain ⟨stored, store, done⟩ := bind_eq_ok.mp rest
  simp only [pure_eq_ok, Prod.mk.injEq] at done
  obtain ⟨-, rfl⟩ := done
  rw [Pblk.setPage_rwb _ store, Pblk.setTable_rwb, readRange_rwb read, Pblk.updateCmt_rwb _ charge]

theorem pageLogCollapse_rwb {pmap log : Nat} {pageOf : DevAddr → PageAddr}
    (folded : pageLogCollapse cfg s lba pmap log pageOf = .ok s') : s'.rwb = s.rwb := by
  obtain ⟨⟨aligned, copy, mid⟩, checked, rest⟩ := bind_eq_ok.mp folded
  have kept := checkPageAlign_rwb checked
  dsimp only at rest
  split at rest
  · obtain ⟨charged, charge, rest⟩ := bind_eq_ok.mp rest
    obtain ⟨freed, free, store⟩ := bind_eq_ok.mp rest
    rw [Pblk.setPage_rwb _ store, Pblk.free_rwb _ free, Pblk.updateCmt_rwb _ charge, kept]
  · rw [← pure_eq_ok.mp rest, kept]

theorem pointer_pair_rwb {v : PbaVal} {log : Nat} {mid : Pblk}
    (found : (do pure ((← v.pointer?), s) : Except Fault (Nat × Pblk)) = .ok (log, mid)) : mid.rwb = s.rwb := by
  obtain ⟨p, -, done⟩ := bind_eq_ok.mp found
  simp only [pure_eq_ok, Prod.mk.injEq] at done
  rw [← done.2]

theorem cacheMapSet_rwb {ppa : PpaAddr} (set : pblkCacheMapSet cfg s lba ppa = .ok s') : s'.rwb = s.rwb := by
  unfold pblkCacheMapSet at set
  dsimp only at set
  split at set
  · -- a segment never mapped
    obtain ⟨charged, charge, done⟩ := bind_eq_ok.mp set
    rw [← pure_eq_ok.mp done, Pblk.setBmap_rwb, Pblk.setTable_rwb, Pblk.updateCmt_rwb _ charge, Pblk.alloc_rwb]
  · obtain ⟨loaded, load, rest⟩ := bind_eq_ok.mp set
    rw [← Pblk.updateCmt_rwb _ load]
    split at rest
    · cases rest
    -- one case per map type of the segment's stream
    split at rest
    · split at rest
      · cases rest
      · obtain ⟨p, -, store⟩ := bind_eq_ok.mp rest
        exact Pblk.setPpa_rwb _ store
    · obtain ⟨⟨log, mid⟩, made, store⟩ := bind_eq_ok.mp rest
      rw [Pblk.setPpa_rwb _ store]
      split at made
      · exact pointer_pair_rwb made
      · split at made
        · cases made
        · obtain ⟨⟨log', pba', created⟩, create, done⟩ := bind_eq_ok.mp made
          simp only [pure_eq_ok, Prod.mk.injEq] at done
          rw [← done.2, blockLogCreate_rwb create]
    · split at rest
      · cases rest
      obtain ⟨pmap, -, rest⟩ := bind_eq_ok.mp rest
      obtain ⟨table, -, rest⟩ := bind_eq_ok.mp rest
      obtain ⟨⟨log, mid⟩, made, store⟩ := bind_eq_ok.mp rest
      rw [Pblk.setPpa_rwb _ store]
      split at made
      · exact pointer_pair_rwb made
      · exact pageLogCreate_rwb made
    · rw [← pure_eq_ok.mp rest]

theorem devMapSetBlock_rwb {ppa : PpaAddr} {pba : PbaAddr} (set : devMapSetBlock cfg s lba ppa pba = .ok s') :
    s'.rwb = s.rwb := by
  unfold devMapSetBlock at set
  dsimp only at set
  -- the device address is taken apart first
  split at set
  case h_2 => cases set
  simp only [pure_bind] at set
  split at set
  · cases set
  split at set
  · cases set
  obtain ⟨log, -, rest⟩ := bind_eq_ok.mp set
  obtain ⟨stored, store, rest⟩ := bind_eq_ok.mp rest
  rw [← Pblk.setPpa_rwb _ store]
  split at rest
  · -- the last data sector: the log may fold
    obtain ⟨bmtlog, -, rest⟩ := bind_eq_ok.mp rest
    split at rest
    · obtain ⟨charged, charge, rest⟩ := bind_eq_ok.mp rest
      obtain ⟨freed, free, done⟩ := bind_eq_ok.mp rest
      rw [← pure_eq_ok.mp done, Pblk.setBmap_rwb, Pblk.free_rwb _ free, Pblk.updateCmt_rwb _ charge]
    · rw [← pure_eq_ok.mp rest]
  · split at rest
    · cases rest
    · rw [← pure_eq_ok.mp rest]

theorem devMapSetPage_rwb {ppa : PpaAddr} {pba : PbaAddr} (set : devMapSetPage cfg s lba ppa pba = .ok s') :
    s'.rwb = s.rwb := by
  unfold devMapSetPage at set
  dsimp only at set
  split at set
  · cases set
  obtain ⟨pmap, -, rest⟩ := bind_eq_ok.mp set
  obtain ⟨table, -, rest⟩ := bind_eq_ok.mp rest
  split at rest
  · cases rest
  obtain ⟨log, -, rest⟩ := bind_eq_ok.mp rest
  obtain ⟨stored, store, rest⟩ := bind_eq_ok.mp rest
  rw [← Pblk.setPpa_rwb _ store]
  split at rest
  · exact pageLogCollapse_rwb rest
  · rw [← pure_eq_ok.mp rest]

theorem devMapSet_rwb {ppa : PpaAddr} (set : pblkDevMapSet cfg s lba ppa = .ok s') : s'.rwb = s.rwb := by
  unfold pblkDevMapSet at set
  dsimp only at set
  split at set
  · cases set
  obtain ⟨loaded, load, rest⟩ := bind_eq_ok.mp set
  rw [← Pblk.updateCmt_rwb _ load]
  split at rest
  · split at rest
    · cases rest
    · obtain ⟨p, -, store⟩ := bind_eq_ok.mp rest
      exact Pblk.setPpa_rwb _ store
  · exact devMapSetBlock_rwb rest
  · exact devMapSetPage_rwb rest
  · rw [← pure_eq_ok.mp rest]

theorem transMapSetBlock_rwb {ppa : PpaAddr} {pba : PbaAddr} (set : transMapSetBlock cfg s lba ppa pba = .ok s') :
    s'.rwb = s.rwb := by
  unfold transMapSetBlock at set
  dsimp only at set
  split at set
  · rw [← pure_eq_ok.mp set]
  obtain ⟨⟨log, pba', mid⟩, made, rest⟩ := bind_eq_ok.mp set
  -- the log is the one the entry points at, or a new one
  have kept : mid.rwb = s.rwb := by
    split at made
    · obtain ⟨p, -, done⟩ := bind_eq_ok.mp made
      simp only [pure_eq_ok, Prod.mk.injEq] at done
      rw [← done.2.2]
    · exact blockLogCreate_rwb made
  obtain ⟨stored, store, rest⟩ := bind_eq_ok.mp rest
  rw [← kept, ← Pblk.setPpa_rwb _ store]
  split at rest
  · obtain ⟨bmtlog, -, rest⟩ := bind_eq_ok.mp rest
    split at rest
    · obtain ⟨charged, charge, rest⟩ := bind_eq_ok.mp rest
      obtain ⟨freed, free, done⟩ := bind_eq_ok.mp rest
      rw [← pure_eq_ok.mp done, Pblk.setBmap_rwb, Pblk.free_rwb _ free, Pblk.updateCmt_rwb _ charge]
    · rw [← pure_eq_ok.mp rest]
  · rw [← pure_eq_ok.mp rest]

theorem transMapSetPage_rwb {ppa : PpaAddr} {pba : PbaAddr} (set : transMapSetPage cfg s lba ppa pba = .ok s') :
    s'.rwb = s.rwb := by
  unfold transMapSetPage at set
  dsimp only at set
  split at set
  · cases set
  obtain ⟨pmap, -, rest⟩ := bind_eq_ok.mp set
  obtain ⟨table, -, rest⟩ := bind_eq_ok.mp rest
  obtain ⟨⟨log, mid⟩, made, rest⟩ := bind_eq_ok.mp rest
  have kept : mid.rwb = s.rwb := by
    split at made
    · exact pointer_pair_rwb made
    · exact pageLogCreate_rwb made
  obtain ⟨stored, store, rest⟩ := bind_eq_ok.mp rest
  rw [← kept, ← Pblk.setPpa_rwb _ store]
  split at rest
  · exact pageLogCollapse_rwb rest
  · rw [← pure_eq_ok.mp rest]

theorem transMapSet_rwb {ppa : PpaAddr} (set : pblkTransMapSet cfg s lba ppa = .ok s') : s'.rwb = s.rwb := by
  unfold pblkTransMapSet at set
  dsimp only at set
  obtain ⟨⟨pba, mid⟩, linked, rest⟩ := bind_eq_ok.mp set
  -- a segment never mapped is given its sector table first
  have kept : mid.rwb = s.rwb := by
    split at linked
    · obtain ⟨charged, charge, done⟩ := bind_eq_ok.mp linked
      simp only [pure_eq_ok, Prod.mk.injEq] at done
      rw [← done.2, Pblk.updateCmt_rwb _ charge, Pblk.setBmap_rwb, Pblk.alloc_rwb]
    · simp only [pure_eq_ok, Prod.mk.injEq] at linked
      rw [← linked.2]
  obtain ⟨loaded, load, rest⟩ := bind_eq_ok.mp rest
  rw [← kept, ← Pblk.updateCmt_rwb _ load]
  split at rest
  · cases rest
  split at rest
  · split at rest
    · cases rest
    · obtain ⟨p, -, store⟩ := bind_eq_ok.mp rest
      exact Pblk.setPpa_rwb _ store
  · exact transMapSetBlock_rwb rest
  · exact transMapSetPage_rwb rest
  · cases rest

end Rwb

/-! ## Stream tables without page maps

`pblk_l2p_init` makes every stream sector-mapped and, without `PBLK_ALL_PMT`,
the streams from `DATA_START_STREAM` on block-mapped: no build has a
page-mapped stream. A writer then never makes a segment page-mapped. -/

def NoPageStreams (cfg : Config) : Prop := ∀ i, (cfg.lstream i).mapType ≠ .page

def NoPageSegments (s : Pblk) : Prop := ∀ lseg, (s.bmap lseg).map ≠ .page

theorem l2pInitConfig_noPage (ppaf : AddrFormat) (nrLines : Nat) (allPmt : Bool) :
    NoPageStreams (l2pInitConfig ppaf nrLines allPmt) := by
  intro i
  simp only [l2pInitConfig, l2pInitLstream]
  split <;> simp

section NoPage

variable {cfg} {s s' : Pblk} {lba : Nat}

theorem NoPageSegments.of_bmap (flat : NoPageSegments s) (same : s'.bmap = s.bmap) : NoPageSegments s' := by
  intro lseg
  rw [same]
  exact flat lseg

theorem NoPageSegments.setBmap (flat : NoPageSegments s) {lseg : Nat} {pba : PbaAddr} (map : pba.map ≠ .page) :
    NoPageSegments (s.setBmap lseg pba) := by
  intro l
  rw [Pblk.setBmap_bmap, Function.update_apply]
  split
  · exact map
  · exact flat l

theorem noPageSegments_init (rwb : Nat → RingBuffer.Rb) : NoPageSegments (pblkL2pInit rwb) := by
  intro lseg
  simp [pblkL2pInit]

theorem blockLogCreate_noPage {pba pba' : PbaAddr} {log : Nat} (flat : NoPageSegments s) (map : pba.map ≠ .page)
    (made : blockLogCreate cfg s lba pba = .ok (log, pba', s')) : NoPageSegments s' ∧ pba'.map = pba.map := by
  obtain ⟨⟨copies, mid⟩, read, rest⟩ := bind_eq_ok.mp made
  obtain ⟨charged, charge, done⟩ := bind_eq_ok.mp rest
  simp only [pure_eq_ok, Prod.mk.injEq] at done
  obtain ⟨-, rfl, rfl⟩ := done
  refine ⟨NoPageSegments.setBmap (flat.of_bmap ?_) map, rfl⟩
  rw [Pblk.updateCmt_bmap _ charge, Pblk.setTable_bmap, readRange_bmap read]

theorem cacheMapSet_noPage (streams : NoPageStreams cfg) (flat : NoPageSegments s) {ppa : PpaAddr}
    (set : pblkCacheMapSet cfg s lba ppa = .ok s') : NoPageSegments s' := by
  unfold pblkCacheMapSet at set
  dsimp only at set
  split at set
  · -- a segment never mapped becomes sector-mapped
    obtain ⟨charged, charge, done⟩ := bind_eq_ok.mp set
    rw [← pure_eq_ok.mp done]
    refine NoPageSegments.setBmap (flat.of_bmap ?_) (by simp)
    rw [Pblk.setTable_bmap, Pblk.updateCmt_bmap _ charge, Pblk.alloc_bmap]
  · obtain ⟨loaded, load, rest⟩ := bind_eq_ok.mp set
    have flat' := flat.of_bmap (Pblk.updateCmt_bmap _ load)
    split at rest
    · cases rest
    -- one case per map type of the segment's stream
    split at rest
    · split at rest
      · cases rest
      · obtain ⟨p, -, store⟩ := bind_eq_ok.mp rest
        exact flat'.of_bmap (Pblk.setPpa_bmap _ store)
    · obtain ⟨⟨log, mid⟩, made, store⟩ := bind_eq_ok.mp rest
      refine NoPageSegments.of_bmap ?_ (Pblk.setPpa_bmap _ store)
      split at made
      · obtain ⟨p, -, done⟩ := bind_eq_ok.mp made
        simp only [pure_eq_ok, Prod.mk.injEq] at done
        rw [← done.2]
        exact flat'
      · split at made
        · cases made
        · obtain ⟨⟨log', pba', created⟩, create, done⟩ := bind_eq_ok.mp made
          simp only [pure_eq_ok, Prod.mk.injEq] at done
          rw [← done.2]
          exact (blockLogCreate_noPage flat' (flat _) create).1
    · next page => exact absurd page (streams _)
    · rw [← pure_eq_ok.mp rest]
      exact flat'

theorem devMapSetBlock_noPage {ppa : PpaAddr} {pba : PbaAddr} (flat : NoPageSegments s) (map : pba.map ≠ .page)
    (set : devMapSetBlock cfg s lba ppa pba = .ok s') : NoPageSegments s' := by
  unfold devMapSetBlock at set
  dsimp only at set
  split at set
  case h_2 => cases set
  simp only [pure_bind] at set
  split at set
  · cases set
  split at set
  · cases set
  obtain ⟨log, -, rest⟩ := bind_eq_ok.mp set
  obtain ⟨stored, store, rest⟩ := bind_eq_ok.mp rest
  have flat' := flat.of_bmap (Pblk.setPpa_bmap _ store)
  split at rest
  · -- the last data sector: a folded log keeps the entry's map type
    obtain ⟨bmtlog, -, rest⟩ := bind_eq_ok.mp rest
    split at rest
    · obtain ⟨charged, charge, rest⟩ := bind_eq_ok.mp rest
      obtain ⟨freed, free, done⟩ := bind_eq_ok.mp rest
      rw [← pure_eq_ok.mp done]
      exact NoPageSegments.setBmap (flat'.of_bmap (by rw [Pblk.free_bmap _ free, Pblk.updateCmt_bmap _ charge])) map
    · rw [← pure_eq_ok.mp rest]
      exact flat'
  · split at rest
    · cases rest
    · rw [← pure_eq_ok.mp rest]
      exact flat'

theorem devMapSet_noPage (streams : NoPageStreams cfg) (flat : NoPageSegments s) {ppa : PpaAddr}
    (set : pblkDevMapSet cfg s lba ppa = .ok s') : NoPageSegments s' := by
  unfold pblkDevMapSet at set
  dsimp only at set
  split at set
  · cases set
  obtain ⟨loaded, load, rest⟩ := bind_eq_ok.mp set
  have flat' := flat.of_bmap (Pblk.updateCmt_bmap _ load)
  split at rest
  · split at rest
    · cases rest
    · obtain ⟨p, -, store⟩ := bind_eq_ok.mp rest
      exact flat'.of_bmap (Pblk.setPpa_bmap _ store)
  · exact devMapSetBlock_noPage flat' (flat _) rest
  · next page => exact absurd page (streams _)
  · rw [← pure_eq_ok.mp rest]
    exact flat'

theorem transMapSetBlock_noPage {ppa : PpaAddr} {pba : PbaAddr} (flat : NoPageSegments s) (map : pba.map ≠ .page)
    (set : transMapSetBlock cfg s lba ppa pba = .ok s') : NoPageSegments s' := by
  unfold transMapSetBlock at set
  dsimp only at set
  split at set
  · rw [← pure_eq_ok.mp set]
    exact flat
  obtain ⟨⟨log, pba', mid⟩, made, rest⟩ := bind_eq_ok.mp set
  -- the log is the one the entry points at, or a new one; the entry keeps its map type
  have kept : NoPageSegments mid ∧ pba'.map = pba.map := by
    split at made
    · obtain ⟨p, -, done⟩ := bind_eq_ok.mp made
      simp only [pure_eq_ok, Prod.mk.injEq] at done
      obtain ⟨-, rfl, rfl⟩ := done
      exact ⟨flat, rfl⟩
    · exact blockLogCreate_noPage flat map made
  obtain ⟨stored, store, rest⟩ := bind_eq_ok.mp rest
  have flat' := kept.1.of_bmap (Pblk.setPpa_bmap _ store)
  split at rest
  · obtain ⟨bmtlog, -, rest⟩ := bind_eq_ok.mp rest
    split at rest
    · obtain ⟨charged, charge, rest⟩ := bind_eq_ok.mp rest
      obtain ⟨freed, free, done⟩ := bind_eq_ok.mp rest
      rw [← pure_eq_ok.mp done]
      refine NoPageSegments.setBmap (flat'.of_bmap ?_) (kept.2.trans_ne map)
      rw [Pblk.free_bmap _ free, Pblk.updateCmt_bmap _ charge]
    · rw [← pure_eq_ok.mp rest]
      exact flat'
  · rw [← pure_eq_ok.mp rest]
    exact flat'

theorem transMapSet_noPage (streams : NoPageStreams cfg) (flat : NoPageSegments s) {ppa : PpaAddr}
    (set : pblkTransMapSet cfg s lba ppa = .ok s') : NoPageSegments s' := by
  unfold pblkTransMapSet at set
  dsimp only at set
  obtain ⟨⟨pba, mid⟩, linked, rest⟩ := bind_eq_ok.mp set
  -- a segment never mapped is given a sector table first
  have kept : NoPageSegments mid ∧ pba.map ≠ .page := by
    split at linked
    · obtain ⟨charged, charge, done⟩ := bind_eq_ok.mp linked
      simp only [pure_eq_ok, Prod.mk.injEq] at done
      obtain ⟨rfl, rfl⟩ := done
      refine ⟨fun l => ?_, by simp⟩
      rw [Pblk.updateCmt_bmap _ charge, Pblk.setBmap_bmap, Function.update_apply]
      split
      · simp
      · exact flat l
    · simp only [pure_eq_ok, Prod.mk.injEq] at linked
      obtain ⟨rfl, rfl⟩ := linked
      exact ⟨flat, flat _⟩
  obtain ⟨loaded, load, rest⟩ := bind_eq_ok.mp rest
  have flat' := kept.1.of_bmap (Pblk.updateCmt_bmap _ load)
  split at rest
  · cases rest
  split at rest
  · split at rest
    · cases rest
    · obtain ⟨p, -, store⟩ := bind_eq_ok.mp rest
      exact flat'.of_bmap (Pblk.setPpa_bmap _ store)
  · exact transMapSetBlock_noPage flat' kept.2 rest
  · next page => exact absurd page (streams _)
  · cases rest

end NoPage

end MStream.L2p
