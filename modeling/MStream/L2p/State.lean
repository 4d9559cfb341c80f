import MStream.RingBuffer
import MStream.Dftl

/-!
The L2P table of the multi-map pblk (pblk.h under `CONFIG_PBLK_MULTIMAP`).
The logical space is cut into segments of `entry_num = 2 ^ blk_offset`
sectors, a line's worth, and `trans_map` holds one `struct pba_addr` per
segment. What the entry holds depends on the map type of the segment's
stream: a pointer to a per-sector table (`SECTOR_MAP`); a block number, or a
pointer to a per-sector log while the block is being written (`BLOCK_MAP`);
or a pointer to a per-page table whose entries are page addresses or pointers
to four-sector logs (`PAGE_MAP`).

`struct pba_addr` is declared in lightnvm.h, outside the repository. The model
assumes, as pblk's use of it does, that its `m.map`, `m.lstream` and
`m.is_cached` fields lie apart from the 64-bit union of `pba`, `pointer` and
the page address `b`. That union is `PbaVal`: the all-ones `ADDR_EMPTY`, a
page address written after `pba = 0`, or a pointer. Reading it in another view
than the one written (a pointer as a block number, a page address as a
pointer) is a `wild` fault, as is dereferencing a pointer that is not a live
table of the right kind. Tables live in `heap`, at the fresh addresses
`vzalloc` returns, until `vfree`; page-table entries keep only `m.is_cached`
and the union, the only fields pblk reads of them. Allocation failures (the
`BUG_ON` after a `NULL` from `vzalloc`) are not modelled, nor is
`preinvalid_map`, which the map functions only clear.
-/

namespace MStream.L2p

open Machine Address RingBuffer Dftl

/-- The fields of `struct pblk_lstream` the map functions read. -/
structure Lstream where
  mapType : MapType
  mapSize : Nat
  logSize : Nat

/-- What the map functions read of `struct pblk` and never write: the address
format, the number of lines and the stream table. -/
structure Config where
  ppaf : AddrFormat
  nrLines : Nat
  nrLstream : Nat
  lstream : Nat → Lstream

namespace Config

variable (cfg : Config)

def entryNum : Nat := 2 ^ cfg.ppaf.blkOffset

/-- `lba >> blk_offset` -/
def lsegOf (lba : Nat) : Nat := lba / cfg.entryNum

/-- `lba & (entry_num - 1)` -/
def loffOf (lba : Nat) : Nat := lba % cfg.entryNum

/-- `1 << pln_offset`, the sectors of a flash page. -/
def logEntryNum : Nat := 2 ^ cfg.ppaf.plnOffset

/-- `entry_num >> pln_offset`, the pages of a segment. -/
def pmapEntryNum : Nat := cfg.entryNum / cfg.logEntryNum

/-- `loff >> pln_offset` -/
def pindexOf (lba : Nat) : Nat := cfg.loffOf lba / cfg.logEntryNum

/-- `lba & ((1 << pln_offset) - 1)` -/
def poffsetOf (lba : Nat) : Nat := lba % cfg.logEntryNum

variable {cfg}

theorem lba_eq_of_seg_off {a b : Nat} (seg : cfg.lsegOf a = cfg.lsegOf b) (off : cfg.loffOf a = cfg.loffOf b) :
    a = b :=
  calc a = cfg.entryNum * cfg.lsegOf a + cfg.loffOf a := (Nat.div_add_mod a _).symm
    _ = cfg.entryNum * cfg.lsegOf b + cfg.loffOf b := by rw [seg, off]
    _ = b := Nat.div_add_mod b _

end Config

structure PageAddr where
  blk : Nat
  pg : Nat
  lun : Nat
  ch : Nat
  pl : Nat
  deriving DecidableEq, Repr

inductive PbaVal where
  | empty
  | page (b : PageAddr)
  | pointer (p : Nat)
  deriving DecidableEq, Repr

/-- `struct pba_addr` as a `trans_map` entry. -/
structure PbaAddr where
  map : MapType
  lstream : Nat
  isCached : Bool
  val : PbaVal
  deriving DecidableEq, Repr

structure PageEntry where
  isCached : Bool
  val : PbaVal
  deriving DecidableEq, Repr

inductive Table where
  | ppas (entries : Nat → PpaAddr)
  | pages (entries : Nat → PageEntry)

structure Pblk where
  bmap : Nat → PbaAddr
  heap : Nat → Option Table
  next : Nat
  cmt : CmtMgt
  rwb : Nat → Rb

namespace PbaVal

/-- `pba.pointer` -/
def pointer? : PbaVal → Except Fault Nat
  | .pointer p => .ok p
  | _ => .error .wild

/-- `pba.b`, the page address fields -/
def page? : PbaVal → Except Fault PageAddr
  | .page b => .ok b
  | _ => .error .wild

theorem pointer?_eq_ok {v : PbaVal} {p : Nat} : v.pointer? = .ok p ↔ v = .pointer p := by
  cases v <;> simp [pointer?]

end PbaVal

/-- A zeroed `struct ppa_addr`, as `vzalloc` leaves it. -/
def zeroPpa : PpaAddr := .dev ⟨0, 0, 0, 0, 0, 0⟩

def fillTable (copies : List PpaAddr) : Nat → PpaAddr := fun i => copies.getD i zeroPpa

namespace Pblk

variable (s : Pblk)

def setBmap (lseg : Nat) (pba : PbaAddr) : Pblk := { s with bmap := Function.update s.bmap lseg pba }

/-- `vzalloc`: a new table at a fresh address. -/
def alloc (t : Table) : Nat × Pblk :=
  (s.next, { s with heap := Function.update s.heap s.next (some t), next := s.next + 1 })

/-- `vfree`; freeing what is not a live table is a fault. -/
def free (p : Nat) : Except Fault Pblk :=
  match s.heap p with
  | some _ => .ok { s with heap := Function.update s.heap p none }
  | none => .error .wild

def ppas (p : Nat) : Except Fault (Nat → PpaAddr) :=
  match s.heap p with
  | some (.ppas f) => .ok f
  | _ => .error .wild

def pages (p : Nat) : Except Fault (Nat → PageEntry) :=
  match s.heap p with
  | some (.pages f) => .ok f
  | _ => .error .wild

def setPpa (p i : Nat) (ppa : PpaAddr) : Except Fault Pblk := do
  let f ← s.ppas p
  pure { s with heap := Function.update s.heap p (some (.ppas (Function.update f i ppa))) }

def setPage (p i : Nat) (entry : PageEntry) : Except Fault Pblk := do
  let f ← s.pages p
  pure { s with heap := Function.update s.heap p (some (.pages (Function.update f i entry))) }

def setRwb (nrb : Nat) (rb : Rb) : Pblk := { s with rwb := Function.update s.rwb nrb rb }

def setTable (p : Nat) (t : Table) : Pblk := { s with heap := Function.update s.heap p (some t) }

def withCmt (cmt : CmtMgt) : Pblk := { s with cmt := cmt }

def updateCmt (f : CmtMgt → Except Fault CmtMgt) : Except Fault Pblk := do
  let cmt ← f s.cmt
  pure (s.withCmt cmt)

@[simp] theorem setBmap_bmap (lseg : Nat) (pba : PbaAddr) :
    (s.setBmap lseg pba).bmap = Function.update s.bmap lseg pba := rfl
@[simp] theorem setBmap_heap (lseg : Nat) (pba : PbaAddr) : (s.setBmap lseg pba).heap = s.heap := rfl
@[simp] theorem setBmap_rwb (lseg : Nat) (pba : PbaAddr) : (s.setBmap lseg pba).rwb = s.rwb := rfl
@[simp] theorem setBmap_cmt (lseg : Nat) (pba : PbaAddr) : (s.setBmap lseg pba).cmt = s.cmt := rfl
@[simp] theorem alloc_bmap (t : Table) : (s.alloc t).2.bmap = s.bmap := rfl
@[simp] theorem alloc_rwb (t : Table) : (s.alloc t).2.rwb = s.rwb := rfl
@[simp] theorem alloc_cmt (t : Table) : (s.alloc t).2.cmt = s.cmt := rfl
@[simp] theorem alloc_fst (t : Table) : (s.alloc t).1 = s.next := rfl
@[simp] theorem alloc_heap (t : Table) :
    (s.alloc t).2.heap = Function.update s.heap s.next (some t) := rfl
@[simp] theorem setRwb_bmap (nrb : Nat) (rb : Rb) : (s.setRwb nrb rb).bmap = s.bmap := rfl
@[simp] theorem setRwb_heap (nrb : Nat) (rb : Rb) : (s.setRwb nrb rb).heap = s.heap := rfl

@[simp] theorem withCmt_bmap (cmt : CmtMgt) : (s.withCmt cmt).bmap = s.bmap := rfl
@[simp] theorem withCmt_heap (cmt : CmtMgt) : (s.withCmt cmt).heap = s.heap := rfl
@[simp] theorem withCmt_next (cmt : CmtMgt) : (s.withCmt cmt).next = s.next := rfl
@[simp] theorem withCmt_rwb (cmt : CmtMgt) : (s.withCmt cmt).rwb = s.rwb := rfl
@[simp] theorem withCmt_cmt (cmt : CmtMgt) : (s.withCmt cmt).cmt = cmt := rfl
@[simp] theorem withCmt_withCmt (cmt cmt' : CmtMgt) :
    (s.withCmt cmt).withCmt cmt' = s.withCmt cmt' := rfl
@[simp] theorem withCmt_self : s.withCmt s.cmt = s := rfl
@[simp] theorem setTable_bmap (p : Nat) (t : Table) : (s.setTable p t).bmap = s.bmap := rfl
@[simp] theorem setTable_heap (p : Nat) (t : Table) :
    (s.setTable p t).heap = Function.update s.heap p (some t) := rfl
@[simp] theorem setTable_rwb (p : Nat) (t : Table) : (s.setTable p t).rwb = s.rwb := rfl

theorem updateCmt_ok {f : CmtMgt → Except Fault CmtMgt} {s' : Pblk} :
    s.updateCmt f = .ok s' ↔ ∃ cmt, f s.cmt = .ok cmt ∧ s' = s.withCmt cmt := by
  unfold updateCmt
  constructor
  · intro done
    obtain ⟨cmt, called, stored⟩ := bind_eq_ok.mp done
    exact ⟨cmt, called, (pure_eq_ok.mp stored).symm⟩
  · rintro ⟨cmt, called, rfl⟩
    simp [called]

theorem updateCmt_error {f : CmtMgt → Except Fault CmtMgt} {e : Fault} (failed : f s.cmt = .error e) :
    s.updateCmt f = .error e := by
  simp [updateCmt, failed]

/-! Writes to the heap and the DFTL table leave the segment entries alone. -/

theorem setPpa_bmap {p i : Nat} {ppa : PpaAddr} {s' : Pblk} (set : s.setPpa p i ppa = .ok s') :
    s'.bmap = s.bmap := by
  obtain ⟨f, -, stored⟩ := bind_eq_ok.mp set
  rw [← pure_eq_ok.mp stored]

theorem setPage_bmap {p i : Nat} {entry : PageEntry} {s' : Pblk} (set : s.setPage p i entry = .ok s') :
    s'.bmap = s.bmap := by
  obtain ⟨f, -, stored⟩ := bind_eq_ok.mp set
  rw [← pure_eq_ok.mp stored]

theorem free_bmap {p : Nat} {s' : Pblk} (freed : s.free p = .ok s') : s'.bmap = s.bmap := by
  unfold free at freed
  split at freed
  · cases freed
    rfl
  · cases freed

theorem updateCmt_bmap {f : CmtMgt → Except Fault CmtMgt} {s' : Pblk} (updated : s.updateCmt f = .ok s') :
    s'.bmap = s.bmap := by
  obtain ⟨cmt, -, rfl⟩ := (updateCmt_ok s).mp updated
  rfl

/-! Nor does the heap touch the DFTL table. -/

theorem setPpa_cmt {p i : Nat} {ppa : PpaAddr} {s' : Pblk} (set : s.setPpa p i ppa = .ok s') :
    s'.cmt = s.cmt := by
  obtain ⟨f, -, stored⟩ := bind_eq_ok.mp set
  rw [← pure_eq_ok.mp stored]

theorem free_cmt {p : Nat} {s' : Pblk} (freed : s.free p = .ok s') : s'.cmt = s.cmt := by
  unfold free at freed
  split at freed
  · cases freed
    rfl
  · cases freed

/-! Nor do they touch the write buffers. -/

theorem setPpa_rwb {p i : Nat} {ppa : PpaAddr} {s' : Pblk} (set : s.setPpa p i ppa = .ok s') :
    s'.rwb = s.rwb := by
  obtain ⟨f, -, stored⟩ := bind_eq_ok.mp set
  rw [← pure_eq_ok.mp stored]

theorem setPage_rwb {p i : Nat} {entry : PageEntry} {s' : Pblk} (set : s.setPage p i entry = .ok s') :
    s'.rwb = s.rwb := by
  obtain ⟨f, -, stored⟩ := bind_eq_ok.mp set
  rw [← pure_eq_ok.mp stored]

theorem free_rwb {p : Nat} {s' : Pblk} (freed : s.free p = .ok s') : s'.rwb = s.rwb := by
  unfold free at freed
  split at freed
  · cases freed
    rfl
  · cases freed

theorem updateCmt_rwb {f : CmtMgt → Except Fault CmtMgt} {s' : Pblk} (updated : s.updateCmt f = .ok s') :
    s'.rwb = s.rwb := by
  obtain ⟨cmt, -, rfl⟩ := (updateCmt_ok s).mp updated
  rfl

/-! How the heap operations change the page tables. -/

theorem setPpa_pages {p i q : Nat} {ppa : PpaAddr} {s' : Pblk} (set : s.setPpa p i ppa = .ok s') :
    s'.pages q = s.pages q := by
  obtain ⟨f, held, stored⟩ := bind_eq_ok.mp set
  rw [← pure_eq_ok.mp stored]
  by_cases same : q = p
  · -- both read the table of addresses at `p` as a page table, and fail
    subst same
    unfold ppas at held
    split at held
    · simp_all [pages]
    · cases held
  · simp [pages, Function.update_of_ne same]

theorem setPage_pages_self {p i : Nat} {entry : PageEntry} {s' : Pblk}
    (set : s.setPage p i entry = .ok s') :
    ∃ f, s.pages p = .ok f ∧ s'.pages p = .ok (Function.update f i entry) := by
  obtain ⟨f, held, stored⟩ := bind_eq_ok.mp set
  rw [← pure_eq_ok.mp stored]
  exact ⟨f, held, by simp [pages]⟩

end Pblk

/-- The map part of `pblk_l2p_init`: every segment `NONE_MAP` in stream 0 with
`pba = ADDR_EMPTY`, nothing allocated, and the DFTL table of `pblk_cmt_init`. -/
def pblkL2pInit (rwb : Nat → Rb) : Pblk where
  bmap := fun _ => { map := .none, lstream := 0, isCached := false, val := .empty }
  heap := fun _ => none
  next := 0
  cmt := pblkCmtInit
  rwb := rwb

/-- The stream table `pblk_l2p_init` builds for segments of `entry_num`
sectors: every stream sector-mapped with no log and, when `PBLK_ALL_PMT` is
not defined (`allPmt` false), the streams from `DATA_START_STREAM = 4` on
block-mapped, one block a segment with a log of `entry_num` sectors. -/
def l2pInitLstream (allPmt : Bool) (entryNum i : Nat) : Lstream :=
  if !allPmt && 4 ≤ i then { mapType := .block, mapSize := 1, logSize := entryNum }
  else { mapType := .sector, mapSize := entryNum, logSize := 0 }

/-- The configuration `pblk_l2p_init` leaves: `MAX_PSTREAM = 8` streams with
the table above. -/
def l2pInitConfig (ppaf : AddrFormat) (nrLines : Nat) (allPmt : Bool) : Config where
  ppaf := ppaf
  nrLines := nrLines
  nrLstream := 8
  lstream := l2pInitLstream allPmt (2 ^ ppaf.blkOffset)

/-- The page-table entries of a page map that hold a log, as `pblk_load_cmt`
counts them through the segment's pointer. -/
def cachedPagesOf (cfg : Config) (s : Pblk) (val : PbaVal) : Except Fault Nat := do
  let p ← val.pointer?
  let pmap ← s.pages p
  pure ((List.range cfg.pmapEntryNum).countP fun i => (pmap i).isCached)

/-- What `pblk_load_cmt` reads of segment `lseg`: the type and log size of its
stream, its entry's type and `is_cached` bit, and the page logs of a page map. -/
def segInfo (cfg : Config) (s : Pblk) (lseg : Nat) : SegInfo where
  mapType := (cfg.lstream (s.bmap lseg).lstream).mapType
  bmapType := (s.bmap lseg).map
  isCached := (s.bmap lseg).isCached
  logSize := (cfg.lstream (s.bmap lseg).lstream).logSize
  cachedPages := cachedPagesOf cfg s (s.bmap lseg).val

end MStream.L2p
