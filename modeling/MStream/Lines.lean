import MStream.Machine

/-!
The line manager of pblk-core.c, pblk-gc.c and pblk-rl.c. A line is in one
state (`PBLK_LINESTATE_*`), its list node hangs on at most one of the line
lists of `struct pblk_line_mgmt` or on the GC reader list, and two counters
follow the free list: `l_mg->nr_free_lines` counts its lines and
`rl.free_blocks` sums their good blocks (`blk_in_line`).

Lists are kept as lists of line ids in their kernel order: `list_add_tail`
appends, `list_add` prepends, `list_del` removes the line from the list it is
taken from, and `list_move_tail` removes it from wherever it is.

What the device answers is taken as given (`Env`): whether the line bitmap
allocations of `pblk_line_prepare` succeed, how many block erases of a line
fail on completion (each marks its block bad, as `pblk_mark_bb` does) and
whether an erase submission fails, which is the only way `pblk_line_erase`
fails, and the bad-block count check that ends `pblk_line_init_bb`.
`blk_bitmap` is kept as its weight. The emeta, smeta and meta-line
bookkeeping, the rate limiter's rates and `pblk_set_space_limit`
do not feed the lists or the counters and are left out; `gc_target` is kept
beside the line manager in `MStream.Gc`.
-/

namespace MStream.Lines

open Machine

/-- `PBLK_LINESTATE_*`; `opened` is `PBLK_LINESTATE_OPEN`. -/
inductive LineState where
  | free
  | opened
  | closed
  | gc
  | bad
  | corrupt
  deriving DecidableEq, Repr

/-- `PBLK_LINEGC_*`: the GC band a line was last filed under. -/
inductive GcGroup where
  | none
  | empty
  | low
  | mid
  | high
  | full
  deriving DecidableEq, Repr

/-- The list heads of `struct pblk_line_mgmt`, and `gc->r_list`. -/
inductive LineList where
  | free
  | bad
  | corrupt
  | gcFull
  | gcHigh
  | gcMid
  | gcLow
  | gcEmpty
  | gcRead
  deriving DecidableEq, Repr

/-- The fields of `struct pblk_line` the line manager reads or writes. `vsc`
is the `__le32` valid sector count, `ref` the kref count. -/
structure Line where
  state : LineState
  gcGroup : GcGroup
  vsc : Nat
  secInLine : Nat
  blkInLine : Int
  badBlks : Nat
  seqNr : Nat
  pstream : Nat
  ref : Nat
  deriving DecidableEq, Repr

structure LineMeta where
  blkPerLine : Nat
  minBlkLine : Nat
  secPerLine : Nat
  secPerBlk : Nat
  smetaSec : Nat
  emetaSec : Nat
  midThrs : Nat
  highThrs : Nat

inductive PblkState where
  | running
  | stopping
  | recovering
  | stopped
  deriving DecidableEq, Repr

/-- `struct pblk_line_mgmt` with the lines, `rl.free_blocks` and `pblk->state`. -/
structure LineMgmt where
  lines : Nat → Line
  lists : LineList → List Nat
  nrFreeLines : Int
  freeBlocks : Int
  dSeqNr : Nat
  dataLine : Nat → Option Nat
  dataNext : Nat → Option Nat
  state : PblkState

structure Env where
  metaAlloc : Bool
  eraseGrown : Nat → Nat
  eraseFails : Nat → Bool
  bbOk : Nat → Bool

/-- `EMPTY_ENTRY`, which `pblk_line_free` writes to `*line->vsc`. -/
def emptyEntry : Nat := 2 ^ 32 - 1

namespace LineMgmt

variable (s : LineMgmt)

def modifyLine (id : Nat) (f : Line → Line) : LineMgmt :=
  { s with lines := Function.update s.lines id (f (s.lines id)) }

/-! The list operations of `list.h`: `list_add_tail`, `list_add`, and
`list_del` of a line, from the list it was taken from or from whichever list
holds it. -/

def addTail (l : LineList) (id : Nat) : LineMgmt :=
  { s with lists := Function.update s.lists l (s.lists l ++ [id]) }

def addHead (l : LineList) (id : Nat) : LineMgmt :=
  { s with lists := Function.update s.lists l (id :: s.lists l) }

def del (l : LineList) (id : Nat) : LineMgmt :=
  { s with lists := Function.update s.lists l ((s.lists l).erase id) }

def unlink (id : Nat) : LineMgmt :=
  { s with lists := fun l => (s.lists l).erase id }

/-- What `rl.free_blocks` should hold: the good blocks of the free lines. -/
def freeSum : Int := ((s.lists .free).map fun id => (s.lines id).blkInLine).sum

variable {s}

@[simp] theorem modifyLine_lines_self (id : Nat) (f : Line → Line) :
    (s.modifyLine id f).lines id = f (s.lines id) := by
  simp [modifyLine]

@[simp] theorem modifyLine_lines_of_ne {id id' : Nat} (f : Line → Line) (other : id' ≠ id) :
    (s.modifyLine id f).lines id' = s.lines id' := by
  simp [modifyLine, Function.update_of_ne other]

@[simp] theorem modifyLine_lists (id : Nat) (f : Line → Line) : (s.modifyLine id f).lists = s.lists := rfl

@[simp] theorem modifyLine_freeBlocks (id : Nat) (f : Line → Line) :
    (s.modifyLine id f).freeBlocks = s.freeBlocks := rfl

@[simp] theorem modifyLine_nrFreeLines (id : Nat) (f : Line → Line) :
    (s.modifyLine id f).nrFreeLines = s.nrFreeLines := rfl

@[simp] theorem modifyLine_dSeqNr (id : Nat) (f : Line → Line) : (s.modifyLine id f).dSeqNr = s.dSeqNr := rfl

@[simp] theorem addTail_lines (l : LineList) (id : Nat) : (s.addTail l id).lines = s.lines := rfl

@[simp] theorem addHead_lines (l : LineList) (id : Nat) : (s.addHead l id).lines = s.lines := rfl

@[simp] theorem del_lines (l : LineList) (id : Nat) : (s.del l id).lines = s.lines := rfl

@[simp] theorem addTail_lists (l l' : LineList) (id : Nat) :
    (s.addTail l id).lists l' = if l' = l then s.lists l ++ [id] else s.lists l' := by
  simp [addTail, Function.update_apply]

@[simp] theorem addHead_lists (l l' : LineList) (id : Nat) :
    (s.addHead l id).lists l' = if l' = l then id :: s.lists l else s.lists l' := by
  simp [addHead, Function.update_apply]

@[simp] theorem del_lists (l l' : LineList) (id : Nat) :
    (s.del l id).lists l' = if l' = l then (s.lists l).erase id else s.lists l' := by
  simp [del, Function.update_apply]

@[simp] theorem addTail_freeBlocks (l : LineList) (id : Nat) : (s.addTail l id).freeBlocks = s.freeBlocks := rfl

@[simp] theorem addHead_freeBlocks (l : LineList) (id : Nat) : (s.addHead l id).freeBlocks = s.freeBlocks := rfl

@[simp] theorem del_freeBlocks (l : LineList) (id : Nat) : (s.del l id).freeBlocks = s.freeBlocks := rfl

@[simp] theorem addTail_nrFreeLines (l : LineList) (id : Nat) :
    (s.addTail l id).nrFreeLines = s.nrFreeLines := rfl

@[simp] theorem addHead_nrFreeLines (l : LineList) (id : Nat) :
    (s.addHead l id).nrFreeLines = s.nrFreeLines := rfl

@[simp] theorem del_nrFreeLines (l : LineList) (id : Nat) : (s.del l id).nrFreeLines = s.nrFreeLines := rfl

@[simp] theorem modifyLine_dataLine (id : Nat) (f : Line → Line) : (s.modifyLine id f).dataLine = s.dataLine := rfl

@[simp] theorem modifyLine_dataNext (id : Nat) (f : Line → Line) : (s.modifyLine id f).dataNext = s.dataNext := rfl

@[simp] theorem del_dSeqNr (l : LineList) (id : Nat) : (s.del l id).dSeqNr = s.dSeqNr := rfl

@[simp] theorem del_dataLine (l : LineList) (id : Nat) : (s.del l id).dataLine = s.dataLine := rfl

@[simp] theorem del_dataNext (l : LineList) (id : Nat) : (s.del l id).dataNext = s.dataNext := rfl

@[simp] theorem unlink_lines (id : Nat) : (s.unlink id).lines = s.lines := rfl

@[simp] theorem unlink_lists (l : LineList) (id : Nat) : (s.unlink id).lists l = (s.lists l).erase id := rfl

theorem freeSum_of_frame {s0 : LineMgmt} {ids : List Nat} (list : s.lists .free = ids)
    (frame : ∀ id ∈ ids, (s.lines id).blkInLine = (s0.lines id).blkInLine) :
    s.freeSum = (ids.map fun id => (s0.lines id).blkInLine).sum := by
  rw [freeSum, list, List.map_congr_left frame]

end LineMgmt

open LineMgmt

section Ops

variable (env : Env) (lm : LineMeta)

def pblkRlFreeLinesInc (s : LineMgmt) (id : Nat) : LineMgmt :=
  { s with freeBlocks := s.freeBlocks + (s.lines id).blkInLine }

def pblkRlFreeLinesDec (s : LineMgmt) (id : Nat) : LineMgmt :=
  { s with freeBlocks := s.freeBlocks - (s.lines id).blkInLine }

/-- `pblk_line_gc_list`: the list a closed line belongs on for its valid
sector count, `none` when its band is the one it was filed under. The `int`
count is compared with the `unsigned` thresholds as an `unsigned`. -/
def pblkLineGcList (line : Line) : Option LineList × Line :=
  let file (g : GcGroup) (l : LineList) : Option LineList × Line :=
    if line.gcGroup = g then (none, line) else (some l, { line with gcGroup := g })
  if line.vsc = 0 then file .full .gcFull
  else if line.vsc < lm.highThrs then file .high .gcHigh
  else if line.vsc < lm.midThrs then file .mid .gcMid
  else if line.vsc < line.secInLine then file .low .gcLow
  else if line.vsc = line.secInLine then file .empty .gcEmpty
  else (some .corrupt, { line with state := .corrupt, gcGroup := .none })

/-- The `retry` loop of `pblk_line_get` over the free list, whose first line
it takes each time. -/
def lineGetLoop : List Nat → LineMgmt → Option Nat × LineMgmt
  | [], s => (none, s)
  | id :: rest, s =>
    let s := { s.del .free id with nrFreeLines := s.nrFreeLines - 1 }
    if lm.blkPerLine ≤ (s.lines id).badBlks then
      -- every block of the line is bad
      lineGetLoop rest ((s.modifyLine id fun l => { l with state := .bad }).addTail .bad id)
    else if !env.metaAlloc then
      -- `pblk_line_prepare` returns -ENOMEM: the line goes back
      (none, { s.addHead .free id with nrFreeLines := s.nrFreeLines + 1 })
    else if (s.lines id).state ≠ .free then
      -- -EAGAIN: a line on the free list that is not free
      lineGetLoop rest (s.addHead .corrupt id)
    else (some id, s.modifyLine id fun l => { l with state := .opened, ref := 1 })

def pblkLineGet (s : LineMgmt) : Option Nat × LineMgmt := lineGetLoop env lm (s.lists .free) s

def pblkLineErase (s : LineMgmt) (id : Nat) : Bool × LineMgmt :=
  let marked := env.eraseGrown id + if env.eraseFails id then 1 else 0
  (!env.eraseFails id, s.modifyLine id fun l =>
    { l with blkInLine := l.blkInLine - marked, badBlks := l.badBlks + marked })

/-- `pblk_line_free` as far as the line manager sees it. -/
def pblkLineFree (s : LineMgmt) (id : Nat) : LineMgmt :=
  s.modifyLine id fun l => { l with vsc := emptyEntry }

theorem lineGetLoop_lists_length {ids : List Nat} {s s' : LineMgmt} {id : Nat}
    (start : s.lists .free = ids) (got : lineGetLoop env lm ids s = (some id, s')) :
    (s'.lists .free).length < (s.lists .free).length := by
  induction ids generalizing s with
  | nil => simp [lineGetLoop] at got
  | cons head rest ih =>
    -- each branch has dropped the head of the free list before it loops or returns
    simp only [lineGetLoop] at got
    split at got
    · refine Nat.lt_trans (ih ?_ got) ?_ <;> simp [start]
    split at got
    · simp at got
    split at got
    · refine Nat.lt_trans (ih ?_ got) ?_ <;> simp [start]
    · simp only [Prod.mk.injEq] at got
      rw [← got.2]
      simp [start]

theorem lineGet_lists_length {s s' : LineMgmt} {id : Nat} (got : pblkLineGet env lm s = (some id, s')) :
    (s'.lists .free).length < (s.lists .free).length :=
  lineGetLoop_lists_length env lm rfl got

/-- One pass of `pblk_line_retry` with the line `r` it got: `line` is freed,
`r` becomes the stream's data line and is charged, then erased. -/
def retryStep (line nrb r : Nat) (s : LineMgmt) : Bool × LineMgmt :=
  let s := pblkLineFree (s.modifyLine r fun l => { l with pstream := nrb }) line
  pblkLineErase env (pblkRlFreeLinesDec { s with dataLine := Function.update s.dataLine nrb (some r) } r) r

-- `got` is read by the termination proof only
set_option linter.unusedVariables false in
def pblkLineRetry (line nrb : Nat) (s : LineMgmt) : Option Nat × LineMgmt :=
  match got : pblkLineGet env lm s with
  | (none, s') => (none, { s' with dataLine := Function.update s'.dataLine nrb none })
  | (some r, s') =>
    if (retryStep env line nrb r s').1 then (some r, (retryStep env line nrb r s').2)
    else pblkLineRetry line nrb (retryStep env line nrb r s').2
termination_by (s.lists .free).length
decreasing_by
  simpa [retryStep, pblkLineErase, pblkLineFree, pblkRlFreeLinesDec] using lineGet_lists_length env lm got

section Retry

variable {env lm} {line nrb : Nat} {s : LineMgmt}

theorem lineRetry_of_none {s' : LineMgmt} (taken : pblkLineGet env lm s = (none, s')) :
    pblkLineRetry env lm line nrb s = (none, { s' with dataLine := Function.update s'.dataLine nrb none }) := by
  rw [pblkLineRetry]
  split
  · next heq => simp_all
  · next heq => simp_all

theorem lineRetry_of_some {r : Nat} {s' : LineMgmt} (taken : pblkLineGet env lm s = (some r, s')) :
    pblkLineRetry env lm line nrb s =
      if (retryStep env line nrb r s').1 then (some r, (retryStep env line nrb r s').2)
      else pblkLineRetry env lm line nrb (retryStep env line nrb r s').2 := by
  rw [pblkLineRetry]
  split
  · next heq => simp_all
  · next heq =>
    rw [taken] at heq
    cases heq
    rfl

@[simp] theorem retryStep_lists (r : Nat) (s : LineMgmt) :
    (retryStep env line nrb r s).2.lists = s.lists := rfl

theorem lineRetry_lists_length {r : Nat} {s' : LineMgmt}
    (got : pblkLineRetry env lm line nrb s = (some r, s')) :
    (s'.lists .free).length < (s.lists .free).length := by
  induction s using pblkLineRetry.induct env lm line nrb with
  | case1 s s'' taken =>
    simp [lineRetry_of_none taken] at got
  | case2 s r' s'' taken erased =>
    rw [lineRetry_of_some taken, if_pos erased] at got
    cases got
    simpa using lineGet_lists_length env lm taken
  | case3 s r' s'' taken refused ih =>
    rw [lineRetry_of_some taken, if_neg refused] at got
    refine Nat.lt_trans (ih got) ?_
    simpa using lineGet_lists_length env lm taken

end Retry

/-- `pblk_line_init_bb` past its metadata writes: the sectors left for data
and the initial valid count. -/
def lineInitBb (s : LineMgmt) (id : Nat) : LineMgmt :=
  s.modifyLine id fun l =>
    let sec := lm.secPerLine - l.badBlks * lm.secPerBlk - lm.smetaSec - lm.emetaSec
    { l with secInLine := sec, vsc := sec }

/-- A line `pblk_line_init_metadata` or `pblk_line_init_bb` finds bad. -/
def markBad (s : LineMgmt) (id : Nat) : LineMgmt :=
  (s.modifyLine id fun l => { l with state := .bad }).addTail .bad id

set_option linter.unusedVariables false in
/-- The `retry_setup` loop of `pblk_line_get_first_data` and
`pblk_line_replace_data`: a line found bad is replaced by `pblk_line_retry`
and the new line set up again. -/
def setupLoop (nrb line : Nat) (s : LineMgmt) : Option Nat × LineMgmt :=
  if lm.blkPerLine < lm.minBlkLine + (s.lines line).badBlks then
    -- `pblk_line_init_metadata`: too few good blocks left after the erase
    match got : pblkLineRetry env lm line nrb (markBad s line) with
    | (none, s') => (none, s')
    | (some r, s') => setupLoop nrb r s'
  else if !env.bbOk line then
    match got : pblkLineRetry env lm line nrb (markBad (lineInitBb lm s line) line) with
    | (none, s') => (none, s')
    | (some r, s') => setupLoop nrb r s'
  else (some line, lineInitBb lm s line)
termination_by (s.lists .free).length
decreasing_by
  · simpa [markBad] using lineRetry_lists_length got
  · simpa [markBad, lineInitBb] using lineRetry_lists_length got

def pblkLineGetFirstData (s : LineMgmt) (nrb : Nat) : Option Nat × LineMgmt :=
  match pblkLineGet env lm s with
  | (none, s) => (none, s)
  | (some line, s) =>
    let s := { s.modifyLine line (fun l => { l with seqNr := s.dSeqNr, pstream := nrb }) with
      dSeqNr := s.dSeqNr + 1, dataLine := Function.update s.dataLine nrb (some line) }
    -- allocate the next line for preparation
    let (next, s) := pblkLineGet env lm s
    let s := match next with
      | none => { s with dataNext := Function.update s.dataNext nrb none }
      | some n => { s.modifyLine n (fun l => { l with seqNr := s.dSeqNr }) with
          dSeqNr := s.dSeqNr + 1, dataNext := Function.update s.dataNext nrb (some n) }
    let (erased, s) := pblkLineErase env s line
    match (if erased then (some line, s) else pblkLineRetry env lm line nrb s) with
    | (none, s) => (none, s)
    | (some line, s) =>
      let s := pblkRlFreeLinesDec s line
      -- `is_next`: `data_next[nrb]` still holds the next line
      let s := match next with
        | none => s
        | some n => pblkRlFreeLinesDec s n
      setupLoop env lm nrb line s

def pblkLineReplaceData (s : LineMgmt) (nrb : Nat) : LineMgmt :=
  match s.dataNext nrb with
  | none => s
  | some new =>
    let s := { s with dataLine := Function.update s.dataLine nrb (some new) }
    if s.state ≠ .running then
      { s with dataLine := Function.update s.dataLine nrb none, dataNext := Function.update s.dataNext nrb none }
    else
      let (erased, s) := pblkLineErase env s new
      if !erased then s
      else match setupLoop env lm nrb new s with
        | (none, s) => s
        | (some _, s) =>
          match pblkLineGet env lm s with
          | (none, s) =>
            -- `pblk_stop_writes`
            { s with state := .stopping, dataNext := Function.update s.dataNext nrb none }
          | (some n, s) =>
            pblkRlFreeLinesDec { s.modifyLine n (fun l => { l with seqNr := s.dSeqNr, pstream := nrb }) with
              dSeqNr := s.dSeqNr + 1, dataNext := Function.update s.dataNext nrb (some n) } n

def pblkLinePut (s : LineMgmt) (id : Nat) : LineMgmt :=
  let s := pblkLineFree (s.modifyLine id fun l => { l with state := .free, gcGroup := .none }) id
  pblkRlFreeLinesInc { s.addTail .free id with nrFreeLines := s.nrFreeLines + 1 } id

/-- `kref_put(&line->ref, pblk_line_put)` -/
def lineRefPut (s : LineMgmt) (id : Nat) : LineMgmt :=
  let s := s.modifyLine id fun l => { l with ref := l.ref - 1 }
  if (s.lines id).ref = 0 then pblkLinePut s id else s

/-- `kref_get(&line->ref)` in `pblk_map_page_data`, once for each sector it
maps onto the line; `__pblk_rb_update_l2p` drops it again with `lineRefPut`. -/
def lineRefGet (s : LineMgmt) (id : Nat) : LineMgmt :=
  s.modifyLine id fun l => { l with ref := l.ref + 1 }

def pblkPutLineBack (s : LineMgmt) (id : Nat) : LineMgmt :=
  match pblkLineGcList lm { s.lines id with state := .closed } with
  | (none, line) => s.modifyLine id fun _ => line
  | (some l, line) => (s.modifyLine id fun _ => line).addTail l id

/-- `pblk_line_close`; a line whose band is already the one it was filed
under gets a `NULL` list head. -/
def pblkLineClose (s : LineMgmt) (id : Nat) : Except Fault LineMgmt :=
  match pblkLineGcList lm { s.lines id with state := .closed } with
  | (none, _) => throw .wild
  | (some l, line) => pure ((s.modifyLine id fun _ => line).addTail l id)

/-- `__pblk_map_invalidate` of a sector of line `id`; `invalid` is the
sector's bit in `invalid_bitmap`. -/
def pblkMapInvalidate (s : LineMgmt) (id : Nat) (invalid : Bool) : LineMgmt :=
  let line := s.lines id
  if line.state = .gc ∨ line.state = .free then s
  -- a double invalidation only warns
  else if invalid then s
  else
    let line := { line with vsc := wrap32 ((line.vsc : Int) - 1) }
    if line.state = .closed then
      match pblkLineGcList lm line with
      | (none, line) => s.modifyLine id fun _ => line
      | (some l, line) => ((s.modifyLine id fun _ => line).unlink id).addTail l id
    else s.modifyLine id fun _ => line

/-- The first loop of `pblk_gc_run`: each line of `gc_full_list` is taken for
GC and its reference dropped. -/
def gcFreeFullLoop : List Nat → LineMgmt → LineMgmt
  | [], s => s
  | id :: rest, s =>
    let s := (s.modifyLine id fun l => { l with state := .gc }).del .gcFull id
    gcFreeFullLoop rest (lineRefPut s id)

/-- The second loop of `pblk_gc_run` for one victim line taken from GC list
`l` (`pblk_gc_get_victim_line`'s choice) onto the reader list. -/
def gcTakeVictim (s : LineMgmt) (l : LineList) (id : Nat) : LineMgmt :=
  ((s.modifyLine id fun ln => { ln with state := .gc }).del l id).addTail .gcRead id

def pblkGcRead (s : LineMgmt) : Option Nat × LineMgmt :=
  match s.lists .gcRead with
  | [] => (none, s)
  | id :: _ => (some id, s.del .gcRead id)

/-- The failure path of `pblk_gc_line_prepare_ws`. -/
def gcLineFailed (s : LineMgmt) (id : Nat) : LineMgmt :=
  lineRefPut (pblkPutLineBack lm s id) id

/-- The loop of `pblk_lines_init` over the lines: a line with fewer than
`min_blk_line` good blocks is bad, the others are free. -/
def linesInitLoop (bad : Nat → Nat) : List Nat → LineMgmt → LineMgmt
  | [], s => s
  | i :: rest, s =>
    let blkInLine : Int := (lm.blkPerLine : Int) - bad i
    if blkInLine < lm.minBlkLine then
      linesInitLoop bad rest ((s.modifyLine i fun l => { l with state := .bad }).addTail .bad i)
    else
      linesInitLoop bad rest { (s.modifyLine i fun l => { l with blkInLine := blkInLine }).addTail .free i with
        nrFreeLines := s.nrFreeLines + 1, freeBlocks := s.freeBlocks + blkInLine }

/-- The line manager as `pblk_lines_init` and `pblk_set_provision` leave it;
`bad i` is the number of bad blocks of line `i`. -/
def pblkLinesInit (nrLines : Nat) (bad : Nat → Nat) : LineMgmt :=
  let fresh (i : Nat) : Line :=
    { state := .free, gcGroup := .none, vsc := 0, secInLine := 0, blkInLine := 0, badBlks := bad i,
      seqNr := 0, pstream := 0, ref := 0 }
  linesInitLoop lm bad (List.range nrLines)
    { lines := fresh, lists := fun _ => [], nrFreeLines := 0, freeBlocks := 0, dSeqNr := 0,
      dataLine := fun _ => none, dataNext := fun _ => none, state := .running }

end Ops

/-! ## Spec lemmas -/

section Spec

variable {env : Env} {lm : LineMeta}

theorem lineGet_head {s : LineMgmt} {id : Nat} {rest : List Nat} (free : s.lists .free = id :: rest)
    (good : (s.lines id).badBlks < lm.blkPerLine) (alloc : env.metaAlloc = true)
    (isFree : (s.lines id).state = .free) :
    pblkLineGet env lm s = (some id, { s.del .free id with nrFreeLines := s.nrFreeLines - 1 }.modifyLine id
      fun l => { l with state := .opened, ref := 1 }) := by
  have usable : ¬ lm.blkPerLine ≤ (s.lines id).badBlks := Nat.not_le.mpr good
  simp [pblkLineGet, free, lineGetLoop, usable, alloc, isFree]

theorem setupLoop_ok {s : LineMgmt} {nrb line : Nat}
    (enough : lm.minBlkLine + (s.lines line).badBlks ≤ lm.blkPerLine) (bb : env.bbOk line = true) :
    setupLoop env lm nrb line s = (some line, lineInitBb lm s line) := by
  rw [setupLoop]
  simp [Nat.not_lt.mpr enough, bb]

theorem gcList_none {line : Line} (same : (pblkLineGcList lm line).1 = none) :
    (pblkLineGcList lm line).2 = line := by
  simp only [pblkLineGcList] at same ⊢
  split_ifs at same ⊢ <;> simp_all

@[simp] theorem gcList_pstream (line : Line) : (pblkLineGcList lm line).2.pstream = line.pstream := by
  simp only [pblkLineGcList]
  split_ifs <;> rfl

theorem gcList_empty {line : Line} (empty : line.vsc = 0) (group : line.gcGroup ≠ .full) :
    pblkLineGcList lm line = (some .gcFull, { line with gcGroup := .full }) := by
  simp [pblkLineGcList, empty, group]

theorem gcList_state {line : Line} (fits : line.vsc ≤ line.secInLine) :
    (pblkLineGcList lm line).2.state = line.state := by
  simp only [pblkLineGcList]
  split_ifs <;> first | rfl | omega

theorem putLineBack_same_band {s : LineMgmt} {id : Nat}
    (same : (pblkLineGcList lm { s.lines id with state := .closed }).1 = none) :
    (pblkPutLineBack lm s id).lists = s.lists ∧ ((pblkPutLineBack lm s id).lines id).state = .closed ∧
      ((pblkPutLineBack lm s id).lines id).gcGroup = (s.lines id).gcGroup := by
  have kept := gcList_none same
  unfold pblkPutLineBack
  split
  · next line filed =>
    rw [filed] at kept
    simp only at kept
    simp [kept]
  · next l line filed => simp [filed] at same

/-- GC takes a line from the GC list `l` it is filed on, the reader takes it,
and its preparation fails: if its valid count still gives the band it was filed
under, `pblk_put_line_back` leaves it closed, in that band, and on no list. -/
theorem gc_give_back_unlisted {s : LineMgmt} {l : LineList} {id : Nat}
    (filed : id ∈ s.lists l) (once : (s.lists l).Nodup) (only : ∀ l', id ∈ s.lists l' → l' = l)
    (idle : s.lists .gcRead = []) (gcList : l ≠ .gcRead)
    (same : (pblkLineGcList lm { s.lines id with state := .closed }).1 = none) :
    ∃ s', pblkGcRead (gcTakeVictim s l id) = (some id, s') ∧
      (∀ l', id ∉ (pblkPutLineBack lm s' id).lists l') ∧
      ((pblkPutLineBack lm s' id).lines id).state = .closed ∧
      ((pblkPutLineBack lm s' id).lines id).gcGroup = (s.lines id).gcGroup := by
  have read : pblkGcRead (gcTakeVictim s l id) = (some id, (gcTakeVictim s l id).del .gcRead id) := by
    simp [pblkGcRead, gcTakeVictim, idle, Ne.symm gcList]
  refine ⟨_, read, ?_⟩
  -- the state after the read differs from `s` only in the line's state and in the two lists
  have band : (pblkLineGcList lm { ((gcTakeVictim s l id).del .gcRead id).lines id with state := .closed }).1 =
      none := by
    simpa [gcTakeVictim] using same
  obtain ⟨lists, closed, group⟩ := putLineBack_same_band band
  refine ⟨fun l' => ?_, closed, by simpa [gcTakeVictim] using group⟩
  rw [lists]
  by_cases taken : l' = l
  · subst taken
    simp [gcTakeVictim, gcList, once.not_mem_erase]
  · by_cases reader : l' = .gcRead
    · subst reader
      simp [gcTakeVictim, Ne.symm gcList, idle]
    · have absent : id ∉ s.lists l' := fun mem => taken (only l' mem)
      simp [gcTakeVictim, taken, reader, absent]

end Spec

theorem line_get_first_data_retry_recharges {env : Env} {lm : LineMeta} {s : LineMgmt}
    {nrb l1 l2 l3 : Nat} {rest : List Nat}
    (free : s.lists .free = l1 :: l2 :: l3 :: rest) (distinct : (s.lists .free).Nodup)
    (ready : ∀ id ∈ [l1, l2, l3], (s.lines id).state = .free ∧ (s.lines id).badBlks < lm.blkPerLine)
    (alloc : env.metaAlloc = true) (refused : env.eraseFails l1 = true) (erased : env.eraseFails l3 = false)
    (enough : lm.minBlkLine + ((s.lines l3).badBlks + env.eraseGrown l3) ≤ lm.blkPerLine)
    (bb : env.bbOk l3 = true) :
    ∃ s', pblkLineGetFirstData env lm s nrb = (some l3, s') ∧
      s'.freeBlocks - s'.freeSum =
        s.freeBlocks - s.freeSum + ((s.lines l1).blkInLine - ((s.lines l3).blkInLine - env.eraseGrown l3)) := by
  rw [free] at distinct
  simp only [List.nodup_cons, List.mem_cons, not_or] at distinct
  obtain ⟨⟨n12, n13, out1⟩, ⟨n23, out2⟩, out3, -⟩ := distinct
  obtain ⟨⟨f1, g1⟩, ⟨f2, g2⟩, ⟨f3, g3⟩⟩ : _ ∧ _ ∧ _ :=
    ⟨ready l1 (by simp), ready l2 (by simp), ready l3 (by simp)⟩
  simp only [pblkLineGetFirstData, lineGet_head free g1 alloc f1]
  rw [@lineGet_head env lm _ l2 (l3 :: rest) ?free2 ?good2 alloc ?isFree2]
  case free2 => simp [free]
  case good2 => simp [Ne.symm n12, g2]
  case isFree2 => simp [Ne.symm n12, f2]
  simp only [pblkLineErase, refused, Bool.not_true, Bool.false_eq_true, if_false]
  rw [@lineRetry_of_some env lm l1 nrb _ l3 _ (@lineGet_head env lm _ l3 rest ?free3 ?good3 alloc ?isFree3)]
  case free3 => simp [free]
  case good3 => simp [Ne.symm n13, Ne.symm n23, g3]
  case isFree3 => simp [Ne.symm n13, Ne.symm n23, f3]
  simp only [retryStep, pblkLineErase, erased, Bool.not_false, if_true]
  rw [setupLoop_ok ?enough3 bb]
  case enough3 => simpa [pblkRlFreeLinesDec, pblkLineFree, Ne.symm n13, Ne.symm n23, erased] using enough
  refine ⟨_, rfl, ?_⟩
  -- the lines left on the free list are the ones after the three taken, untouched
  rw [@freeSum_of_frame _ s rest ?list ?frame]
  case list => simp [lineInitBb, pblkRlFreeLinesDec, pblkLineFree, free]
  case frame =>
    intro id mem
    have n1 : id ≠ l1 := fun same => out1 (same ▸ mem)
    have n2 : id ≠ l2 := fun same => out2 (same ▸ mem)
    have n3 : id ≠ l3 := fun same => out3 (same ▸ mem)
    simp [lineInitBb, pblkRlFreeLinesDec, pblkLineFree, n1, n2, n3]
  simp [freeSum, free, lineInitBb, pblkRlFreeLinesDec, pblkLineFree, n23, Ne.symm n12, Ne.symm n13, Ne.symm n23]
  omega

/-- Four lines of four blocks, at least two good (the geometry's
`min_blk_line`), 64 sectors each with the GC thresholds `pblk_lines_init` sets. -/
def fourLines : LineMeta :=
  { blkPerLine := 4, minBlkLine := 2, secPerLine := 64, secPerBlk := 16, smetaSec := 1, emetaSec := 1,
    midThrs := 16, highThrs := 32 }

def firstEraseFails : Env :=
  { metaAlloc := true, eraseGrown := fun _ => 0, eraseFails := fun id => id == 0, bbOk := fun _ => true }

/-- From `pblk_lines_init` with one bad block in line 2: `free_blocks` is 15,
the lines' good blocks. `pblk_line_get_first_data` takes lines 0 and 1, fails
to erase line 0 and gets line 2 from `pblk_line_retry`; `free_blocks` ends one
block above what the free list (line 3) holds. -/
theorem line_get_first_data_retry_recharges_at_start :
    ∃ s', pblkLineGetFirstData firstEraseFails fourLines (pblkLinesInit fourLines 4 fun i => if i = 2 then 1 else 0) 0 =
        (some 2, s') ∧ s'.freeBlocks - s'.freeSum = 1 := by
  obtain ⟨s', run, drift⟩ := @line_get_first_data_retry_recharges firstEraseFails fourLines
    (pblkLinesInit fourLines 4 fun i => if i = 2 then 1 else 0) 0 0 1 2 [3]
    (by decide) (by decide) (by decide) rfl rfl rfl (by decide) rfl
  exact ⟨s', run, by rw [drift]; decide⟩

/-- `pblk_line_get_first_data` tags the stream's first line with the stream
but not the next line it prepares: `data_next[nrb]` keeps the `pstream` of
its previous life. -/
theorem line_get_first_data_next_untagged {env : Env} {lm : LineMeta} {s : LineMgmt}
    {nrb l1 l2 : Nat} {rest : List Nat}
    (free : s.lists .free = l1 :: l2 :: rest) (distinct : l1 ≠ l2)
    (ready : ∀ id ∈ [l1, l2], (s.lines id).state = .free ∧ (s.lines id).badBlks < lm.blkPerLine)
    (alloc : env.metaAlloc = true) (erased : env.eraseFails l1 = false)
    (enough : lm.minBlkLine + ((s.lines l1).badBlks + env.eraseGrown l1) ≤ lm.blkPerLine)
    (bb : env.bbOk l1 = true) :
    ∃ s', pblkLineGetFirstData env lm s nrb = (some l1, s') ∧
      s'.dataLine nrb = some l1 ∧ (s'.lines l1).pstream = nrb ∧
      s'.dataNext nrb = some l2 ∧ (s'.lines l2).pstream = (s.lines l2).pstream := by
  obtain ⟨⟨f1, g1⟩, ⟨f2, g2⟩⟩ : _ ∧ _ := ⟨ready l1 (by simp), ready l2 (by simp)⟩
  simp only [pblkLineGetFirstData, lineGet_head free g1 alloc f1]
  rw [@lineGet_head env lm _ l2 rest ?free2 ?good2 alloc ?isFree2]
  case free2 => simp [free]
  case good2 => simp [Ne.symm distinct, g2]
  case isFree2 => simp [Ne.symm distinct, f2]
  simp only [pblkLineErase, erased, Bool.not_false, if_true]
  rw [setupLoop_ok ?enough1 bb]
  case enough1 => simpa [pblkRlFreeLinesDec, distinct, erased] using enough
  refine ⟨_, rfl, ?_⟩
  simp [lineInitBb, pblkRlFreeLinesDec, distinct, Ne.symm distinct]

def everyEraseCompletes : Env :=
  { metaAlloc := true, eraseGrown := fun _ => 0, eraseFails := fun _ => false, bbOk := fun _ => true }

/-- From `pblk_lines_init` over four good lines, stream 1's first line is
line 0, tagged 1, and its next line is line 1, still tagged 0. -/
theorem line_get_first_data_next_untagged_at_start :
    ∃ s', pblkLineGetFirstData everyEraseCompletes fourLines (pblkLinesInit fourLines 4 fun _ => 0) 1 =
        (some 0, s') ∧ s'.dataNext 1 = some 1 ∧ (s'.lines 1).pstream = 0 := by
  obtain ⟨s', run, -, -, next, tag⟩ := @line_get_first_data_next_untagged everyEraseCompletes fourLines
    (pblkLinesInit fourLines 4 fun _ => 0) 1 0 1 [2, 3]
    (by decide) (by decide) (by decide) rfl rfl (by decide) rfl
  exact ⟨s', run, next, by rw [tag]; decide⟩

end MStream.Lines
