import MStream.Lines

/-!
Garbage collection in pblk-gc.c under `CONFIG_PBLK_MULTIMAP`: the count
`pblk->gc_target` of closed lines GC may take, kept by hand next to the line
manager; and the victim choice of `pblk_gc_get_victim_line`. The batching of a
victim's valid sectors into GC requests by `pblk_gc_line_prepare_ws` is in
`MStream.Gc.Batch`.

A stream's map type (`lstream[s].map_type`) is fixed when the streams are set
up, so the functions that read it take `blockMap s`, whether stream `s` is
`BLOCK_MAP`. Each counted transition is the line manager's own step
(`MStream.Lines`) with the counter's update beside it.
-/

namespace MStream.Gc

open Machine Lines Lines.LineMgmt

structure GcState where
  mgmt : LineMgmt
  gcTarget : Int

section Target

variable (lm : LineMeta) (blockMap : Nat → Bool)

/-- What a line counts in `gc_target`: `1` unless its stream is block-mapped. -/
def targetOf (s : LineMgmt) (id : Nat) : Int := if blockMap (s.lines id).pstream then 0 else 1

def pblkLineCloseGc (t : GcState) (id : Nat) : Except Fault GcState := do
  let mgmt ← pblkLineClose lm t.mgmt id
  pure { mgmt, gcTarget := t.gcTarget + targetOf blockMap t.mgmt id }

def pblkPutLineBackGc (t : GcState) (id : Nat) : GcState :=
  { mgmt := pblkPutLineBack lm t.mgmt id, gcTarget := t.gcTarget + targetOf blockMap t.mgmt id }

/-- The first loop of `pblk_gc_run` with its `gc_target--` for every line of
`gc_full_list`; the loop changes no line's stream. -/
def gcRunFullGc (t : GcState) : GcState :=
  { mgmt := gcFreeFullLoop (t.mgmt.lists .gcFull) t.mgmt,
    gcTarget := t.gcTarget - ((t.mgmt.lists .gcFull).map (targetOf blockMap t.mgmt)).sum }

def gcTakeVictimGc (t : GcState) (l : LineList) (id : Nat) : GcState :=
  { mgmt := gcTakeVictim t.mgmt l id, gcTarget := t.gcTarget - targetOf blockMap t.mgmt id }

/-- `pblk_recov_l2p` for a recovered line it finds full: the line is closed
and moved to the GC list of its valid count (a `NULL` list head when its band
is unchanged); `gc_target` is not touched. -/
def recovCloseLine (t : GcState) (id : Nat) : Except Fault GcState :=
  match pblkLineGcList lm { t.mgmt.lines id with state := .closed } with
  | (none, _) => throw .wild
  | (some l, line) => pure { t with mgmt := ((t.mgmt.modifyLine id fun _ => line).unlink id).addTail l id }

/-- `pblk_gc_should_run`: GC is active, fewer blocks are free than the high
threshold, and `gc_target`, read as an `unsigned`, is not `0`. -/
def pblkGcShouldRun (gcActive : Bool) (need free : Nat) (t : GcState) : Bool :=
  gcActive && decide (free < need) && decide (0 < wrap32 t.gcTarget)

/-- What `gc_target` is meant to count: the closed lines below `nrLines`
whose stream is not block-mapped. -/
def closedTargets (nrLines : Nat) (s : LineMgmt) : Nat :=
  (List.range nrLines).countP fun id => (s.lines id).state = .closed ∧ blockMap (s.lines id).pstream = false

def drift (nrLines : Nat) (t : GcState) : Int := t.gcTarget - closedTargets blockMap nrLines t.mgmt

end Target

/-! ### The victim of a GC list -/

/-- `DATA_START_STREAM` -/
def dataStartStream : Nat := 4

section Victim

variable (blockMap : Nat → Bool) (invalidLine : Nat → Int) (s : LineMgmt)

/-- A line the scan may choose: its stream is not block-mapped, and it is not
the `invalid_line` of its data stream. -/
def eligible (id : Nat) : Bool :=
  !blockMap (s.lines id).pstream &&
    !(decide (dataStartStream ≤ (s.lines id).pstream) && decide (invalidLine (s.lines id).pstream = id))

/-- The scan of `pblk_gc_get_victim_line` without `PBLK_FORCE_GC_CB`, from the
victim so far; the `le32` counts are read as `int`. -/
def victimLoop : Nat → List Nat → Nat
  | victim, [] => victim
  | victim, id :: rest =>
    let line := s.lines id
    if toInt32 line.vsc = 0 then id
    else if dataStartStream ≤ line.pstream ∧ invalidLine line.pstream = id then victimLoop victim rest
    else if blockMap line.pstream then victimLoop victim rest
    -- a block-mapped victim gives way to the first line not skipped
    else if blockMap (s.lines victim).pstream then victimLoop id rest
    else if toInt32 line.vsc < toInt32 (s.lines victim).vsc then victimLoop id rest
    else victimLoop victim rest

/-- `pblk_gc_get_victim_line` on a non-empty GC list (`pblk_gc_run` checks
`list_empty` first): the scan starts from the list's first line. -/
def pblkGcGetVictimLine (head : Nat) (rest : List Nat) : Nat := victimLoop blockMap invalidLine s head (head :: rest)

end Victim

/-! ### The count against the lines -/

section Count

variable {lm : LineMeta} {blockMap : Nat → Bool}

theorem closedTargets_update {n j : Nat} {s s' : LineMgmt} (hj : j < n)
    (other : ∀ i, i ≠ j → s'.lines i = s.lines i) :
    closedTargets blockMap n s' +
        (if (s.lines j).state = .closed ∧ blockMap (s.lines j).pstream = false then 1 else 0) =
      closedTargets blockMap n s +
        (if (s'.lines j).state = .closed ∧ blockMap (s'.lines j).pstream = false then 1 else 0) := by
  -- the induction runs over the range; the line `j` is met once
  induction n with
  | zero => omega
  | succ n ih =>
    simp only [closedTargets, List.range_succ, List.countP_append, List.countP_singleton] at ih ⊢
    by_cases last : n = j
    · subst last
      have below : ∀ i ∈ List.range n, s'.lines i = s.lines i :=
        fun i mem => other i (Nat.ne_of_lt (List.mem_range.mp mem))
      rw [List.countP_congr fun i mem => by rw [below i mem]]
      split_ifs <;> simp_all
    · have same := other n last
      have := ih (by omega)
      simp only [same]
      omega

theorem closedTargets_close {n j : Nat} {s s' : LineMgmt} (hj : j < n)
    (other : ∀ i, i ≠ j → s'.lines i = s.lines i) (was : (s.lines j).state ≠ .closed)
    (now : (s'.lines j).state = .closed) (stream : (s'.lines j).pstream = (s.lines j).pstream) :
    (closedTargets blockMap n s' : Int) = closedTargets blockMap n s + targetOf blockMap s j := by
  have step := @closedTargets_update blockMap n j s s' hj other
  have off : ¬ ((s.lines j).state = .closed ∧ blockMap (s.lines j).pstream = false) := fun both => was both.1
  rw [if_neg off, Nat.add_zero] at step
  unfold targetOf
  cases hb : blockMap (s.lines j).pstream <;> simp [hb, now, stream] at step ⊢ <;> omega

theorem closedTargets_open {n j : Nat} {s s' : LineMgmt} (hj : j < n)
    (other : ∀ i, i ≠ j → s'.lines i = s.lines i) (was : (s.lines j).state = .closed)
    (now : (s'.lines j).state ≠ .closed) :
    (closedTargets blockMap n s' : Int) + targetOf blockMap s j = closedTargets blockMap n s := by
  have step := @closedTargets_update blockMap n j s s' hj other
  have off : ¬ ((s'.lines j).state = .closed ∧ blockMap (s'.lines j).pstream = false) := fun both => now both.1
  rw [if_neg off, Nat.add_zero] at step
  unfold targetOf
  cases hb : blockMap (s.lines j).pstream <;> simp [hb, was] at step ⊢ <;> omega

theorem closedTargets_file {n j : Nat} {s s' : LineMgmt} (hj : j < n) (was : (s.lines j).state ≠ .closed)
    (fits : (s.lines j).vsc ≤ (s.lines j).secInLine)
    (lines : s'.lines = Function.update s.lines j (pblkLineGcList lm { s.lines j with state := .closed }).2) :
    (closedTargets blockMap n s' : Int) = closedTargets blockMap n s + targetOf blockMap s j := by
  apply closedTargets_close hj (fun i ne => by simp [lines, ne]) was
  · simp [lines, @gcList_state lm { s.lines j with state := .closed } fits]
  · simp [lines]

theorem lineRefPut_lines_of_ne {s : LineMgmt} {j i : Nat} (other : i ≠ j) :
    (lineRefPut s j).lines i = s.lines i := by
  dsimp only [lineRefPut]
  split <;> simp [pblkLinePut, pblkLineFree, pblkRlFreeLinesInc, other]

theorem lineRefPut_not_closed {s : LineMgmt} {j : Nat} (gc : (s.lines j).state = .gc) :
    ((lineRefPut s j).lines j).state ≠ .closed := by
  dsimp only [lineRefPut]
  split <;> simp [pblkLinePut, pblkLineFree, pblkRlFreeLinesInc, gc]

/-- The first loop of `pblk_gc_run` takes every line of a `gc_full_list` of
distinct closed lines out of the count, one for each line it takes out of
`gc_target`. -/
theorem gcFreeFullLoop_count {n : Nat} {ids : List Nat} {s : LineMgmt} (once : ids.Nodup)
    (filed : ∀ j ∈ ids, (s.lines j).state = .closed ∧ j < n) :
    (closedTargets blockMap n (gcFreeFullLoop ids s) : Int) + (ids.map (targetOf blockMap s)).sum =
      closedTargets blockMap n s := by
  induction ids generalizing s with
  | nil => simp [gcFreeFullLoop]
  | cons j rest ih =>
    obtain ⟨fresh, once⟩ := List.nodup_cons.mp once
    obtain ⟨closed, hj⟩ := filed j (by simp)
    simp only [gcFreeFullLoop, List.map_cons, List.sum_cons]
    set s0 := (s.modifyLine j fun l => { l with state := .gc }).del .gcFull j
    set s1 := lineRefPut s0 j
    have other : ∀ i, i ≠ j → s1.lines i = s.lines i := fun i ne => by
      rw [lineRefPut_lines_of_ne ne]
      simp [s0, ne]
    have taken := lineRefPut_not_closed (s := s0) (j := j) (by simp [s0])
    -- the line taken leaves the count once, here; the rest is the induction
    have step := @closedTargets_open blockMap n j s s1 hj other closed taken
    have rest' : ∀ i ∈ rest, (s1.lines i).state = .closed ∧ i < n := fun i mem => by
      rw [other i (fun same => fresh (same ▸ mem))]
      exact filed i (by simp [mem])
    have sums : (rest.map (targetOf blockMap s1)).sum = (rest.map (targetOf blockMap s)).sum := by
      congr 1
      exact List.map_congr_left fun i mem => by simp only [targetOf, other i (fun same => fresh (same ▸ mem))]
    have ih' := ih once rest'
    rw [sums] at ih'
    omega

end Count

/-! ### How each transition moves `gc_target` against the count

`drift` is what `gc_target` holds beyond the closed lines GC may take. The
empty-line sweep of `pblk_gc_run` takes out of `gc_target` just the lines it
frees; the close of a full line during recovery lowers it by what the line
counts. -/

section Drift

variable {lm : LineMeta} {blockMap : Nat → Bool} {n id : Nat} {t t' : GcState}

theorem gcRunFullGc_drift (filed : ∀ j ∈ t.mgmt.lists .gcFull, (t.mgmt.lines j).state = .closed ∧ j < n)
    (once : (t.mgmt.lists .gcFull).Nodup) :
    drift blockMap n (gcRunFullGc blockMap t) = drift blockMap n t := by
  have sweep := @gcFreeFullLoop_count blockMap n _ t.mgmt once filed
  simp only [drift, gcRunFullGc]
  omega

theorem recovCloseLine_ok {l : LineList} {line : Line}
    (filed : pblkLineGcList lm { t.mgmt.lines id with state := .closed } = (some l, line)) :
    recovCloseLine lm t id = .ok { t with mgmt := ((t.mgmt.modifyLine id fun _ => line).unlink id).addTail l id } := by
  simp [recovCloseLine, filed]

theorem recovCloseLine_drift (hid : id < n) (unclosed : (t.mgmt.lines id).state ≠ .closed)
    (fits : (t.mgmt.lines id).vsc ≤ (t.mgmt.lines id).secInLine)
    (closed : recovCloseLine lm t id = .ok t') :
    drift blockMap n t' + targetOf blockMap t.mgmt id = drift blockMap n t := by
  unfold recovCloseLine at closed
  split at closed
  · cases closed
  · next l line filed =>
    cases pure_eq_ok.mp closed
    have kept : line = (pblkLineGcList lm { t.mgmt.lines id with state := .closed }).2 := by rw [filed]
    have count := @closedTargets_file lm blockMap n id t.mgmt
      (((t.mgmt.modifyLine id fun _ => line).unlink id).addTail l id) hid unclosed fits
      (by simp [kept, LineMgmt.modifyLine])
    simp only [drift]
    omega

end Drift

section VictimSpec

variable {blockMap : Nat → Bool} {invalidLine : Nat → Int} {s : LineMgmt}

theorem eligible_iff {id : Nat} :
    eligible blockMap invalidLine s id = true ↔
      blockMap (s.lines id).pstream = false ∧
        ¬ (dataStartStream ≤ (s.lines id).pstream ∧ invalidLine (s.lines id).pstream = id) := by
  unfold eligible
  by_cases data : dataStartStream ≤ (s.lines id).pstream <;>
    by_cases current : invalidLine (s.lines id).pstream = id <;>
    cases blockMap (s.lines id).pstream <;> simp [data, current]

theorem victimLoop_cons_live {victim id : Nat} {rest : List Nat} (live : toInt32 (s.lines id).vsc ≠ 0) :
    victimLoop blockMap invalidLine s victim (id :: rest) =
      victimLoop blockMap invalidLine s
        (if eligible blockMap invalidLine s id = true ∧ (blockMap (s.lines victim).pstream = true ∨
            toInt32 (s.lines id).vsc < toInt32 (s.lines victim).vsc) then id else victim) rest := by
  simp only [victimLoop, live, if_false]
  -- the two skip rules, then the two ways to take over
  by_cases skip : dataStartStream ≤ (s.lines id).pstream ∧ invalidLine (s.lines id).pstream = id
  · have bad : eligible blockMap invalidLine s id = false := by simp [eligible, skip.1, skip.2]
    simp [skip, bad]
  by_cases mapped : blockMap (s.lines id).pstream = true
  · have bad : eligible blockMap invalidLine s id = false := by simp [eligible, mapped]
    simp [skip, mapped, bad]
  have good : eligible blockMap invalidLine s id = true := eligible_iff.mpr ⟨by simpa using mapped, skip⟩
  by_cases victimMapped : blockMap (s.lines victim).pstream = true
  · simp [skip, mapped, victimMapped, good]
  · simp only [skip, mapped, victimMapped, good, if_false, Bool.false_eq_true, true_and, false_or]
    split_ifs <;> rfl

/-- With every line live, a victim that is not block-mapped stays the victim
until an eligible line has fewer valid sectors; whether it is eligible itself
is never looked at. -/
theorem victimLoop_keeps {victim : Nat} {l : List Nat} (unmapped : blockMap (s.lines victim).pstream = false)
    (live : ∀ id ∈ l, toInt32 (s.lines id).vsc ≠ 0)
    (fewest : ∀ id ∈ l, eligible blockMap invalidLine s id = true →
      toInt32 (s.lines victim).vsc ≤ toInt32 (s.lines id).vsc) :
    victimLoop blockMap invalidLine s victim l = victim := by
  induction l with
  | nil => rfl
  | cons id rest ih =>
    rw [victimLoop_cons_live (live id (by simp))]
    -- the victim is not block-mapped, and no eligible line is below it
    have stays : ¬ (eligible blockMap invalidLine s id = true ∧ (blockMap (s.lines victim).pstream = true ∨
        toInt32 (s.lines id).vsc < toInt32 (s.lines victim).vsc)) := by
      rintro ⟨good, mapped | lower⟩
      · simp [unmapped] at mapped
      · exact absurd (fewest id (by simp) good) (Int.not_le.mpr lower)
    rw [if_neg stays]
    exact ih (fun j mem => live j (by simp [mem])) (fun j mem => fewest j (by simp [mem]))

end VictimSpec

/-- The scan keeps the first line of a GC list as its victim unless an
eligible line has fewer valid sectors, and never checks that first line
against `invalid_line`: with no empty line, a first line of a data stream
that is its stream's `invalid_line` is returned over eligible lines with more
valid sectors. -/
theorem gc_victim_keeps_unchecked_head {blockMap : Nat → Bool} {invalidLine : Nat → Int} {s : LineMgmt}
    {head : Nat} {rest : List Nat} (unmapped : blockMap (s.lines head).pstream = false)
    (live : ∀ id ∈ head :: rest, toInt32 (s.lines id).vsc ≠ 0)
    (fewest : ∀ id ∈ rest, eligible blockMap invalidLine s id = true →
      toInt32 (s.lines head).vsc ≤ toInt32 (s.lines id).vsc) :
    pblkGcGetVictimLine blockMap invalidLine s head rest = head := by
  apply victimLoop_keeps unmapped live
  intro id mem good
  rcases List.mem_cons.mp mem with rfl | later
  · exact Int.le_refl _
  · exact fewest id later good

/-- Two closed lines of data stream 4 on a fresh device of four lines: line 0,
with one valid sector, is the stream's `invalid_line`; line 1 has five. -/
def twoClosed : LineMgmt :=
  let s := pblkLinesInit fourLines 4 fun _ => 0
  (s.modifyLine 0 fun l => { l with state := .closed, vsc := 1, pstream := 4 }).modifyLine 1
    fun l => { l with state := .closed, vsc := 5, pstream := 4 }

/-- `invalid_line` of each stream: line 0 for stream 4, `-1` elsewhere. -/
def lineZeroInvalid (stream : Nat) : Int := if stream = 4 then 0 else -1

theorem gc_victim_keeps_unchecked_head_invalid_line :
    eligible (fun _ => false) lineZeroInvalid twoClosed 0 = false ∧
      eligible (fun _ => false) lineZeroInvalid twoClosed 1 = true ∧
      pblkGcGetVictimLine (fun _ => false) lineZeroInvalid twoClosed 0 [1] = 0 :=
  ⟨by decide, by decide, gc_victim_keeps_unchecked_head (by decide) (by decide) (by decide)⟩

/-- A line recovered full with no valid sector is closed without a count, and
the empty-line sweep of the next `pblk_gc_run` takes it out of `gc_target`:
`gc_target` is one below the closed lines GC may take from then on, and when
there are none it is `-1`, which `pblk_gc_should_run` reads as a target. -/
theorem recov_close_gc_target_drifts {lm : LineMeta} {blockMap : Nat → Bool} {n id : Nat} {t : GcState}
    (counted : drift blockMap n t = 0) (hid : id < n)
    (opened : (t.mgmt.lines id).state = .opened) (mapped : blockMap (t.mgmt.lines id).pstream = false)
    (empty : (t.mgmt.lines id).vsc = 0) (group : (t.mgmt.lines id).gcGroup ≠ .full)
    (filed : ∀ j ∈ t.mgmt.lists .gcFull, (t.mgmt.lines j).state = .closed ∧ j < n)
    (once : (t.mgmt.lists .gcFull).Nodup) :
    ∃ t', recovCloseLine lm t id = .ok t' ∧ drift blockMap n t' = -1 ∧
      drift blockMap n (gcRunFullGc blockMap t') = -1 ∧
      (closedTargets blockMap n (gcRunFullGc blockMap t').mgmt = 0 →
        ∀ need free, free < need → pblkGcShouldRun true need free (gcRunFullGc blockMap t') = true) := by
  -- with no valid sector the line is filed on gc_full_list
  set line : Line := { t.mgmt.lines id with state := .closed, gcGroup := .full }
  have band := @gcList_empty lm { t.mgmt.lines id with state := .closed } empty group
  set t' : GcState := { t with mgmt := ((t.mgmt.modifyLine id fun _ => line).unlink id).addTail .gcFull id }
  have ran : recovCloseLine lm t id = .ok t' := recovCloseLine_ok band
  have lowered : drift blockMap n t' + targetOf blockMap t.mgmt id = drift blockMap n t :=
    recovCloseLine_drift hid (by simp [opened]) (by simp [empty]) ran
  have one : targetOf blockMap t.mgmt id = 1 := by simp [targetOf, mapped]
  rw [one, counted] at lowered
  -- the sweep sees gc_full_list with the line at its tail
  have absent : id ∉ t.mgmt.lists .gcFull := fun mem => by simp [(filed id mem).1] at opened
  have filed' : ∀ j ∈ t'.mgmt.lists .gcFull, (t'.mgmt.lines j).state = .closed ∧ j < n := by
    intro j mem
    simp only [t', addTail_lists, if_pos, unlink_lists, modifyLine_lists, List.erase_of_not_mem absent, List.mem_append,
      List.mem_singleton] at mem
    rcases mem with old | rfl
    · have ne : j ≠ id := fun same => absent (same ▸ old)
      simpa [t', ne] using filed j old
    · simp [t', line, hid]
  have once' : (t'.mgmt.lists .gcFull).Nodup := by
    simp only [t', addTail_lists, if_pos, unlink_lists, modifyLine_lists, List.erase_of_not_mem absent]
    refine List.nodup_append.mpr ⟨once, by simp, fun j mem k last => ?_⟩
    rw [List.mem_singleton.mp last]
    exact fun same => absent (same ▸ mem)
  have swept : drift blockMap n (gcRunFullGc blockMap t') = drift blockMap n t' := gcRunFullGc_drift filed' once'
  refine ⟨t', ran, by omega, by omega, fun gone need free fewer => ?_⟩
  have target : (gcRunFullGc blockMap t').gcTarget = -1 := by
    simp only [drift, gone] at swept lowered
    omega
  simp only [pblkGcShouldRun, target, Bool.true_and, Bool.and_eq_true, decide_eq_true_eq]
  exact ⟨fewer, by decide⟩

/-- The line manager after `pblk_line_recov_alloc` of line `0` on a fresh
device of four lines: the line is off the free list and open, with no valid
sector, and no line is closed. -/
def recoveringFirst : GcState :=
  { mgmt := ((pblkLinesInit fourLines 4 fun _ => 0).del .free 0).modifyLine 0 fun l => { l with state := .opened },
    gcTarget := 0 }

theorem recov_close_gc_target_drifts_at_start :
    ∃ t', recovCloseLine fourLines recoveringFirst 0 = .ok t' ∧ drift (fun _ => false) 4 t' = -1 ∧
      drift (fun _ => false) 4 (gcRunFullGc (fun _ => false) t') = -1 ∧
      (closedTargets (fun _ => false) 4 (gcRunFullGc (fun _ => false) t').mgmt = 0 →
        ∀ need free, free < need → pblkGcShouldRun true need free (gcRunFullGc (fun _ => false) t') = true) :=
  recov_close_gc_target_drifts (by decide) (by decide) (by decide) (by decide) (by decide) (by decide)
    (by decide) (by decide)

end MStream.Gc
