import Mathlib
import MStream.Reach

/-!
Start-up recovery, `pblk_recov_l2p` of pblk-recovery.c, against the media the
multi-stream writer leaves.

The writer side keeps, for each stream, one open data line. A line gets its
sequence number from the shared counter `l_mg->d_seq_nr` when
`pblk_line_get_first_data` or `pblk_line_replace_data` hands it to a stream
(`newLine`), and each write of a stream goes to the next data sector of that
stream's line (`write`). The trace records the device writes in the order the
writers submitted them.

Recovery reads the smeta of every line (a line never handed out has none),
inserts the lines into `recov_list` by sequence number
(`pblk_recov_line_add_ordered`) and replays each line's data sectors in order
through `pblk_update_map`. For a closed line the lbas come from emeta
(`pblk_recov_l2p_from_emeta`), for an open one from the sectors' out-of-band
area (`pblk_recov_l2p_from_oob`); both give the written sectors in order, which
is what `lbas` holds, padding as `ADDR_EMPTY` (`none`). The L2P table is kept
as what a lookup returns, a device sector `(line, position)` or nothing:
`pblk_update_map` sets the entry. The valid counts and the invalid bitmaps
recovery also rebuilds are left out.
-/

namespace MStream.Recovery

/-- A device data sector: a line id and the position of the sector in it. -/
abbrev Sector := Nat × Nat

/-- A line as recovery reads it: its id, the sequence number of its smeta and
the lbas of its written data sectors. -/
structure RecovLine where
  id : Nat
  seqNr : Nat
  lbas : List (Option Nat)
  deriving DecidableEq, Repr

/-- `pblk_recov_line_add_ordered`: insert before the first line of a larger
sequence number. -/
def recovLineAddOrdered (line : RecovLine) : List RecovLine → List RecovLine
  | [] => [line]
  | t :: rest => if line.seqNr < t.seqNr then line :: t :: rest else t :: recovLineAddOrdered line rest

/-- The loop of `pblk_recov_l2p_from_emeta` from the sector at position `i`. -/
def replaySectors (lid : Nat) : Nat → List (Option Nat) → (Nat → Option Sector) → Nat → Option Sector
  | _, [], l2p => l2p
  | i, none :: rest, l2p => replaySectors lid (i + 1) rest l2p
  | i, some lba :: rest, l2p => replaySectors lid (i + 1) rest (Function.update l2p lba (some (lid, i)))

def pblkRecovL2pFromEmeta (l2p : Nat → Option Sector) (line : RecovLine) : Nat → Option Sector :=
  replaySectors line.id 0 line.lbas l2p

/-- `pblk_recov_l2p` from the table `pblk_l2p_init` leaves, for the lines
whose smeta it found, in line id order. -/
def pblkRecovL2p (found : List RecovLine) : Nat → Option Sector :=
  (found.foldl (fun recov line => recovLineAddOrdered line recov) []).foldl pblkRecovL2pFromEmeta fun _ => none

/-! ## The writers -/

/-- What a data line holds on the media. -/
structure LineImage where
  seqNr : Nat
  lbas : List (Option Nat)
  deriving DecidableEq, Repr

structure Writer where
  media : Nat → Option LineImage
  dSeqNr : Nat
  dataLine : Nat → Option Nat
  trace : List (Nat × Sector)

inductive WriterOp where
  /-- line `lid` becomes the data line of stream `nrb` -/
  | newLine (nrb lid : Nat)
  /-- the writer of stream `nrb` writes `lba` to its data line -/
  | write (nrb lba : Nat)
  deriving DecidableEq, Repr

def writerStep (w : Writer) : WriterOp → Writer
  | .newLine nrb lid =>
    { w with media := Function.update w.media lid (some ⟨w.dSeqNr, []⟩), dSeqNr := w.dSeqNr + 1,
             dataLine := Function.update w.dataLine nrb (some lid) }
  | .write nrb lba =>
    match w.dataLine nrb with
    | none => w
    | some lid =>
      match w.media lid with
      | none => w
      | some img =>
        { w with media := Function.update w.media lid (some { img with lbas := img.lbas ++ [some lba] }),
                 trace := w.trace ++ [(lba, (lid, img.lbas.length))] }

def writerInit : Writer := ⟨fun _ => none, 0, fun _ => none, []⟩

def writerRun (ops : List WriterOp) : Writer := ops.foldl writerStep writerInit

/-- The lines of `nrLines` whose smeta recovery finds, in id order. -/
def recovFound (w : Writer) (nrLines : Nat) : List RecovLine :=
  (List.range nrLines).filterMap fun i => (w.media i).map fun img => ⟨i, img.seqNr, img.lbas⟩

/-- Where the last write of `lba` the writers submitted went. -/
def latestWrite (trace : List (Nat × Sector)) (lba : Nat) : Option Sector :=
  ((trace.filter fun e => e.1 = lba).getLast?).map Prod.snd

/-! ## What recovery computes -/

section Replay

variable {x : Nat}

theorem replaySectors_absent {lid i : Nat} {lbas : List (Option Nat)} {l2p : Nat → Option Sector}
    (absent : some x ∉ lbas) : replaySectors lid i lbas l2p x = l2p x := by
  induction lbas generalizing i l2p with
  | nil => rfl
  | cons head rest ih =>
    have other : head ≠ some x ∧ some x ∉ rest := by simpa [eq_comm] using absent
    cases head with
    | none => exact ih other.2
    | some lba =>
      have differs : x ≠ lba := fun same => other.1 (by rw [same])
      rw [replaySectors, ih other.2, Function.update_of_ne differs]

theorem replaySectors_present {lid i : Nat} {lbas : List (Option Nat)} {l2p : Nat → Option Sector}
    (present : some x ∈ lbas) : ∃ p, replaySectors lid i lbas l2p x = some (lid, p) := by
  induction lbas generalizing i l2p with
  | nil => simp at present
  | cons head rest ih =>
    -- the last occurrence decides: a later one overwrites, an earlier one survives the rest
    by_cases later : some x ∈ rest
    · cases head with
      | none => exact ih later
      | some lba => exact ih later
    · have first : head = some x := by simpa [later, eq_comm] using present
      subst first
      refine ⟨i, ?_⟩
      rw [replaySectors, replaySectors_absent later]
      simp

def Holds (x : Nat) (line : RecovLine) : Prop := some x ∈ line.lbas

theorem replay_untouched {lines : List RecovLine} {l2p : Nat → Option Sector}
    (none_holds : ∀ line ∈ lines, ¬ Holds x line) : lines.foldl pblkRecovL2pFromEmeta l2p x = l2p x := by
  induction lines generalizing l2p with
  | nil => rfl
  | cons line rest ih =>
    rw [List.foldl_cons, ih fun l mem => none_holds l (List.mem_cons_of_mem line mem)]
    exact replaySectors_absent (none_holds line List.mem_cons_self)

/-- Replaying lines in ascending sequence order leaves `x` in the last line
that holds it, which has the largest sequence number of those. -/
theorem replay_sorted_last {lines : List RecovLine} {l2p : Nat → Option Sector}
    (sorted : lines.Pairwise fun a b => a.seqNr ≤ b.seqNr) (some_holds : ∃ line ∈ lines, Holds x line) :
    ∃ line ∈ lines, Holds x line ∧ (∀ other ∈ lines, Holds x other → other.seqNr ≤ line.seqNr) ∧
      ∃ p, lines.foldl pblkRecovL2pFromEmeta l2p x = some (line.id, p) := by
  induction lines generalizing l2p with
  | nil => simp at some_holds
  | cons head rest ih =>
    obtain ⟨head_le, rest_sorted⟩ := List.pairwise_cons.mp sorted
    rw [List.foldl_cons]
    by_cases later : ∃ line ∈ rest, Holds x line
    · -- a later line overwrites: the result comes from the rest
      obtain ⟨line, mem, holds, largest, p, read⟩ := ih rest_sorted later
      refine ⟨line, List.mem_cons_of_mem head mem, holds, ?_, p, read⟩
      intro other other_mem other_holds
      rcases List.mem_cons.mp other_mem with rfl | tail
      · exact head_le line mem
      · exact largest other tail other_holds
    · -- only the head holds `x`, and nothing after it touches it
      have none_later : ∀ line ∈ rest, ¬ Holds x line := fun line mem holds => later ⟨line, mem, holds⟩
      have head_holds : Holds x head := by
        obtain ⟨line, mem, holds⟩ := some_holds
        rcases List.mem_cons.mp mem with rfl | tail
        · exact holds
        · exact absurd holds (none_later line tail)
      obtain ⟨p, read⟩ := @replaySectors_present x head.id 0 head.lbas l2p head_holds
      refine ⟨head, List.mem_cons_self, head_holds, ?_, p, ?_⟩
      · intro other other_mem other_holds
        rcases List.mem_cons.mp other_mem with rfl | tail
        · exact Nat.le_refl _
        · exact absurd other_holds (none_later other tail)
      · rw [replay_untouched none_later]
        exact read

end Replay

section Order

theorem recovLineAddOrdered_mem {line l : RecovLine} {recov : List RecovLine} :
    l ∈ recovLineAddOrdered line recov ↔ l = line ∨ l ∈ recov := by
  induction recov with
  | nil => simp [recovLineAddOrdered]
  | cons t rest ih =>
    unfold recovLineAddOrdered
    split <;> simp [ih, or_left_comm]

theorem recovLineAddOrdered_sorted {line : RecovLine} {recov : List RecovLine}
    (sorted : recov.Pairwise fun a b => a.seqNr ≤ b.seqNr) :
    (recovLineAddOrdered line recov).Pairwise fun a b => a.seqNr ≤ b.seqNr := by
  induction recov with
  | nil => simp [recovLineAddOrdered]
  | cons t rest ih =>
    obtain ⟨t_le, rest_sorted⟩ := List.pairwise_cons.mp sorted
    unfold recovLineAddOrdered
    split
    · next before =>
      -- `line` goes first: it is below `t`, and `t` below the rest
      refine List.pairwise_cons.mpr ⟨?_, sorted⟩
      intro l mem
      rcases List.mem_cons.mp mem with rfl | tail
      · exact Nat.le_of_lt before
      · exact Nat.le_trans (Nat.le_of_lt before) (t_le l tail)
    · next after =>
      refine List.pairwise_cons.mpr ⟨?_, ih rest_sorted⟩
      intro l mem
      rcases recovLineAddOrdered_mem.mp mem with rfl | tail
      · exact Nat.le_of_not_lt after
      · exact t_le l tail

theorem recovList_sorted (found : List RecovLine) :
    let recov := found.foldl (fun recov line => recovLineAddOrdered line recov) []
    (recov.Pairwise fun a b => a.seqNr ≤ b.seqNr) ∧ ∀ l, l ∈ recov ↔ l ∈ found := by
  suffices general : ∀ start : List RecovLine, (start.Pairwise fun a b => a.seqNr ≤ b.seqNr) →
      let recov := found.foldl (fun recov line => recovLineAddOrdered line recov) start
      (recov.Pairwise fun a b => a.seqNr ≤ b.seqNr) ∧ ∀ l, l ∈ recov ↔ l ∈ found ∨ l ∈ start by
    obtain ⟨sorted, mem⟩ := general [] List.Pairwise.nil
    exact ⟨sorted, fun l => by simpa using mem l⟩
  induction found with
  | nil => intro start sorted; simpa using sorted
  | cons line rest ih =>
    intro start sorted
    obtain ⟨sorted', mem⟩ := ih _ (@recovLineAddOrdered_sorted line _ sorted)
    refine ⟨sorted', fun l => ?_⟩
    rw [List.foldl_cons, mem l, recovLineAddOrdered_mem]
    simp only [List.mem_cons]
    tauto

/-- Recovery maps `x` into the found line of largest sequence number that
holds it. -/
theorem recovL2p_highest {found : List RecovLine} {x : Nat} (some_holds : ∃ line ∈ found, Holds x line) :
    ∃ line ∈ found, Holds x line ∧ (∀ other ∈ found, Holds x other → other.seqNr ≤ line.seqNr) ∧
      ∃ p, pblkRecovL2p found x = some (line.id, p) := by
  obtain ⟨sorted, same⟩ := recovList_sorted found
  obtain ⟨line, mem, holds, largest, read⟩ :=
    @replay_sorted_last x _ (fun _ => none) sorted (by simpa [same] using some_holds)
  exact ⟨line, (same line).mp mem, holds, fun other mem' => largest other ((same other).mpr mem'), read⟩

end Order

theorem recovFound_mem {w : Writer} {n : Nat} {line : RecovLine} :
    line ∈ recovFound w n ↔ line.id < n ∧ ∃ img, w.media line.id = some img ∧ line = ⟨line.id, img.seqNr, img.lbas⟩ := by
  constructor
  · intro mem
    obtain ⟨i, range, found⟩ := List.mem_filterMap.mp mem
    obtain ⟨img, media, rfl⟩ := Option.map_eq_some_iff.mp found
    exact ⟨List.mem_range.mp range, img, media, rfl⟩
  · rintro ⟨bound, img, media, shape⟩
    refine List.mem_filterMap.mpr ⟨line.id, List.mem_range.mpr bound, ?_⟩
    rw [media, shape]
    rfl

/-- Recovery never maps a scanned lba into a line older than another scanned
line that holds it. -/
theorem recovL2p_not_older {w : Writer} {n x lid lid' : Nat} {img img' : LineImage}
    (written : w.media lid = some img) (other : w.media lid' = some img') (scanned : lid' < n)
    (holds : some x ∈ img'.lbas) (behind : img.seqNr < img'.seqNr) (p : Nat) :
    pblkRecovL2p (recovFound w n) x ≠ some (lid, p) := by
  -- the newer line is found, so recovery reads `x` from a line at least as new
  have newer_found : (⟨lid', img'.seqNr, img'.lbas⟩ : RecovLine) ∈ recovFound w n :=
    recovFound_mem.mpr ⟨scanned, img', other, rfl⟩
  obtain ⟨line, mem, -, largest, p', read⟩ := recovL2p_highest ⟨_, newer_found, holds⟩
  have at_least : img'.seqNr ≤ line.seqNr := largest _ newer_found holds
  rw [read]
  intro same
  have same_line : line.id = lid := (Prod.mk.inj (Option.some.inj same)).1
  obtain ⟨-, img'', media, shape⟩ := recovFound_mem.mp mem
  rw [same_line, written] at media
  cases media
  rw [shape] at at_least
  exact absurd behind (Nat.not_lt.mpr at_least)

theorem recov_l2p_misses_latest {w : Writer} {n x lid lid' : Nat} {img img' : LineImage}
    (latest : ∃ pos, latestWrite w.trace x = some (lid, pos))
    (written : w.media lid = some img) (other : w.media lid' = some img') (scanned : lid' < n)
    (holds : some x ∈ img'.lbas) (behind : img.seqNr < img'.seqNr) :
    pblkRecovL2p (recovFound w n) x ≠ latestWrite w.trace x := by
  obtain ⟨pos, latest⟩ := latest
  rw [latest]
  exact recovL2p_not_older written other scanned holds behind pos

/-- Streams 0 and 1 get lines 0 and 1, with sequence numbers 0 and 1. Lba 5
is written by stream 1, then again by stream 0. -/
def twoStreams : List WriterOp := [.newLine 0 0, .newLine 1 1, .write 1 5, .write 0 5]

/-- The last write of lba 5 is sector 0 of line 0; recovery replays line 0
first and maps lba 5 to the older copy, sector 0 of line 1. -/
theorem recov_l2p_misses_latest_two_streams :
    pblkRecovL2p (recovFound (writerRun twoStreams) 2) 5 = some (1, 0) ∧
      latestWrite (writerRun twoStreams).trace 5 = some (0, 0) ∧
      pblkRecovL2p (recovFound (writerRun twoStreams) 2) 5 ≠ latestWrite (writerRun twoStreams).trace 5 :=
  ⟨by decide, by decide,
    @recov_l2p_misses_latest (writerRun twoStreams) 2 5 0 1 ⟨0, [some 5]⟩ ⟨1, [some 5]⟩
      ⟨0, by decide⟩ (by decide) (by decide) (by decide) (by decide) (by decide)⟩

/-! ## Runs of the writers

`pblk_line_get` hands a stream an erased line, one the media holds nothing of
(`writerAllows`). Over a run of such steps the media keeps every write the
trace records (`Traced`), and a line keeps the sequence number it was handed
out with, so that of two lines the one handed out later has the larger. -/

/-- What the callers guarantee: a new data line is one the media does not hold yet. -/
def writerAllows (w : Writer) : WriterOp → Bool
  | .newLine _ lid => (w.media lid).isNone
  | .write _ _ => true

/-- Every write of the trace sits on the media, at the sector it went to. -/
def Traced (w : Writer) : Prop :=
  ∀ e ∈ w.trace, ∃ img, w.media e.2.1 = some img ∧ img.lbas[e.2.2]? = some (some e.1)

section Runs

open Reach

variable {w : Writer} {op : WriterOp}

/-- A write either finds no line for its stream and changes nothing, or goes
to the next sector of the stream's line and is recorded. -/
theorem writerStep_write (nrb lba : Nat) :
    writerStep w (.write nrb lba) = w ∨ ∃ lid img, w.media lid = some img ∧
      writerStep w (.write nrb lba) = { w with
        media := Function.update w.media lid (some { img with lbas := img.lbas ++ [some lba] })
        trace := w.trace ++ [(lba, (lid, img.lbas.length))] } := by
  simp only [writerStep]
  split
  · exact .inl rfl
  · next lid _ =>
    split
    · exact .inl rfl
    · next img found => exact .inr ⟨lid, img, found, rfl⟩

theorem writerStep_dSeqNr : w.dSeqNr ≤ (writerStep w op).dSeqNr := by
  cases op with
  | newLine nrb lid => exact Nat.le_succ _
  | write nrb lba =>
    rcases writerStep_write nrb lba with same | ⟨lid, img, -, stepped⟩
    · rw [same]
    · rw [stepped]

theorem writerStep_seqNr {lid : Nat} {img : LineImage} (allowed : writerAllows w op = true)
    (held : w.media lid = some img) :
    ∃ img', (writerStep w op).media lid = some img' ∧ img'.seqNr = img.seqNr := by
  cases op with
  | newLine nrb lid' =>
    -- the line handed out is not on the media, so it is another line
    have other : lid ≠ lid' := by
      rintro rfl
      simp [writerAllows, held] at allowed
    exact ⟨img, by simp [writerStep, Function.update_of_ne other, held], rfl⟩
  | write nrb lba =>
    rcases writerStep_write nrb lba with same | ⟨lid0, img0, found, stepped⟩
    · exact ⟨img, by rw [same, held], rfl⟩
    · rw [stepped]
      by_cases same : lid = lid0
      · subst same
        rw [held] at found
        cases found
        exact ⟨{ img with lbas := img.lbas ++ [some lba] }, by simp, rfl⟩
      · exact ⟨img, by simp [Function.update_of_ne same, held], rfl⟩

theorem writerStep_traced (allowed : writerAllows w op = true) (traced : Traced w) : Traced (writerStep w op) := by
  cases op with
  | newLine nrb lid =>
    intro e mem
    obtain ⟨img, media, sector⟩ := traced e mem
    have other : e.2.1 ≠ lid := by
      intro same
      simp [writerAllows, ← same, media] at allowed
    exact ⟨img, by simp [writerStep, Function.update_of_ne other, media], sector⟩
  | write nrb lba =>
    rcases writerStep_write nrb lba with same | ⟨lid0, img0, found, stepped⟩
    · rw [same]
      exact traced
    rw [stepped]
    intro e mem
    rcases List.mem_append.mp mem with old | new
    · -- an earlier write keeps its sector: the line only grows
      obtain ⟨img, media, sector⟩ := traced e old
      by_cases same : e.2.1 = lid0
      · rw [same, found] at media
        cases media
        obtain ⟨bound, -⟩ := List.getElem?_eq_some_iff.mp sector
        refine ⟨{ img0 with lbas := img0.lbas ++ [some lba] }, by simp [same], ?_⟩
        rw [List.getElem?_append_left bound]
        exact sector
      · exact ⟨img, by simp [Function.update_of_ne same, media], sector⟩
    · -- the new write sits just past the line's old sectors
      rw [List.mem_singleton.mp new]
      exact ⟨{ img0 with lbas := img0.lbas ++ [some lba] }, by simp, by simp⟩

theorem run_traced (ops : List WriterOp) (allowed : admits writerAllows writerStep writerInit ops = true) :
    Traced (writerRun ops) :=
  foldl_invariant_of_admits Traced (fun _ _ traced ok => writerStep_traced ok traced) ops writerInit
    (fun _ none => by cases none) allowed

theorem run_seqNr {lid : Nat} {img : LineImage} (ops : List WriterOp)
    (allowed : admits writerAllows writerStep w ops = true) (held : w.media lid = some img) :
    ∃ img', (ops.foldl writerStep w).media lid = some img' ∧ img'.seqNr = img.seqNr := by
  refine foldl_invariant_of_admits (fun w => ∃ img', w.media lid = some img' ∧ img'.seqNr = img.seqNr)
    (fun _ _ kept ok => ?_) ops w ⟨img, held, rfl⟩ allowed
  obtain ⟨img', media, seq⟩ := kept
  obtain ⟨img'', media', seq'⟩ := writerStep_seqNr ok media
  exact ⟨img'', media', seq'.trans seq⟩

theorem run_dSeqNr (ops : List WriterOp) : w.dSeqNr ≤ (ops.foldl writerStep w).dSeqNr :=
  foldl_invariant (fun w' => w.dSeqNr ≤ w'.dSeqNr) (fun _ _ le => le.trans writerStep_dSeqNr) ops w (Nat.le_refl _)

/-- Of two lines a run hands out one after the other, the later has the larger
sequence number, and both stay on the media. -/
theorem run_handed_later {ops pre mid post : List WriterOp} {a b la lb : Nat}
    (opened : ops = pre ++ .newLine a la :: mid ++ .newLine b lb :: post)
    (allowed : admits writerAllows writerStep writerInit ops = true) :
    ∃ imgA imgB, (writerRun ops).media la = some imgA ∧ (writerRun ops).media lb = some imgB ∧
      imgA.seqNr < imgB.seqNr := by
  subst opened
  simp only [admits_append, admits_cons, Bool.and_eq_true, List.foldl_append, List.foldl_cons] at allowed
  obtain ⟨⟨-, okA, midOk⟩, okB, postOk⟩ := allowed
  simp only [writerRun, List.foldl_append, List.foldl_cons]
  generalize pre.foldl writerStep writerInit = w1 at okA midOk okB postOk ⊢
  -- line `la` gets the counter as it stands, and the counter moves past it
  have atA : (writerStep w1 (.newLine a la)).media la = some ⟨w1.dSeqNr, []⟩ := by simp [writerStep]
  obtain ⟨imgA3, atA3, seqA3⟩ := run_seqNr mid midOk atA
  have counted : w1.dSeqNr + 1 ≤ (mid.foldl writerStep (writerStep w1 (.newLine a la))).dSeqNr :=
    run_dSeqNr (w := writerStep w1 (.newLine a la)) mid
  generalize mid.foldl writerStep (writerStep w1 (.newLine a la)) = w3 at atA3 counted okB postOk ⊢
  -- line `lb` gets the counter after that
  have atB : (writerStep w3 (.newLine b lb)).media lb = some ⟨w3.dSeqNr, []⟩ := by simp [writerStep]
  obtain ⟨imgA4, atA4, seqA4⟩ := writerStep_seqNr okB atA3
  obtain ⟨imgA, finalA, seqA⟩ := run_seqNr post postOk atA4
  obtain ⟨imgB, finalB, seqB⟩ := run_seqNr post postOk atB
  refine ⟨imgA, imgB, finalA, finalB, ?_⟩
  rw [seqA, seqA4, seqA3, seqB]
  exact counted

end Runs

end MStream.Recovery
