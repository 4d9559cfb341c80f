import MStream.Circ
import MStream.Reach
import MStream.Address
import MStream.Machine

/-!
The write buffer of pblk-rb.c. A ring of `2 ^ power` entries is walked by four
pointers: producers claim entries at `mem`, the writer thread commits them for
submission at `subm`, completions advance `sync` once the media has persisted
them, and `l2p_update` trails behind, recycling persisted entries (their L2P
entry is moved to the device address and the write context is cleaned) only
when a producer needs the space.

`pblk_rb_update_l2p` returns the entries it recycles, in ring order, so that the
L2P model can apply `pblk_update_map_dev` to each; the buffer itself only
cleans them. `clean_wctx` also spins until the writer has marked the entry
submitted; the model cleans at once, which is what it does once the writer has
passed the entry. The rate-limiter counters updated alongside (`pblk_rl_out`)
live in `struct pblk_rl_per_rb` and are left to the cache model.
-/

namespace MStream.RingBuffer

open Circ Reach Address

/-- The write-context flag bits of pblk.h (`PBLK_IOTYPE_USER` to
`PBLK_INVALIDATE_ENTRY`); pblk only ever tests, sets and clears single bits. -/
structure Flags where
  user : Bool := false
  gc : Bool := false
  flush : Bool := false
  written : Bool := false
  submitted : Bool := false
  writable : Bool := false
  reserved : Bool := false
  waitread : Bool := false
  invalidate : Bool := false
  deriving DecidableEq, Repr

def Flags.writableOnly : Flags := { writable := true }

/-- `struct pblk_w_ctx`; `bios` holds the bios to end when the entry is
persisted (`bio_list`, appended at the tail). -/
structure WCtx where
  bios : List Nat
  lba : Nat
  ppa : PpaAddr
  flags : Flags
  submitFlags : Flags

/-- `struct pblk_rb`; `EMPTY_ENTRY` in `sync_point` is `none`. -/
structure Rb where
  index : Nat
  power : Nat
  mem : Nat
  subm : Nat
  sync : Nat
  syncPoint : Option Nat
  l2pUpdate : Nat
  nrUser : Nat
  entries : Nat → WCtx

namespace Rb

def nrEntries (rb : Rb) : Nat := 2 ^ rb.power

theorem nrEntries_pos (rb : Rb) : 0 < rb.nrEntries := Nat.two_pow_pos _

def setEntry (rb : Rb) (pos : Nat) (w : WCtx) : Rb :=
  { rb with entries := Function.update rb.entries pos w }

@[simp] theorem setEntry_mem (rb : Rb) (pos : Nat) (w : WCtx) :
    (rb.setEntry pos w).mem = rb.mem := rfl
@[simp] theorem setEntry_subm (rb : Rb) (pos : Nat) (w : WCtx) :
    (rb.setEntry pos w).subm = rb.subm := rfl
@[simp] theorem setEntry_sync (rb : Rb) (pos : Nat) (w : WCtx) :
    (rb.setEntry pos w).sync = rb.sync := rfl
@[simp] theorem setEntry_l2pUpdate (rb : Rb) (pos : Nat) (w : WCtx) :
    (rb.setEntry pos w).l2pUpdate = rb.l2pUpdate := rfl
@[simp] theorem setEntry_syncPoint (rb : Rb) (pos : Nat) (w : WCtx) :
    (rb.setEntry pos w).syncPoint = rb.syncPoint := rfl
@[simp] theorem setEntry_nrUser (rb : Rb) (pos : Nat) (w : WCtx) :
    (rb.setEntry pos w).nrUser = rb.nrUser := rfl
@[simp] theorem setEntry_power (rb : Rb) (pos : Nat) (w : WCtx) :
    (rb.setEntry pos w).power = rb.power := rfl
@[simp] theorem setEntry_nrEntries (rb : Rb) (pos : Nat) (w : WCtx) :
    (rb.setEntry pos w).nrEntries = rb.nrEntries := rfl
theorem setEntry_entries (rb : Rb) (pos : Nat) (w : WCtx) (other : Nat) :
    (rb.setEntry pos w).entries other = if other = pos then w else rb.entries other := by
  simp [setEntry, Function.update_apply]

end Rb

def pblkRbWrapPos (rb : Rb) (pos : Nat) : Nat := pos % rb.nrEntries

theorem pblkRbWrapPos_congr {rb rb' : Rb} (size : rb'.nrEntries = rb.nrEntries) :
    pblkRbWrapPos rb' = pblkRbWrapPos rb := by
  funext pos
  rw [pblkRbWrapPos, pblkRbWrapPos, size]

theorem wrap_add_ne {n a d : Nat} (pos : 0 < d) (lt : d < n) : (a + d) % n ≠ a % n := by
  intro same
  have apart := Nat.sub_mod_eq_zero_of_mod_eq same
  rw [Nat.add_sub_cancel_left, Nat.mod_eq_of_lt lt] at apart
  omega

def pblkRbSpace (rb : Rb) : Nat := circSpace rb.mem rb.sync rb.nrEntries

def pblkRbReadCount (rb : Rb) : Nat := circCnt rb.mem rb.subm rb.nrEntries

def pblkRbSyncCount (rb : Rb) : Nat := circCnt rb.mem rb.sync rb.nrEntries

def pblkRbReadCommit (rb : Rb) (nrEntries : Nat) : Nat × Rb :=
  (rb.subm, { rb with subm := advance rb.subm nrEntries rb.nrEntries })

def cleanWctx (w : WCtx) : WCtx :=
  { w with flags := .writableOnly, submitFlags := .writableOnly, ppa := .empty, lba := addrEmpty }

/-- The loop of `__pblk_rb_update_l2p`: recycles `toUpdate` entries from
`l2p_update` on and returns each with its write context before cleaning. -/
def pblkRbUpdateL2pEntries : Nat → Rb → Rb × List (Nat × WCtx)
  | 0, rb => (rb, [])
  | toUpdate + 1, rb =>
      let pos := rb.l2pUpdate
      let next := { rb.setEntry pos (cleanWctx (rb.entries pos)) with
        l2pUpdate := advance pos 1 rb.nrEntries }
      let rest := pblkRbUpdateL2pEntries toUpdate next
      (rest.1, (pos, rb.entries pos) :: rest.2)

/-- `pblk_rb_update_l2p`: recycle only as many entries as a write of
`nrEntries` would overwrite. -/
def pblkRbUpdateL2p (rb : Rb) (nrEntries mem : Nat) : Rb × List (Nat × WCtx) :=
  let space := circSpace mem rb.l2pUpdate rb.nrEntries
  if space > nrEntries then (rb, []) else pblkRbUpdateL2pEntries (nrEntries - space) rb

/-- `pblk_rb_sync_l2p`: recycle every persisted entry. -/
def pblkRbSyncL2p (rb : Rb) : Rb × List (Nat × WCtx) :=
  pblkRbUpdateL2pEntries (circCnt rb.sync rb.l2pUpdate rb.nrEntries) rb

/-- `__pblk_rb_may_write`: `none` when there is no room for `nrEntries`;
otherwise the position granted, with the entries recycled on the way. -/
def pblkRbMayWriteInner (rb : Rb) (nrEntries : Nat) : Option (Nat × Rb × List (Nat × WCtx)) :=
  if circSpace rb.mem rb.sync rb.nrEntries < nrEntries then none
  else
    let updated := pblkRbUpdateL2p rb nrEntries rb.mem
    some (rb.mem, updated.1, updated.2)

/-- `pblk_rb_may_write` (the GC producer). -/
def pblkRbMayWrite (rb : Rb) (nrEntries : Nat) : Option (Nat × Rb × List (Nat × WCtx)) :=
  (pblkRbMayWriteInner rb nrEntries).map fun granted =>
    (granted.1, { granted.2.1 with mem := advance granted.1 nrEntries rb.nrEntries }, granted.2.2)

/-- `pblk_rb_may_write_flush` under `CONFIG_PBLK_MULTIMAP` (the user producer).
The `REQ_PREFLUSH` branch setting a sync point is compiled only without
`CONFIG_PBLK_MULTIMAP`; here the request always completes with
`NVM_IO_DONE`, and `nr_user` counts the entries still being filled, as the
`unsigned int` it is. -/
def pblkRbMayWriteFlush (rb : Rb) (nrEntries : Nat) : Option (Nat × Rb × List (Nat × WCtx)) :=
  (pblkRbMayWriteInner rb nrEntries).map fun granted =>
    (granted.1, { granted.2.1 with mem := advance granted.1 nrEntries rb.nrEntries
                                   nrUser := Machine.wrap32 (granted.2.1.nrUser + nrEntries : Nat) }, granted.2.2)

def syncAdvanceLoop (size : Nat) : Nat → Nat → Nat
  | 0, sync => sync
  | n + 1, sync => syncAdvanceLoop size n (advance sync 1 size)

/-- `pblk_rb_sync_advance`: completions of `nrEntries` entries, in submission
order (pblk_complete_write re-sequences out-of-order completions). -/
def pblkRbSyncAdvance (rb : Rb) (nrEntries : Nat) : Rb :=
  { rb with sync := syncAdvanceLoop rb.nrEntries nrEntries rb.sync }

/-- `pblk_rb_sync_point_set`: mark the entry before `pos` as the flush point and
attach `bio` to it; returns whether a bio was attached. -/
def pblkRbSyncPointSet (rb : Rb) (bio : Option Nat) (pos : Nat) : Bool × Rb :=
  if pos = rb.subm then (false, rb)
  else
    let syncPoint := if pos = 0 then rb.nrEntries - 1 else pos - 1
    let w := rb.entries syncPoint
    let marked := { rb.setEntry syncPoint { w with flags := { w.flags with flush := true } } with
      syncPoint := some syncPoint }
    match bio with
    | none => (false, marked)
    | some b =>
        let w' := marked.entries syncPoint
        (true, marked.setEntry syncPoint { w' with bios := w'.bios ++ [b] })

def pblkRbFlush (rb : Rb) : Rb := (pblkRbSyncPointSet rb none rb.mem).2

def pblkRbSyncPointCount (rb : Rb) : Nat :=
  match rb.syncPoint with
  | none => 0
  | some syncPoint => circCnt syncPoint rb.subm rb.nrEntries + 1

theorem syncPointSet_frame (rb : Rb) (bio : Option Nat) (pos : Nat) :
    (pblkRbSyncPointSet rb bio pos).2.mem = rb.mem ∧
      (pblkRbSyncPointSet rb bio pos).2.subm = rb.subm ∧
      (pblkRbSyncPointSet rb bio pos).2.sync = rb.sync ∧
      (pblkRbSyncPointSet rb bio pos).2.l2pUpdate = rb.l2pUpdate ∧
      (pblkRbSyncPointSet rb bio pos).2.power = rb.power ∧
      (pblkRbSyncPointSet rb bio pos).2.nrUser = rb.nrUser ∧
      ∀ q, (pos ≠ rb.subm → q ≠ if pos = 0 then rb.nrEntries - 1 else pos - 1) →
        (pblkRbSyncPointSet rb bio pos).2.entries q = rb.entries q := by
  unfold pblkRbSyncPointSet
  split
  · exact ⟨rfl, rfl, rfl, rfl, rfl, rfl, fun _ _ => rfl⟩
  · next moved =>
    cases bio with
    | none =>
        exact ⟨rfl, rfl, rfl, rfl, rfl, rfl,
          fun q other => by simp [Rb.setEntry_entries, other moved]⟩
    | some b =>
        exact ⟨rfl, rfl, rfl, rfl, rfl, rfl,
          fun q other => by simp [Rb.setEntry_entries, other moved]⟩

theorem syncPointSet_syncPoint (rb : Rb) (bio : Option Nat) {pos : Nat} (moved : pos ≠ rb.subm) :
    (pblkRbSyncPointSet rb bio pos).2.syncPoint =
      some (if pos = 0 then rb.nrEntries - 1 else pos - 1) := by
  unfold pblkRbSyncPointSet
  rw [if_neg moved]
  cases bio <;> rfl

/-- The buffer `pblk_rb_init` sets up over the entries `pblk_rwb_init`
allocates with `vzalloc`: pointers at zero, no sync point, and every entry
zeroed but for its `PBLK_WRITABLE_ENTRY` flag. -/
def pblkRbInit (nrb powerSize : Nat) : Rb where
  index := nrb
  power := powerSize
  mem := 0
  subm := 0
  sync := 0
  syncPoint := none
  l2pUpdate := 0
  nrUser := 0
  entries := fun _ =>
    { bios := [], lba := 0, ppa := .dev ⟨0, 0, 0, 0, 0, 0⟩, flags := .writableOnly,
      submitFlags := {} }

/-! ## The recycling loop -/

theorem updateL2pEntries_state {k : Nat} (rb : Rb) (hl : rb.l2pUpdate < rb.nrEntries)
    (hk : k < rb.nrEntries) :
    (pblkRbUpdateL2pEntries k rb).1 =
      { rb with
        l2pUpdate := advance rb.l2pUpdate k rb.nrEntries
        entries := fun pos =>
          if pos < rb.nrEntries ∧ circCnt pos rb.l2pUpdate rb.nrEntries < k
          then cleanWctx (rb.entries pos) else rb.entries pos } := by
  induction k generalizing rb with
  | zero =>
      simp only [pblkRbUpdateL2pEntries, advance_zero hl, Nat.not_lt_zero, and_false, ite_false]
  | succ k ih =>
      -- one slot is cleaned, then the loop continues from the next slot
      have rest := ih { rb.setEntry rb.l2pUpdate (cleanWctx (rb.entries rb.l2pUpdate)) with
        l2pUpdate := advance rb.l2pUpdate 1 rb.nrEntries } (advance_lt rb.nrEntries_pos)
        (show k < rb.nrEntries by omega)
      simp only [pblkRbUpdateL2pEntries]
      rw [rest]
      simp only [Rb.setEntry, Rb.nrEntries] at *
      congr 1
      · rw [advance_add, Nat.add_comm]
      · funext pos
        by_cases same : pos = rb.l2pUpdate
        · -- the slot at `l2p_update` is cleaned now and never reached again
          subst same
          have far : ¬ circCnt rb.l2pUpdate (advance rb.l2pUpdate 1 (2 ^ rb.power))
              (2 ^ rb.power) < k := by
            rw [circCnt_advance_one_self hl]
            omega
          simp [far, hl]
        · simp only [Function.update_apply, same, ite_false]
          by_cases inside : pos < 2 ^ rb.power
          · have away : circCnt pos rb.l2pUpdate (2 ^ rb.power) ≠ 0 :=
              fun zero => same ((circCnt_eq_zero_iff inside hl).mp zero)
            rw [circCnt_advance_tail inside hl (by omega)]
            have shifted : circCnt pos rb.l2pUpdate (2 ^ rb.power) - 1 < k ↔
                circCnt pos rb.l2pUpdate (2 ^ rb.power) < k + 1 := by omega
            simp only [inside, true_and, shifted]
          · simp [inside]

theorem updateL2pEntries_recycled (k : Nat) (rb : Rb) (hl : rb.l2pUpdate < rb.nrEntries) :
    (pblkRbUpdateL2pEntries k rb).2.map Prod.fst =
      (List.range k).map fun i => advance rb.l2pUpdate i rb.nrEntries := by
  induction k generalizing rb with
  | zero => rfl
  | succ k ih =>
      simp only [pblkRbUpdateL2pEntries, List.map_cons]
      rw [ih _ (advance_lt rb.nrEntries_pos), List.range_succ_eq_map, List.map_cons, List.map_map]
      congr 1
      · exact (advance_zero hl).symm
      · apply List.map_congr_left
        intro i _
        simp only [Function.comp_apply, Rb.setEntry, Rb.nrEntries, advance_add, Nat.add_comm]

theorem updateL2pEntries_heads (k : Nat) (rb : Rb) :
    (pblkRbUpdateL2pEntries k rb).1.nrUser = rb.nrUser ∧ (pblkRbUpdateL2pEntries k rb).1.power = rb.power := by
  induction k generalizing rb with
  | zero => exact ⟨rfl, rfl⟩
  | succ k ih => exact ih _

theorem pblkRbUpdateL2p_eq (rb : Rb) (nrEntries mem : Nat) :
    pblkRbUpdateL2p rb nrEntries mem =
      pblkRbUpdateL2pEntries (nrEntries - circSpace mem rb.l2pUpdate rb.nrEntries) rb := by
  unfold pblkRbUpdateL2p
  dsimp only
  split
  · rw [Nat.sub_eq_zero_of_le (by omega)]
    rfl
  · rfl

theorem mayWriteFlush_zero (rb : Rb) :
    pblkRbMayWriteFlush rb 0 =
      some (rb.mem, { rb with mem := advance rb.mem 0 rb.nrEntries, nrUser := Machine.wrap32 rb.nrUser }, []) := by
  have fits : ¬ circSpace rb.mem rb.sync rb.nrEntries < 0 := Nat.not_lt_zero _
  simp [pblkRbMayWriteFlush, pblkRbMayWriteInner, fits, pblkRbUpdateL2p_eq, pblkRbUpdateL2pEntries]

theorem syncAdvanceLoop_eq {size sync : Nat} (n : Nat) (hs : sync < size) :
    syncAdvanceLoop size n sync = advance sync n size := by
  induction n generalizing sync with
  | zero => exact (advance_zero hs).symm
  | succ n ih =>
      rw [syncAdvanceLoop, ih (advance_lt (by omega)), advance_add, Nat.add_comm]

/-! ## The pointer protocol over whole runs -/

inductive RbOp where
  | mayWrite (nrEntries : Nat)
  | mayWriteFlush (nrEntries : Nat)
  | readCommit (nrEntries : Nat)
  | syncAdvance (nrEntries : Nat)
  | syncL2p
  | flush

/-- What the callers guarantee: the writer commits at most what is readable,
and completions, re-sequenced by `pblk_complete_write`, cover at most what was
submitted. -/
def RbOp.Allowed (rb : Rb) : RbOp → Prop
  | .readCommit n => n ≤ pblkRbReadCount rb
  | .syncAdvance n => n ≤ circCnt rb.subm rb.sync rb.nrEntries
  | _ => True

instance (rb : Rb) (op : RbOp) : Decidable (op.Allowed rb) := by
  cases op <;> unfold RbOp.Allowed <;> infer_instance

/-- The buffer after an operation; a refused `may_write` leaves it unchanged. -/
def rbApply (rb : Rb) : RbOp → Rb
  | .mayWrite n => ((pblkRbMayWrite rb n).map fun granted => granted.2.1).getD rb
  | .mayWriteFlush n => ((pblkRbMayWriteFlush rb n).map fun granted => granted.2.1).getD rb
  | .readCommit n => (pblkRbReadCommit rb n).2
  | .syncAdvance n => pblkRbSyncAdvance rb n
  | .syncL2p => (pblkRbSyncL2p rb).1
  | .flush => pblkRbFlush rb

def RbStep (rb : Rb) (op : RbOp) (next : Rb) : Prop := op.Allowed rb ∧ next = rbApply rb op

def RbInitial (rb : Rb) : Prop :=
  rb.mem = 0 ∧ rb.subm = 0 ∧ rb.sync = 0 ∧ rb.l2pUpdate = 0 ∧ rb.syncPoint = none ∧
    rb.nrUser = 0 ∧ ∀ pos, (rb.entries pos).flags = .writableOnly

/-- The pointers lie in the cyclic order `l2p_update ≤ sync ≤ subm ≤ mem` within
one turn, and every slot outside `[l2p_update, mem)` is writable. -/
structure RbInv (rb : Rb) : Prop where
  memLt : rb.mem < rb.nrEntries
  submLt : rb.subm < rb.nrEntries
  syncLt : rb.sync < rb.nrEntries
  l2pLt : rb.l2pUpdate < rb.nrEntries
  ordered : circCnt rb.mem rb.subm rb.nrEntries + circCnt rb.subm rb.sync rb.nrEntries +
      circCnt rb.sync rb.l2pUpdate rb.nrEntries < rb.nrEntries
  recycled : ∀ pos, pos < rb.nrEntries → ¬ InWindow rb.l2pUpdate rb.mem rb.nrEntries pos →
      (rb.entries pos).flags = .writableOnly

/-- `sync_point`, when set, lies in `[subm, mem)`. -/
def SyncPointInWindow (rb : Rb) : Prop :=
  match rb.syncPoint with
  | none => True
  | some syncPoint => InWindow rb.subm rb.mem rb.nrEntries syncPoint

instance (rb : Rb) : Decidable (SyncPointInWindow rb) := by
  unfold SyncPointInWindow
  split <;> infer_instance

theorem pblkRbInit_initial (nrb powerSize : Nat) : RbInitial (pblkRbInit nrb powerSize) :=
  ⟨rfl, rfl, rfl, rfl, rfl, rfl, fun _ => rfl⟩

section Invariant

variable {rb : Rb}

theorem RbInv.memSync (inv : RbInv rb) :
    circCnt rb.mem rb.sync rb.nrEntries =
      circCnt rb.mem rb.subm rb.nrEntries + circCnt rb.subm rb.sync rb.nrEntries :=
  circCnt_trans inv.memLt inv.submLt inv.syncLt (by have := inv.ordered; omega)

theorem RbInv.span (inv : RbInv rb) :
    circCnt rb.mem rb.l2pUpdate rb.nrEntries =
      circCnt rb.mem rb.subm rb.nrEntries + circCnt rb.subm rb.sync rb.nrEntries +
        circCnt rb.sync rb.l2pUpdate rb.nrEntries := by
  rw [circCnt_trans inv.memLt inv.syncLt inv.l2pLt (by rw [inv.memSync]; exact inv.ordered),
    inv.memSync]

theorem initial_inv (start : RbInitial rb) : RbInv rb := by
  obtain ⟨mem, subm, sync, l2p, -, -, writable⟩ := start
  have size := rb.nrEntries_pos
  refine ⟨by omega, by omega, by omega, by omega, ?_, fun pos _ _ => writable pos⟩
  simp [mem, subm, sync, l2p, circCnt, Nat.mod_self, size]

def recycleCount (rb : Rb) (n : Nat) : Nat := n - circSpace rb.mem rb.l2pUpdate rb.nrEntries

theorem mayWriteInner_granted {n pos : Nat} {mid : Rb} {recycled : List (Nat × WCtx)}
    (granted : pblkRbMayWriteInner rb n = some (pos, mid, recycled)) :
    pos = rb.mem ∧ n ≤ circSpace rb.mem rb.sync rb.nrEntries ∧
      (mid, recycled) = pblkRbUpdateL2pEntries (recycleCount rb n) rb := by
  unfold pblkRbMayWriteInner at granted
  split at granted
  · cases granted
  · simp only [Option.some.injEq, Prod.mk.injEq] at granted
    obtain ⟨rfl, rfl, rfl⟩ := granted
    exact ⟨rfl, by omega, by rw [recycleCount, ← pblkRbUpdateL2p_eq]⟩

theorem mayWriteFlush_heads {n pos : Nat} {next : Rb} {recycled : List (Nat × WCtx)}
    (granted : pblkRbMayWriteFlush rb n = some (pos, next, recycled)) :
    pos = rb.mem ∧ next.mem = advance rb.mem n rb.nrEntries ∧ next.nrUser = Machine.wrap32 (rb.nrUser + n : Nat) ∧
      next.power = rb.power := by
  unfold pblkRbMayWriteFlush at granted
  obtain ⟨⟨pos', mid, recycled'⟩, inner, done⟩ := Option.map_eq_some_iff.mp granted
  simp only [Prod.mk.injEq] at done
  obtain ⟨rfl, rfl, rfl⟩ := done
  obtain ⟨rfl, -, recycle⟩ := mayWriteInner_granted inner
  obtain ⟨user, power⟩ := updateL2pEntries_heads (recycleCount rb n) rb
  rw [← recycle] at user power
  exact ⟨rfl, rfl, by rw [← user], power⟩

/-- A granted write recycles at most the persisted entries `[l2p_update, sync)`,
and after it the claimed slots and the live window fit in one turn less a slot. -/
theorem recycleCount_bounds {n : Nat} (inv : RbInv rb)
    (room : n ≤ circSpace rb.mem rb.sync rb.nrEntries) :
    recycleCount rb n ≤ circCnt rb.sync rb.l2pUpdate rb.nrEntries ∧
      circCnt rb.mem rb.l2pUpdate rb.nrEntries - recycleCount rb n + n < rb.nrEntries := by
  rw [circSpace_eq inv.memLt inv.syncLt, inv.memSync] at room
  unfold recycleCount
  rw [circSpace_eq inv.memLt inv.l2pLt, inv.span]
  have := inv.ordered
  omega

theorem mayWriteInner_mid {n pos : Nat} {mid : Rb} {recycled : List (Nat × WCtx)}
    (inv : RbInv rb) (granted : pblkRbMayWriteInner rb n = some (pos, mid, recycled)) :
    mid = { rb with
      l2pUpdate := advance rb.l2pUpdate (recycleCount rb n) rb.nrEntries
      entries := fun p =>
        if p < rb.nrEntries ∧ circCnt p rb.l2pUpdate rb.nrEntries < recycleCount rb n
        then cleanWctx (rb.entries p) else rb.entries p } := by
  obtain ⟨-, room, done⟩ := mayWriteInner_granted granted
  have small := (recycleCount_bounds inv room).1
  have below : circCnt rb.sync rb.l2pUpdate rb.nrEntries < rb.nrEntries := circCnt_lt rb.nrEntries_pos
  rw [← updateL2pEntries_state rb inv.l2pLt (by omega), ← done]

/-- `__pblk_rb_may_write` grants `n` slots that have all been recycled: each
is fresh or has had its L2P update and been cleaned. -/
theorem mayWrite_slots_writable {n pos : Nat} {mid : Rb} {recycled : List (Nat × WCtx)}
    (inv : RbInv rb) (granted : pblkRbMayWriteInner rb n = some (pos, mid, recycled))
    {i : Nat} (hi : i < n) :
    (mid.entries (advance pos i rb.nrEntries)).flags = .writableOnly := by
  obtain ⟨rfl, room, -⟩ := mayWriteInner_granted granted
  obtain ⟨-, fits⟩ := recycleCount_bounds inv room
  have whole : circCnt rb.mem rb.l2pUpdate rb.nrEntries < rb.nrEntries := circCnt_lt rb.nrEntries_pos
  have slotLt : advance rb.mem i rb.nrEntries < rb.nrEntries := advance_lt rb.nrEntries_pos
  have count := circCnt_advance_head_mod inv.memLt inv.l2pLt (n := i) (by omega)
  have wrap : (circCnt rb.mem rb.l2pUpdate rb.nrEntries + i) % rb.nrEntries =
      if circCnt rb.mem rb.l2pUpdate rb.nrEntries + i < rb.nrEntries
      then circCnt rb.mem rb.l2pUpdate rb.nrEntries + i
      else circCnt rb.mem rb.l2pUpdate rb.nrEntries + i - rb.nrEntries :=
    mod_of_lt_two (by omega)
  rw [mayWriteInner_mid inv granted]
  dsimp only
  split
  · rfl
  · -- a slot the loop did not clean lies beyond the old window
    next kept =>
    apply inv.recycled _ slotLt
    unfold InWindow
    rw [count, wrap]
    rw [count, wrap] at kept
    split_ifs at kept ⊢ <;> omega

/-- Only persisted entries, those in `[l2p_update, sync)`, are recycled. -/
theorem mayWrite_recycles_persisted {n pos : Nat} {mid : Rb} {recycled : List (Nat × WCtx)}
    (inv : RbInv rb) (granted : pblkRbMayWriteInner rb n = some (pos, mid, recycled)) :
    ∀ p ∈ recycled.map Prod.fst, InWindow rb.l2pUpdate rb.sync rb.nrEntries p := by
  obtain ⟨-, room, done⟩ := mayWriteInner_granted granted
  have small := (recycleCount_bounds inv room).1
  have below : circCnt rb.sync rb.l2pUpdate rb.nrEntries < rb.nrEntries := circCnt_lt rb.nrEntries_pos
  have slots := updateL2pEntries_recycled (recycleCount rb n) rb inv.l2pLt
  rw [← done] at slots
  intro p member
  rw [slots] at member
  obtain ⟨i, hi, rfl⟩ := List.mem_map.mp member
  rw [List.mem_range] at hi
  unfold InWindow
  rw [circCnt_advance_self inv.l2pLt (by omega)]
  omega

/-- `l2p_update` moves towards `sync` and never past it. -/
theorem mayWrite_l2p_within {n pos : Nat} {mid : Rb} {recycled : List (Nat × WCtx)}
    (inv : RbInv rb) (granted : pblkRbMayWriteInner rb n = some (pos, mid, recycled)) :
    circCnt mid.l2pUpdate rb.l2pUpdate rb.nrEntries ≤ circCnt rb.sync rb.l2pUpdate rb.nrEntries := by
  obtain ⟨-, room, -⟩ := mayWriteInner_granted granted
  have small := (recycleCount_bounds inv room).1
  have below : circCnt rb.sync rb.l2pUpdate rb.nrEntries < rb.nrEntries := circCnt_lt rb.nrEntries_pos
  rw [mayWriteInner_mid inv granted]
  show circCnt (advance rb.l2pUpdate (recycleCount rb n) rb.nrEntries) rb.l2pUpdate rb.nrEntries ≤ _
  rw [circCnt_advance_self inv.l2pLt (by omega)]
  exact small

theorem recycled_after_cleaning {k m : Nat} (inv : RbInv rb)
    (reach : k ≤ circCnt rb.mem rb.l2pUpdate rb.nrEntries)
    (fits : circCnt rb.mem rb.l2pUpdate rb.nrEntries - k + m < rb.nrEntries) (p : Nat) (hp : p < rb.nrEntries)
    (outside : ¬ InWindow (advance rb.l2pUpdate k rb.nrEntries) (advance rb.mem m rb.nrEntries) rb.nrEntries p) :
    (if p < rb.nrEntries ∧ circCnt p rb.l2pUpdate rb.nrEntries < k
      then cleanWctx (rb.entries p) else rb.entries p).flags = .writableOnly := by
  split
  · rfl
  · next kept =>
    apply inv.recycled p hp
    have passed : k ≤ circCnt p rb.l2pUpdate rb.nrEntries := by
      simp only [hp, true_and, Nat.not_lt] at kept
      exact kept
    have behind : circCnt rb.mem (advance rb.l2pUpdate k rb.nrEntries) rb.nrEntries =
        circCnt rb.mem rb.l2pUpdate rb.nrEntries - k :=
      circCnt_advance_tail inv.memLt inv.l2pLt reach
    unfold InWindow at outside ⊢
    rw [circCnt_advance_tail hp inv.l2pLt passed,
      circCnt_advance_head inv.memLt (advance_lt rb.nrEntries_pos) (by omega), behind] at outside
    omega

theorem mayWrite_inv {n pos : Nat} {mid : Rb} {recycled : List (Nat × WCtx)}
    (inv : RbInv rb) (granted : pblkRbMayWriteInner rb n = some (pos, mid, recycled))
    (nrUser : Nat) :
    RbInv { mid with mem := advance pos n rb.nrEntries, nrUser := nrUser } := by
  obtain ⟨rfl, room, -⟩ := mayWriteInner_granted granted
  obtain ⟨small, fits⟩ := recycleCount_bounds inv room
  have span := inv.span
  have ordered := inv.ordered
  rw [circSpace_eq inv.memLt inv.syncLt, inv.memSync] at room
  rw [mayWriteInner_mid inv granted]
  refine ⟨advance_lt rb.nrEntries_pos, inv.submLt, inv.syncLt, advance_lt rb.nrEntries_pos, ?_,
    recycled_after_cleaning inv (by omega) fits⟩
  show circCnt (advance rb.mem n rb.nrEntries) rb.subm rb.nrEntries +
      circCnt rb.subm rb.sync rb.nrEntries +
      circCnt rb.sync (advance rb.l2pUpdate (recycleCount rb n) rb.nrEntries) rb.nrEntries <
      rb.nrEntries
  rw [circCnt_advance_head inv.memLt inv.submLt (by omega),
    circCnt_advance_tail inv.syncLt inv.l2pLt small]
  omega

theorem readCommit_inv {n : Nat} (inv : RbInv rb) (allowed : n ≤ pblkRbReadCount rb) :
    RbInv (pblkRbReadCommit rb n).2 := by
  have ordered := inv.ordered
  refine ⟨inv.memLt, advance_lt rb.nrEntries_pos, inv.syncLt, inv.l2pLt, ?_, inv.recycled⟩
  show circCnt rb.mem (advance rb.subm n rb.nrEntries) rb.nrEntries +
      circCnt (advance rb.subm n rb.nrEntries) rb.sync rb.nrEntries +
      circCnt rb.sync rb.l2pUpdate rb.nrEntries < rb.nrEntries
  unfold pblkRbReadCount at allowed
  rw [circCnt_advance_tail inv.memLt inv.submLt allowed,
    circCnt_advance_head inv.submLt inv.syncLt (by omega)]
  omega

theorem syncAdvance_inv {n : Nat} (inv : RbInv rb)
    (allowed : n ≤ circCnt rb.subm rb.sync rb.nrEntries) :
    RbInv (pblkRbSyncAdvance rb n) := by
  have ordered := inv.ordered
  have moved : syncAdvanceLoop rb.nrEntries n rb.sync = advance rb.sync n rb.nrEntries :=
    syncAdvanceLoop_eq n inv.syncLt
  refine ⟨inv.memLt, inv.submLt, ?_, inv.l2pLt, ?_, inv.recycled⟩
  · show syncAdvanceLoop rb.nrEntries n rb.sync < rb.nrEntries
    rw [moved]
    exact advance_lt rb.nrEntries_pos
  · show circCnt rb.mem rb.subm rb.nrEntries +
        circCnt rb.subm (syncAdvanceLoop rb.nrEntries n rb.sync) rb.nrEntries +
        circCnt (syncAdvanceLoop rb.nrEntries n rb.sync) rb.l2pUpdate rb.nrEntries < rb.nrEntries
    rw [moved, circCnt_advance_tail inv.submLt inv.syncLt allowed,
      circCnt_advance_head inv.syncLt inv.l2pLt (by omega)]
    omega

theorem syncL2p_inv (inv : RbInv rb) : RbInv (pblkRbSyncL2p rb).1 := by
  have ordered := inv.ordered
  have span := inv.span
  have below : circCnt rb.sync rb.l2pUpdate rb.nrEntries < rb.nrEntries := circCnt_lt rb.nrEntries_pos
  unfold pblkRbSyncL2p
  rw [updateL2pEntries_state rb inv.l2pLt below]
  refine ⟨inv.memLt, inv.submLt, inv.syncLt, advance_lt rb.nrEntries_pos, ?_, ?_⟩
  · -- `l2p_update` catches up with `sync`
    show circCnt rb.mem rb.subm rb.nrEntries + circCnt rb.subm rb.sync rb.nrEntries +
        circCnt rb.sync (advance rb.l2pUpdate (circCnt rb.sync rb.l2pUpdate rb.nrEntries) rb.nrEntries)
          rb.nrEntries < rb.nrEntries
    rw [circCnt_advance_tail inv.syncLt inv.l2pLt (Nat.le_refl _)]
    omega
  · intro p hp outside
    exact recycled_after_cleaning inv (m := 0) (by omega) (by omega) p hp
      (by rwa [advance_zero inv.memLt])

theorem syncPoint_slot_inWindow (inv : RbInv rb) (moved : rb.mem ≠ rb.subm) :
    InWindow rb.subm rb.mem rb.nrEntries (if rb.mem = 0 then rb.nrEntries - 1 else rb.mem - 1) ∧
      InWindow rb.l2pUpdate rb.mem rb.nrEntries
        (if rb.mem = 0 then rb.nrEntries - 1 else rb.mem - 1) := by
  refine ⟨inWindow_prev inv.memLt inv.submLt moved, inWindow_prev inv.memLt inv.l2pLt ?_⟩
  -- the window `[l2p_update, mem)` contains `[subm, mem)`, which is not empty
  have span := inv.span
  have nonzero : circCnt rb.mem rb.subm rb.nrEntries ≠ 0 :=
    fun zero => moved ((circCnt_eq_zero_iff inv.memLt inv.submLt).mp zero)
  intro same
  rw [same] at span nonzero
  rw [circCnt_self inv.l2pLt] at span
  omega

theorem RbInv.of_frame {next : Rb} (inv : RbInv rb) (mem : next.mem = rb.mem)
    (subm : next.subm = rb.subm) (sync : next.sync = rb.sync)
    (l2p : next.l2pUpdate = rb.l2pUpdate) (power : next.power = rb.power)
    (outside : ∀ q, q < rb.nrEntries → ¬ InWindow rb.l2pUpdate rb.mem rb.nrEntries q →
      next.entries q = rb.entries q) :
    RbInv next := by
  have size : next.nrEntries = rb.nrEntries := by
    unfold Rb.nrEntries
    rw [power]
  obtain ⟨memLt, submLt, syncLt, l2pLt, ordered, recycled⟩ := inv
  refine ⟨?_, ?_, ?_, ?_, ?_, ?_⟩ <;> simp only [size, mem, subm, sync, l2p] <;> try assumption
  intro q hq away
  rw [outside q hq away]
  exact recycled q hq away

theorem flush_inv (inv : RbInv rb) : RbInv (pblkRbFlush rb) := by
  obtain ⟨mem, subm, sync, l2p, power, -, others⟩ := syncPointSet_frame rb none rb.mem
  apply inv.of_frame mem subm sync l2p power
  intro q _ away
  apply others
  -- the marked slot lies inside the window, so it is not `q`
  intro moved same
  exact away (same ▸ (syncPoint_slot_inWindow inv moved).2)

theorem mayWrite_granted_inner {n pos : Nat} {next : Rb} {recycled : List (Nat × WCtx)}
    (granted : pblkRbMayWrite rb n = some (pos, next, recycled) ∨
      pblkRbMayWriteFlush rb n = some (pos, next, recycled)) :
    ∃ mid nrUser, pblkRbMayWriteInner rb n = some (pos, mid, recycled) ∧
      next = { mid with mem := advance pos n rb.nrEntries, nrUser := nrUser } := by
  rcases granted with granted | granted
  · unfold pblkRbMayWrite at granted
    obtain ⟨⟨pos', mid, recycled'⟩, inner, done⟩ := Option.map_eq_some_iff.mp granted
    simp only [Prod.mk.injEq] at done
    obtain ⟨rfl, rfl, rfl⟩ := done
    exact ⟨mid, mid.nrUser, inner, rfl⟩
  · unfold pblkRbMayWriteFlush at granted
    obtain ⟨⟨pos', mid, recycled'⟩, inner, done⟩ := Option.map_eq_some_iff.mp granted
    simp only [Prod.mk.injEq] at done
    obtain ⟨rfl, rfl, rfl⟩ := done
    exact ⟨mid, Machine.wrap32 (mid.nrUser + n : Nat), inner, rfl⟩

theorem write_preserves {P : Rb → Prop} {op : RbOp} {n : Nat}
    (write : op = .mayWrite n ∨ op = .mayWriteFlush n) (refused : P rb)
    (granted : ∀ pos mid recycled nrUser,
      pblkRbMayWriteInner rb n = some (pos, mid, recycled) →
        P { mid with mem := advance pos n rb.nrEntries, nrUser := nrUser }) :
    P (rbApply rb op) := by
  have claimed : ∀ g, (pblkRbMayWrite rb n = some g ∨ pblkRbMayWriteFlush rb n = some g) →
      P g.2.1 := by
    rintro ⟨pos, next, recycled⟩ claim
    obtain ⟨mid, nrUser, inner, rfl⟩ := mayWrite_granted_inner claim
    exact granted pos mid recycled nrUser inner
  rcases write with rfl | rfl
  · simp only [rbApply]
    cases claim : pblkRbMayWrite rb n with
    | none => exact refused
    | some g => exact claimed g (.inl claim)
  · simp only [rbApply]
    cases claim : pblkRbMayWriteFlush rb n with
    | none => exact refused
    | some g => exact claimed g (.inr claim)

theorem step_inv {op : RbOp} {next : Rb} (inv : RbInv rb) (step : RbStep rb op next) :
    RbInv next := by
  obtain ⟨allowed, rfl⟩ := step
  cases op with
  | mayWrite n =>
      exact write_preserves (.inl rfl) inv fun _ _ _ nrUser granted => mayWrite_inv inv granted nrUser
  | mayWriteFlush n =>
      exact write_preserves (.inr rfl) inv fun _ _ _ nrUser granted => mayWrite_inv inv granted nrUser
  | readCommit n => exact readCommit_inv inv allowed
  | syncAdvance n => exact syncAdvance_inv inv allowed
  | syncL2p => exact syncL2p_inv inv
  | flush => exact flush_inv inv

theorem RbInv.of_reachable (reach : Reachable RbInitial RbStep rb) : RbInv rb :=
  reach.invariant RbInv (fun _ start => initial_inv start) (fun _ _ _ inv step => step_inv inv step)

/-! ### Where the sync point can be -/

theorem SyncPointInWindow.of_frame {next : Rb} (inside : SyncPointInWindow rb)
    (mem : next.mem = rb.mem) (subm : next.subm = rb.subm)
    (syncPoint : next.syncPoint = rb.syncPoint) (power : next.power = rb.power) :
    SyncPointInWindow next := by
  unfold SyncPointInWindow Rb.nrEntries at *
  rw [mem, subm, syncPoint, power]
  exact inside

theorem flush_syncPoint (inv : RbInv rb) (moved : rb.mem ≠ rb.subm) :
    ∃ syncPoint, (pblkRbFlush rb).syncPoint = some syncPoint ∧
      InWindow rb.subm rb.mem rb.nrEntries syncPoint :=
  ⟨_, syncPointSet_syncPoint rb none moved, (syncPoint_slot_inWindow inv moved).1⟩

theorem mayWrite_syncPointInWindow {n pos : Nat} {mid : Rb} {recycled : List (Nat × WCtx)}
    (inv : RbInv rb) (inside : SyncPointInWindow rb)
    (granted : pblkRbMayWriteInner rb n = some (pos, mid, recycled)) (nrUser : Nat) :
    SyncPointInWindow { mid with mem := advance pos n rb.nrEntries, nrUser := nrUser } := by
  obtain ⟨rfl, room, -⟩ := mayWriteInner_granted granted
  obtain ⟨small, fits⟩ := recycleCount_bounds inv room
  have span := inv.span
  rw [mayWriteInner_mid inv granted]
  unfold SyncPointInWindow at inside ⊢
  dsimp only
  split at inside
  · simp only
  · next syncPoint set =>
    simp only [set]
    exact inWindow_advance_hi inv.memLt inv.submLt (by omega) inside

/-- Every operation but `pblk_rb_read_commit` keeps the sync point in
`[subm, mem)`. -/
theorem syncPointInWindow_step {op : RbOp} {next : Rb} (inv : RbInv rb)
    (inside : SyncPointInWindow rb) (step : RbStep rb op next)
    (noCommit : ∀ n, op ≠ .readCommit n) : SyncPointInWindow next := by
  obtain ⟨-, rfl⟩ := step
  cases op with
  | mayWrite n =>
      exact write_preserves (.inl rfl) inside
        fun _ _ _ nrUser granted => mayWrite_syncPointInWindow inv inside granted nrUser
  | mayWriteFlush n =>
      exact write_preserves (.inr rfl) inside
        fun _ _ _ nrUser granted => mayWrite_syncPointInWindow inv inside granted nrUser
  | readCommit n => exact absurd rfl (noCommit n)
  | syncAdvance n => exact inside
  | syncL2p =>
      have below : circCnt rb.sync rb.l2pUpdate rb.nrEntries < rb.nrEntries :=
        circCnt_lt rb.nrEntries_pos
      unfold rbApply pblkRbSyncL2p
      rw [updateL2pEntries_state rb inv.l2pLt below]
      exact inside
  | flush =>
      obtain ⟨mem, subm, -, -, power, -, -⟩ := syncPointSet_frame rb none rb.mem
      by_cases moved : rb.mem = rb.subm
      · have unchanged : pblkRbFlush rb = rb := by simp [pblkRbFlush, pblkRbSyncPointSet, moved]
        show SyncPointInWindow (pblkRbFlush rb)
        rw [unchanged]
        exact inside
      · obtain ⟨syncPoint, set, marked⟩ := flush_syncPoint inv moved
        show SyncPointInWindow (pblkRbFlush rb)
        unfold SyncPointInWindow Rb.nrEntries
        simp only [set]
        simp only [pblkRbFlush, mem, subm, power]
        exact marked

/-- From a fresh four-entry buffer, a one-entry write, a flush and the writer's
`pblk_rb_read_commit` of that entry leave `sync_point` at entry 0 with
`subm = mem = 1`. `pblk_submit_write` commits before `pblk_rb_read_to_bio`
clears the sync point, so this state occurs in every such submission. -/
theorem rb_sync_point_behind_subm :
    ¬ ∀ rb, Reachable RbInitial RbStep rb → SyncPointInWindow rb :=
  not_invariant_of_run SyncPointInWindow (pblkRbInit_initial 0 2)
    (.cons (show RbStep _ (.mayWrite 1) _ from ⟨trivial, rfl⟩)
      (.cons (show RbStep _ .flush _ from ⟨trivial, rfl⟩)
        (.cons (show RbStep _ (.readCommit 1) _ from ⟨by decide, rfl⟩) (.nil _))))
    (by decide)

/-- Over every run from a fresh buffer of producers, the writer, in-order
completions, `pblk_rb_sync_l2p` and `pblk_rb_flush`: the four pointers stay in
cyclic order within one turn less a slot; a granted write recycles only
persisted entries, moves `l2p_update` no further than `sync` and hands out
recycled slots; every operation but `pblk_rb_read_commit` keeps `sync_point` in
`[subm, mem)`; and a flush with unsubmitted entries sets it there. -/
theorem rb_pointers_cyclic (rb : Rb) (reach : Reachable RbInitial RbStep rb) :
    (circCnt rb.mem rb.l2pUpdate rb.nrEntries =
        circCnt rb.mem rb.subm rb.nrEntries + circCnt rb.subm rb.sync rb.nrEntries +
          circCnt rb.sync rb.l2pUpdate rb.nrEntries ∧
      circCnt rb.mem rb.l2pUpdate rb.nrEntries ≤ rb.nrEntries - 1) ∧
    (∀ n pos next recycled,
      (pblkRbMayWrite rb n = some (pos, next, recycled) ∨
        pblkRbMayWriteFlush rb n = some (pos, next, recycled)) →
      (∀ p ∈ recycled.map Prod.fst, InWindow rb.l2pUpdate rb.sync rb.nrEntries p) ∧
      circCnt next.l2pUpdate rb.l2pUpdate rb.nrEntries ≤
        circCnt rb.sync rb.l2pUpdate rb.nrEntries ∧
      ∀ i < n, (next.entries (advance pos i rb.nrEntries)).flags = .writableOnly) ∧
    (∀ op next, RbStep rb op next → (∀ n, op ≠ .readCommit n) →
      SyncPointInWindow rb → SyncPointInWindow next) ∧
    (rb.mem ≠ rb.subm → ∃ syncPoint, (pblkRbFlush rb).syncPoint = some syncPoint ∧
      InWindow rb.subm rb.mem rb.nrEntries syncPoint) := by
  have inv := RbInv.of_reachable reach
  refine ⟨⟨inv.span, ?_⟩, ?_, ?_, flush_syncPoint inv⟩
  · have := inv.ordered
    rw [inv.span]
    omega
  · intro n pos next recycled claim
    obtain ⟨mid, nrUser, granted, rfl⟩ := mayWrite_granted_inner claim
    have within := mayWrite_l2p_within inv granted
    exact ⟨mayWrite_recycles_persisted inv granted, within,
      fun i hi => mayWrite_slots_writable inv granted hi⟩
  · intro op next step noCommit inside
    exact syncPointInWindow_step inv inside step noCommit

theorem rb_pointers_cyclic_after_write :
    Reachable RbInitial RbStep (rbApply (pblkRbInit 0 2) (.mayWrite 1)) ∧
    let rb := rbApply (pblkRbInit 0 2) (.mayWrite 1)
    (circCnt rb.mem rb.l2pUpdate rb.nrEntries =
        circCnt rb.mem rb.subm rb.nrEntries + circCnt rb.subm rb.sync rb.nrEntries +
          circCnt rb.sync rb.l2pUpdate rb.nrEntries ∧
      circCnt rb.mem rb.l2pUpdate rb.nrEntries ≤ rb.nrEntries - 1) ∧
    (∀ n pos next recycled,
      (pblkRbMayWrite rb n = some (pos, next, recycled) ∨
        pblkRbMayWriteFlush rb n = some (pos, next, recycled)) →
      (∀ p ∈ recycled.map Prod.fst, InWindow rb.l2pUpdate rb.sync rb.nrEntries p) ∧
      circCnt next.l2pUpdate rb.l2pUpdate rb.nrEntries ≤
        circCnt rb.sync rb.l2pUpdate rb.nrEntries ∧
      ∀ i < n, (next.entries (advance pos i rb.nrEntries)).flags = .writableOnly) ∧
    (∀ op next, RbStep rb op next → (∀ n, op ≠ .readCommit n) →
      SyncPointInWindow rb → SyncPointInWindow next) ∧
    (rb.mem ≠ rb.subm → ∃ syncPoint, (pblkRbFlush rb).syncPoint = some syncPoint ∧
      InWindow rb.subm rb.mem rb.nrEntries syncPoint) :=
  have reach : Reachable RbInitial RbStep (rbApply (pblkRbInit 0 2) (.mayWrite 1)) :=
    .step (.init (pblkRbInit_initial 0 2)) (show RbStep _ (.mayWrite 1) _ from ⟨trivial, rfl⟩)
  ⟨reach, rb_pointers_cyclic _ reach⟩

end Invariant

end MStream.RingBuffer
