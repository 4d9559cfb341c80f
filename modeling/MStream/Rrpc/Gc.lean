import MStream.Rrpc
import MStream.Reach

/-!
Garbage collection in rrpc: `rrpc_move_valid_pages`, which walks the pages of
a block that are not yet invalid and writes the logical page behind each one
somewhere else, finding that logical page through `rev_trans_map` at
`rrpc_blk_to_ppa(rblk) + slot`.

`rrpc_update_map` stores the reverse entry of a write at the page address
`rrpc_alloc_addr` gave it, the page's offset in its block, and
`rrpc_page_invalidate` clears it there again; neither ever touches an index at
or past `sec_per_blk`. So from a fresh device, whatever the host writes or
discards, every reverse entry the scan reads for a block other than LUN 0's
block 0 is `ADDR_EMPTY`; the scan then takes its `continue` on an unchanged
state and finds the same slot again, and the loop never ends.
-/

namespace MStream.Rrpc

open Machine Address Fuel Reach

section Gc

variable (g : Geo)

/-- `find_first_zero_bit` over the first `n` bits: `n` when all are set. -/
def findFirstZeroBit (bits : Nat → Bool) (n : Nat) : Nat :=
  ((List.range n).find? (fun i => bits i = false)).getD n

def bitmapFull (bits : Nat → Bool) (n : Nat) : Bool := (List.range n).all bits

def rrpcBlkToPpa (rb : BlkRef) : Nat := rb.lun * g.secPerLun + rb.id * g.secPerBlk

/-- The body of `rrpc_move_valid_pages` for one logical page once its in-flight
lock is taken: a GC read through `rrpc_read_rq`, a GC write of what it read
through `rrpc_write_rq`, and the write's completion. -/
def rrpcGcMove (s : Sys) (lba : Nat) : Except Fault Sys := do
  let p ← rrpcReadRq g s.ftl lba true
  let mapped ← rrpcWriteRq g s.ftl lba true
  match mapped.1 with
  -- rrpc_write_rq has already failed its BUG_ON(is_gc)
  | none => pure s
  | some q =>
    let r ← rrpcEndIoWrite g mapped.2 lba 1
    pure ⟨r, Function.update s.media q (p.bind s.media)⟩

/-- One pass of the `while` loop of `rrpc_move_valid_pages`. -/
def moveValidPagesPass (rb : BlkRef) (s : Sys) : Except Fault Sys ⊕ Sys :=
  let slot := findFirstZeroBit (s.ftl.blocks rb).invalidPages g.secPerBlk
  if g.secPerBlk ≤ slot then .inl (.ok s)
  else
    let lba := s.ftl.revTransMap (rrpcBlkToPpa g rb + slot)
    -- "already updated by previous regular write": continue
    if lba = addrEmpty then .inr s
    else match rrpcGcMove g s lba with
      | .ok s => .inr s
      | .error f => .inl (.error f)

/-- `rrpc_move_valid_pages` with `fuel` passes of its loop: none when the fuel
runs out first, and otherwise whether it returns 0 rather than `-EIO`. -/
def rrpcMoveValidPages (rb : BlkRef) (fuel : Nat) (s : Sys) : Option (Except Fault (Bool × Sys)) :=
  if bitmapFull (s.ftl.blocks rb).invalidPages g.secPerBlk then some (.ok (true, s))
  else (loopFuel (moveValidPagesPass g rb) fuel s).map fun res =>
    res.map fun s => (bitmapFull (s.ftl.blocks rb).invalidPages g.secPerBlk, s)

theorem findFirstZeroBit_lt {bits : Nat → Bool} {n : Nat} (notFull : bitmapFull bits n = false) :
    findFirstZeroBit bits n < n := by
  have clear : ∃ i ∈ List.range n, bits i = false := by simpa [bitmapFull] using notFull
  unfold findFirstZeroBit
  cases found : (List.range n).find? (fun i => bits i = false) with
  | none =>
    obtain ⟨i, mem, unset⟩ := clear
    rw [List.find?_eq_none] at found
    exact absurd unset (by simpa using found i mem)
  | some j => simpa using List.mem_range.mp (List.mem_of_find?_eq_some found)

theorem blkToPpa_ge {rb : BlkRef} (other : rb ≠ ⟨0, 0⟩) (exists_ : rb.id < g.blksPerLun) :
    g.secPerBlk ≤ rrpcBlkToPpa g rb := by
  unfold rrpcBlkToPpa
  cases rb with
  | mk lun id =>
    cases id with
    | zero =>
      have lunPos : 0 < lun := by
        cases lun with
        | zero => exact absurd rfl other
        | succ lun => omega
      have perLun : g.secPerBlk ≤ g.secPerLun := Nat.le_mul_of_pos_right _ (by simpa using exists_)
      calc g.secPerBlk ≤ g.secPerLun := perLun
        _ ≤ lun * g.secPerLun := Nat.le_mul_of_pos_left _ lunPos
        _ ≤ lun * g.secPerLun + 0 * g.secPerBlk := by omega
    | succ id =>
      have own : g.secPerBlk ≤ (id + 1) * g.secPerBlk := Nat.le_mul_of_pos_left _ (by omega)
      exact le_add_left own

/-! ## What rrpc never writes into the reverse map -/

/-- The reverse map is empty from `sec_per_blk` on, and no block has handed
out a page past its end. -/
structure RevLow (r : Rrpc) : Prop where
  revAbove : ∀ i, g.secPerBlk ≤ i → r.revTransMap i = addrEmpty
  nextLe : ∀ b, (r.blocks b).nextPage ≤ g.secPerBlk

variable {g}

theorem nextLe_update {r : Rrpc} (low : RevLow g r) (rb : BlkRef) (blk : Block)
    (inside : blk.nextPage ≤ g.secPerBlk) : ∀ b, (Function.update r.blocks rb blk b).nextPage ≤ g.secPerBlk := by
  intro b
  by_cases same : b = rb
  · subst same
    simpa using inside
  · simpa [same] using low.nextLe b

theorem pageInvalidate_revLow {r : Rrpc} (a : RrpcAddr) (low : RevLow g r) :
    RevLow g (rrpcPageInvalidate g r a) := by
  unfold rrpcPageInvalidate
  split
  · exact low
  · split
    · exact low
    · rename_i rb _
      constructor
      · intro i above
        by_cases hit : i = a.addr
        · simp [hit]
        · simp [hit, low.revAbove i above]
      · exact nextLe_update low rb _ (low.nextLe rb)

theorem invalidateRange_revLow {r : Rrpc} (slba len : Nat) (low : RevLow g r) :
    RevLow g (rrpcInvalidateRange g r slba len) := by
  unfold rrpcInvalidateRange
  -- each pass of the loop keeps the invariant
  refine foldl_rel (fun a b => RevLow g a → RevLow g b) (fun _ h => h) (fun ab bc h => bc (ab h))
    ?_ (List.range' slba len) r low
  intro a i lowA
  have kept := pageInvalidate_revLow (a.transMap i) lowA
  exact ⟨kept.revAbove, kept.nextLe⟩

theorem allocAddr_revLow {r : Rrpc} (rb : BlkRef) (low : RevLow g r) :
    RevLow g (rrpcAllocAddr g r rb).2 ∧
      ((rrpcAllocAddr g r rb).1 ≠ addrEmpty → (rrpcAllocAddr g r rb).1 < g.secPerBlk) := by
  unfold rrpcAllocAddr
  by_cases full : blockIsFull g (r.blocks rb)
  · simp only [full, if_true]
    exact ⟨low, fun handed => absurd rfl handed⟩
  · have notEnd : (r.blocks rb).nextPage ≠ g.secPerBlk := by simpa [blockIsFull] using full
    have below : (r.blocks rb).nextPage < g.secPerBlk := Nat.lt_of_le_of_ne (low.nextLe rb) notEnd
    simp only [full, Bool.false_eq_true, if_false]
    exact ⟨⟨low.revAbove, nextLe_update low rb _ below⟩, fun _ => below⟩

theorem getBlk_revLow {r r' : Rrpc} {lun b : Nat} {isGc : Bool}
    (got : rrpcGetBlk r lun isGc = some (b, r')) (low : RevLow g r) : RevLow g r' := by
  obtain ⟨rest, _, rfl⟩ := getBlk_eq got
  -- the block handed out starts again from page 0
  exact ⟨low.revAbove, nextLe_update low ⟨lun, b⟩ _ (Nat.zero_le _)⟩

/-- The retry loop of `rrpc_map_page` keeps the invariant, and the page it
leaves with lies inside its block. -/
theorem mapPageAlloc_revLow {r : Rrpc} (lun : Nat) (isGc : Bool) (low : RevLow g r) :
    RevLow g (mapPageAlloc g lun isGc r).2.r ∧
      ∀ a, (mapPageAlloc g lun isGc r).1 = some a → a < g.secPerBlk := by
  let post : Option Nat × Retry → Prop := fun out => RevLow g out.2.r ∧ ∀ a, out.1 = some a → a < g.secPerBlk
  have rule := @loopFuel_inv Retry (Option Nat × Retry) (mapPageRetry g lun isGc)
    (fun st => RevLow g st.r) post
  refine rule ?exits ?keeps _ _ _ low (Option.some_get _).symm
  case exits =>
    intro st out lowSt left
    have alloc := allocAddr_revLow ⟨lun, st.rblk⟩ lowSt
    dsimp only [mapPageRetry] at left
    split at left
    · rename_i handed
      cases left
      exact ⟨alloc.1, fun a same => (Option.some.inj same) ▸ alloc.2 handed⟩
    · split at left
      · simp at left
      · split at left
        · simp at left
        · split at left
          · simp at left
          · cases left
            exact ⟨alloc.1, fun a none_ => by simp at none_⟩
  case keeps =>
    intro st st' lowSt again
    have alloc := allocAddr_revLow ⟨lun, st.rblk⟩ lowSt
    dsimp only [mapPageRetry] at again
    split at again
    · simp at again
    · split at again
      · cases again
        exact ⟨alloc.1.revAbove, alloc.1.nextLe⟩
      · split at again
        · rename_i b r' got
          cases again
          have kept := getBlk_revLow got alloc.1
          exact ⟨kept.revAbove, kept.nextLe⟩
        · split at again
          · cases again
            exact alloc.1
          · simp at again

theorem updateMap_revLow {r r' : Rrpc} {laddr paddr : Nat} {rb : BlkRef} (inside : paddr < g.secPerBlk)
    (low : RevLow g r) (updated : rrpcUpdateMap g r laddr rb paddr = .ok r') : RevLow g r' := by
  unfold rrpcUpdateMap at updated
  split at updated
  · simp at updated
  · -- the old page is invalidated first, if the logical page had one
    have invalidated : RevLow g (if (r.transMap laddr).rblk.isSome then
        rrpcPageInvalidate g r (r.transMap laddr) else r) := by
      split
      · exact pageInvalidate_revLow _ low
      · exact low
    cases pure_eq_ok.mp updated
    refine ⟨fun i above => ?_, invalidated.nextLe⟩
    have other : i ≠ paddr := by omega
    simpa [other] using invalidated.revAbove i above

theorem getLunRr_revLow {r : Rrpc} (isGc : Bool) (low : RevLow g r) :
    RevLow g (rrpcGetLunRr g r isGc).2 := by
  unfold rrpcGetLunRr getNextLun
  split
  · exact low
  · exact ⟨low.revAbove, low.nextLe⟩

theorem mapPage_revLow {r r' : Rrpc} {laddr : Nat} {isGc : Bool} {p : Option Ppa} (low : RevLow g r)
    (mapped : rrpcMapPage g r laddr isGc = .ok (p, r')) : RevLow g r' := by
  have picked := getLunRr_revLow isGc low
  dsimp only [rrpcMapPage] at mapped
  split at mapped
  · cases (pure_eq_ok.mp mapped)
    exact picked
  · have alloc := mapPageAlloc_revLow (rrpcGetLunRr g r isGc).1 isGc picked
    split at mapped
    · rename_i paddr st allocated
      rw [allocated] at alloc
      rw [bind_eq_ok] at mapped
      obtain ⟨r'', updated, done⟩ := mapped
      cases pure_eq_ok.mp done
      exact updateMap_revLow (alloc.2 paddr rfl) alloc.1 updated
    · rename_i st allocated
      rw [allocated] at alloc
      cases pure_eq_ok.mp mapped
      exact alloc.1

theorem endIoWrite_revLow {r r' : Rrpc} {laddr npages : Nat} (low : RevLow g r)
    (done : rrpcEndIoWrite g r laddr npages = .ok r') : RevLow g r' := by
  -- completions only count pages and queue works
  refine foldlM_rel (r := fun a b => RevLow g a → RevLow g b) (fun _ h => h) (fun ab bc h => bc (ab h))
    ?_ (List.range npages) r r' done low
  intro a i b page lowA
  obtain ⟨_, rev, next⟩ := endIoWritePage_frame page
  refine ⟨fun j above => ?_, fun blk => ?_⟩
  · rw [rev]
    exact lowA.revAbove j above
  · rw [next]
    exact lowA.nextLe blk

theorem hostWrite_revLow {s s' : Sys} {laddr payload : Nat} {done : Bool} (low : RevLow g s.ftl)
    (wrote : hostWrite g s laddr payload = .ok (done, s')) : RevLow g s'.ftl := by
  unfold hostWrite rrpcWriteRq at wrote
  rw [bind_eq_ok] at wrote
  obtain ⟨mapped, requested, rest⟩ := wrote
  rw [bind_eq_ok] at requested
  obtain ⟨m, mappedOk, checked⟩ := requested
  have lowM := mapPage_revLow low mappedOk
  simp only [Bool.false_eq_true, false_and, if_false, pure_eq_ok] at checked
  subst checked
  split at rest
  · cases pure_eq_ok.mp rest
    exact lowM
  · rw [bind_eq_ok] at rest
    obtain ⟨r, completed, last⟩ := rest
    cases pure_eq_ok.mp last
    exact endIoWrite_revLow lowM completed

theorem init_revLow {r : Rrpc} (started : rrpcInit g = some r) : RevLow g r := by
  unfold rrpcInit rrpcLunsConfigure at started
  split at started
  · simp at started
  · -- rrpc_luns_configure only takes blocks off the free lists
    have fresh : RevLow g (rrpcFresh g) := ⟨fun _ _ => rfl, fun _ => Nat.zero_le _⟩
    have lun : ∀ a b i, RevLow g a → configureLun a i = some b → RevLow g b := by
      intro a b i lowA configured
      unfold configureLun at configured
      simp only [Option.bind_eq_bind, Option.bind_eq_some_iff] at configured
      obtain ⟨⟨c, a1⟩, got1, ⟨c', a2⟩, got2, last⟩ := configured
      cases last
      have low1 := getBlk_revLow got1 lowA
      have low2 := getBlk_revLow got2 ⟨low1.revAbove, low1.nextLe⟩
      exact ⟨low2.revAbove, low2.nextLe⟩
    have loop : ∀ (l : List Nat) (a b : Rrpc), RevLow g a → l.foldlM configureLun a = some b →
        RevLow g b := by
      intro l
      induction l with
      | nil =>
        intro a b lowA run
        cases Option.some.inj run
        exact lowA
      | cons i rest ih =>
        intro a b lowA run
        simp only [List.foldlM_cons, Option.bind_eq_bind, Option.bind_eq_some_iff] at run
        obtain ⟨mid, first, later⟩ := run
        exact ih mid b (lun a mid i lowA first) later
    exact loop _ _ _ fresh started

/-! ## Runs of host requests -/

inductive HostOp where
  | write (laddr payload : Nat)
  | discard (slba len : Nat)
  deriving DecidableEq, Repr

variable (g)

inductive HostStep : Sys → HostOp → Sys → Prop
  | write {s s' : Sys} {laddr payload : Nat} {done : Bool} :
      hostWrite g s laddr payload = .ok (done, s') → HostStep s (.write laddr payload) s'
  | discard {s : Sys} {slba len : Nat} :
      HostStep s (.discard slba len) ⟨rrpcInvalidateRange g s.ftl slba len, s.media⟩

theorem HostStep.of_ok {s : Sys} {laddr payload : Nat} {q : Bool × Sys}
    (wrote : hostWrite g s laddr payload = .ok q) : HostStep g s (.write laddr payload) q.2 :=
  @HostStep.write g s q.2 laddr payload q.1 (by rw [wrote])

/-- rrpc as `rrpc_init` leaves it over whatever the media holds. -/
def Started (s : Sys) : Prop := rrpcInit g = some s.ftl

variable {g}

theorem reachable_revLow {s : Sys} (reach : Reachable (Started g) (HostStep g) s) : RevLow g s.ftl := by
  refine Reachable.invariant (fun s : Sys => RevLow g s.ftl) (fun s started => init_revLow started) ?_ reach
  intro s op s' low stepped
  cases stepped with
  | write wrote => exact hostWrite_revLow low wrote
  | discard => exact invalidateRange_revLow _ _ low

/-- The pass of `rrpc_move_valid_pages` on a block other than LUN 0's block 0
that still holds a page not marked invalid changes nothing and goes round
again. -/
theorem moveValidPagesPass_stuck {s : Sys} {rb : BlkRef} (low : RevLow g s.ftl) (other : rb ≠ ⟨0, 0⟩)
    (exists_ : rb.id < g.blksPerLun)
    (valid : bitmapFull (s.ftl.blocks rb).invalidPages g.secPerBlk = false) :
    moveValidPagesPass g rb s = .inr s := by
  have slot := findFirstZeroBit_lt valid
  have past := blkToPpa_ge g other exists_
  have empty : s.ftl.revTransMap
      (rrpcBlkToPpa g rb + findFirstZeroBit (s.ftl.blocks rb).invalidPages g.secPerBlk) = addrEmpty :=
    low.revAbove _ (by omega)
  simp [moveValidPagesPass, empty, Nat.not_le.mpr slot]

theorem gc_scan_never_ends_off_first_block {s : Sys} (reach : Reachable (Started g) (HostStep g) s)
    {rb : BlkRef} (other : rb ≠ ⟨0, 0⟩) (exists_ : rb.id < g.blksPerLun)
    (valid : bitmapFull (s.ftl.blocks rb).invalidPages g.secPerBlk = false) (fuel : Nat) :
    rrpcMoveValidPages g rb fuel s = none := by
  have low := reachable_revLow reach
  -- no pass changes the state, so every pass meets the same free slot
  have spins : loopFuel (moveValidPagesPass g rb) fuel s = none :=
    loopFuel_diverges (fun t => t = s)
      (fun t same => ⟨t, by subst same; exact moveValidPagesPass_stuck low other exists_ valid, same⟩)
      fuel s rfl
  simp [rrpcMoveValidPages, valid, spins]

end Gc

def smallGeo : Geo := ⟨2, 10, 2⟩

/-- rrpc just started on `smallGeo`, over an empty media. -/
def smallStart : Sys := ⟨(rrpcInit smallGeo).get (by decide), fun _ => none⟩

/-- After host writes of logical page 0 and then of logical page 1: the round
robin puts the second on LUN 1, in its block 0. -/
def twoWrites : Sys :=
  let first := ((hostWrite smallGeo smallStart 0 7).toOption.getD (false, smallStart)).2
  ((hostWrite smallGeo first 1 8).toOption.getD (false, first)).2

theorem twoWrites_reachable : Reachable (Started smallGeo) (HostStep smallGeo) twoWrites := by
  have start : Reachable (Started smallGeo) (HostStep smallGeo) smallStart :=
    Reachable.init (Option.some_get (by decide : (rrpcInit smallGeo).isSome = true)).symm
  let first := ((hostWrite smallGeo smallStart 0 7).toOption.getD (false, smallStart)).2
  have wrote0 : hostWrite smallGeo smallStart 0 7 =
      .ok ((hostWrite smallGeo smallStart 0 7).toOption.getD (false, smallStart)) :=
    eq_ok_of_toBool (false, smallStart) (by decide)
  have wrote1 : hostWrite smallGeo first 1 8 =
      .ok ((hostWrite smallGeo first 1 8).toOption.getD (false, first)) :=
    eq_ok_of_toBool (false, first) (by decide)
  exact Reachable.step (Reachable.step start (HostStep.of_ok smallGeo wrote0)) (HostStep.of_ok smallGeo wrote1)

theorem gc_scan_never_ends_off_first_block_lun1 :
    bitmapFull (twoWrites.ftl.blocks ⟨1, 0⟩).invalidPages smallGeo.secPerBlk = false ∧
      ∀ fuel, rrpcMoveValidPages smallGeo ⟨1, 0⟩ fuel twoWrites = none :=
  ⟨by decide, gc_scan_never_ends_off_first_block twoWrites_reachable (by decide) (by decide) (by decide)⟩

end MStream.Rrpc
