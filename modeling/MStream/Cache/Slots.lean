import MStream.Cache

/-!
The ring slots a user chunk claims against the slots it fills. A chunk is
admitted for `nr_entries_padding` slots, by which `rb->mem` moves and
`nr_user` and `rb_user_cnt` grow. For a page-mapped stream that count is
fixed before the filling loop, from the pages the chunk spans and whether its
first page is already reserved; the loop then reserves four slots only for a
page it finds unreserved, and one for a sector of another segment. After the
loop the limiter's count is corrected to the slots filled, `nr_user` is
lowered by them only, and `mem` stays where the claim put it.

No build's `pblk_l2p_init` configures a page-mapped stream, and then no
segment ever becomes page-mapped (`NoPageSegments.l2pRun`): every sector of a
chunk goes to a fresh slot, and a chunk claims exactly the slots it fills.
-/
namespace MStream.Cache

open Machine Circ Address RingBuffer Dftl L2p

variable {cfg : CacheConfig}

/-! ## The filling loop -/

theorem fillLoop_step {c : CacheState} {ctx : WriteCtx} {i n posIndex : Nat} {real : Int}
    {res : Int × Nat × CacheState} (run : fillLoop cfg c ctx i (n + 1) posIndex real = .ok res) :
    ∃ (c' : CacheState) (posIndex' : Nat) (real' : Int), Keeps c c' ∧ real ≤ real' ∧ (posIndex' : Int) + real = posIndex + real' ∧
      fillLoop cfg c' ctx (i + 1) n posIndex' real' = .ok res := by
  simp only [fillLoop] at run
  obtain ⟨⟨r, c1⟩, got, run⟩ := bind_eq_ok.mp run
  have looked := getReservedAddr_keeps got
  dsimp only at run
  split at run
  · -- a page not yet reserved: its four slots are reserved and the lba looked up again
    split at run
    · cases run
    obtain ⟨c2, reserved, run⟩ := bind_eq_ok.mp run
    have four : Keeps c1 c2 :=
      foldlM_rel Keeps.refl Keeps.trans (fun _ _ _ done => reservedEntry_keeps done) _ _ _ reserved
    obtain ⟨⟨r', c3⟩, again, run⟩ := bind_eq_ok.mp run
    have before := looked.trans (four.trans (getReservedAddr_keeps again))
    simp only [pure_bind] at run
    -- the sector goes to its reserved slot, or to a fresh one
    split at run
    · split at run
      · obtain ⟨c4, wrote, run⟩ := bind_eq_ok.mp run
        exact ⟨c4, _, _, before.trans (writeEntryUserToRrwb_keeps wrote), by omega, by omega, run⟩
      · cases run
    · cases run
    · obtain ⟨c4, wrote, run⟩ := bind_eq_ok.mp run
      exact ⟨c4, _, _, before.trans (writeEntryUser_keeps wrote), by omega, by omega, run⟩
  · -- the lba's page is reserved in this buffer, or its segment is not page-mapped
    simp only [pure_bind] at run
    split at run
    · split at run
      · obtain ⟨c4, wrote, run⟩ := bind_eq_ok.mp run
        exact ⟨c4, _, _, looked.trans (writeEntryUserToRrwb_keeps wrote), Int.le_refl _, by omega, run⟩
      · cases run
    · cases run
    · obtain ⟨c4, wrote, run⟩ := bind_eq_ok.mp run
      exact ⟨c4, _, _, looked.trans (writeEntryUser_keeps wrote), by omega, by omega, run⟩

theorem fillLoop_keeps {c c' : CacheState} {ctx : WriteCtx} {i n posIndex posIndex' : Nat} {real real' : Int}
    (filled : fillLoop cfg c ctx i n posIndex real = .ok (real', posIndex', c')) :
    Keeps c c' ∧ real ≤ real' ∧ (posIndex' : Int) + real = posIndex + real' := by
  -- induction on the sectors left, each step by `fillLoop_step`
  induction n generalizing c i posIndex real with
  | zero =>
    simp only [fillLoop, pure_eq_ok, Prod.mk.injEq] at filled
    obtain ⟨rfl, rfl, rfl⟩ := filled
    exact ⟨Keeps.refl c, Int.le_refl _, rfl⟩
  | succ n ih =>
    obtain ⟨c1, p1, real1, keeps, up, moved, rest⟩ := fillLoop_step filled
    obtain ⟨keeps', up', moved'⟩ := ih rest
    exact ⟨keeps.trans keeps', Int.le_trans up up', by omega⟩

/-! ## What the call leaves -/

@[simp] theorem writeToCacheOut_rl (c : CacheState) (nrb : Nat) (padding : Int) :
    (writeToCacheOut c nrb padding).rl = c.rl := by
  unfold writeToCacheOut
  split_ifs <;> rfl

theorem writeToCacheOut_rb (c : CacheState) (nrb : Nat) (padding : Int) :
    (writeToCacheOut c nrb padding).rb nrb =
      if 0 < padding then { c.rb nrb with nrUser := wrap32 ((c.rb nrb).nrUser - padding) } else c.rb nrb := by
  unfold writeToCacheOut
  split_ifs <;> simp

@[simp] theorem pblkRlInserted_rbUserCnt (rl : RlPerRb) (nrEntries : Int) :
    (pblkRlInserted rl nrEntries).rbUserCnt = rl.rbUserCnt := by
  unfold pblkRlInserted
  split_ifs <;> rfl

theorem writeToCacheOut_entries (c : CacheState) (nrb : Nat) (padding : Int) (n pos : Nat) :
    ((writeToCacheOut c nrb padding).rb n).entries pos = (c.rb n).entries pos := by
  unfold writeToCacheOut
  split_ifs
  · by_cases same : n = nrb <;> simp [same]
  · rfl

@[simp] theorem writeToCacheOut_bmap (c : CacheState) (nrb : Nat) (padding : Int) :
    (writeToCacheOut c nrb padding).pblk.bmap = c.pblk.bmap := by
  unfold writeToCacheOut
  split_ifs <;> rfl

/-- The end of `__pblk_write_to_cache` after a filling loop that counted
`real` of the `padding` slots claimed in buffer `nrb`: the limiter gives back
the slots not filled, `nr_user` loses the filled ones, and nothing else
changes. -/
structure OutOf (nrb : Nat) (padding real : Int) (c c' : CacheState) : Prop where
  entries : ∀ n pos, (c'.rb n).entries pos = (c.rb n).entries pos
  mem : (c'.rb nrb).mem = (c.rb nrb).mem
  nrUser : (c'.rb nrb).nrUser = if 0 < real then wrap32 ((c.rb nrb).nrUser - real) else (c.rb nrb).nrUser
  rbUserCnt : (c'.rl nrb).rbUserCnt = (c.rl nrb).rbUserCnt - (padding - real)
  bmap : c'.pblk.bmap = c.pblk.bmap

theorem writeToCacheAt_filled {c c' : CacheState} {ctx : WriteCtx}
    (filling : ¬(ctx.startI = ctx.nrEntries ∨ ctx.hasData = false))
    (wrote : writeToCacheAt cfg c ctx = .ok (.done, c')) :
    ∃ c1 real p c2, pblkRbMayWriteUser cfg c ctx.nrb ctx.padding.toNat = .ok (.done, (c.rb ctx.nrb).mem, c1) ∧
      fillLoop cfg (c1.setRl ctx.nrb (pblkRlUserIn (c1.rl ctx.nrb) ctx.padding)) ctx ctx.startI
        (ctx.nrEntries - ctx.startI) (c.rb ctx.nrb).mem 0 = .ok (real, p, c2) ∧ real ≤ ctx.padding ∧
      OutOf ctx.nrb ctx.padding real c2 c' := by
  unfold writeToCacheAt at wrote
  obtain ⟨⟨ret, pos, c1⟩, granted, rest⟩ := bind_eq_ok.mp wrote
  dsimp only at rest
  split at rest
  · simp at rest
  · simp at rest
  rw [if_neg filling] at rest
  obtain ⟨⟨real, p, c2⟩, filled, rest⟩ := bind_eq_ok.mp rest
  dsimp only at rest
  split at rest
  · cases rest
  next within =>
  simp only [pure_eq_ok, Prod.mk.injEq] at rest
  obtain ⟨rfl, rfl⟩ := rest
  obtain ⟨rfl, -⟩ := mayWriteUser_granted granted
  refine ⟨c1, real, p, c2, granted, filled, Int.not_lt.mp within, ⟨fun n pos => ?_, ?_, ?_, ?_, ?_⟩⟩
  · rw [writeToCacheOut_entries]
    split_ifs <;> rfl
  · rw [writeToCacheOut_rb]
    split_ifs <;> rfl
  · rw [writeToCacheOut_rb]
    split_ifs <;> rfl
  · -- the correction gives back what was admitted and not filled
    by_cases short : real < ctx.padding
    · simp [short, CacheState.setRl, pblkRlOut]
    · simp [short, CacheState.setRl]
      omega
  · rw [writeToCacheOut_bmap]
    split_ifs <;> rfl

theorem writeToCacheAt_unfilled {c c' : CacheState} {ctx : WriteCtx}
    (skip : ctx.startI = ctx.nrEntries ∨ ctx.hasData = false) (wrote : writeToCacheAt cfg c ctx = .ok (.done, c')) :
    ∃ c1, pblkRbMayWriteUser cfg c ctx.nrb ctx.padding.toNat = .ok (.done, (c.rb ctx.nrb).mem, c1) ∧
      c' = writeToCacheOut (c1.setRl ctx.nrb (pblkRlUserIn (c1.rl ctx.nrb) ctx.padding)) ctx.nrb ctx.padding := by
  unfold writeToCacheAt at wrote
  obtain ⟨⟨ret, pos, c1⟩, granted, rest⟩ := bind_eq_ok.mp wrote
  dsimp only at rest
  split at rest
  · simp at rest
  · simp at rest
  rw [if_pos skip] at rest
  simp only [pure_eq_ok, Prod.mk.injEq] at rest
  obtain ⟨rfl, rfl⟩ := rest
  obtain ⟨rfl, -⟩ := mayWriteUser_granted granted
  exact ⟨c1, granted, rfl⟩

/-- A user chunk that the buffer admits and whose sectors the loop writes
claims `nr_entries_padding` slots from the buffer's head, and `mem` ends
past all of them; the loop, started at the head, fills `real` of them, the
first ones, and the limiter ends up counting those; `nr_user` is lowered by
`real` only, so the slots claimed and never filled stay counted in it. -/
theorem write_to_cache_claims_unfilled {c c' : CacheState} {ctx : WriteCtx}
    (fills : ctx.startI < ctx.nrEntries) (data : ctx.hasData = true)
    (wrote : writeToCacheAt cfg c ctx = .ok (.done, c')) :
    ∃ real : Int, 0 ≤ real ∧ real ≤ ctx.padding ∧
      (c'.rb ctx.nrb).mem = advance (c.rb ctx.nrb).mem ctx.padding.toNat (c.rb ctx.nrb).nrEntries ∧
      (∃ c1 c2, pblkRbMayWriteUser cfg c ctx.nrb ctx.padding.toNat = .ok (.done, (c.rb ctx.nrb).mem, c1) ∧
        fillLoop cfg (c1.setRl ctx.nrb (pblkRlUserIn (c1.rl ctx.nrb) ctx.padding)) ctx ctx.startI
          (ctx.nrEntries - ctx.startI) (c.rb ctx.nrb).mem 0 = .ok (real, (c.rb ctx.nrb).mem + real.toNat, c2) ∧
        (c'.rl ctx.nrb).rbUserCnt = (c1.rl ctx.nrb).rbUserCnt + real) ∧
      (c'.rb ctx.nrb).nrUser =
        if 0 < real then wrap32 (wrap32 ((c.rb ctx.nrb).nrUser + ctx.padding.toNat : Nat) - real)
        else wrap32 ((c.rb ctx.nrb).nrUser + ctx.padding.toNat : Nat) := by
  have filling : ¬ (ctx.startI = ctx.nrEntries ∨ ctx.hasData = false) := by
    simp only [data, Bool.true_eq_false, or_false]
    omega
  obtain ⟨c1, real, p, c2, granted, filled, within, out⟩ := writeToCacheAt_filled filling wrote
  obtain ⟨-, claimed, counted, -⟩ := mayWriteUser_granted granted
  obtain ⟨keeps, nonneg, moved⟩ := fillLoop_keeps filled
  have ended : p = (c.rb ctx.nrb).mem + real.toNat := by omega
  subst ended
  -- from the claim to the end, only the limiter and `nr_user` change
  have mem2 : (c2.rb ctx.nrb).mem = (c1.rb ctx.nrb).mem := keeps.heads.mem ctx.nrb
  have user2 : (c2.rb ctx.nrb).nrUser = (c1.rb ctx.nrb).nrUser := keeps.heads.nrUser ctx.nrb
  have rl2 : (c2.rl ctx.nrb).rbUserCnt = (c1.rl ctx.nrb).rbUserCnt + ctx.padding := by
    rw [keeps.rl]
    simp [CacheState.setRl, pblkRlUserIn]
  refine ⟨real, nonneg, within, by rw [out.mem, mem2, claimed], ⟨c1, c2, granted, filled, ?_⟩, ?_⟩
  · rw [out.rbUserCnt, rl2]
    omega
  · rw [out.nrUser, user2, counted]

/-- Sixteen-entry write buffers, every lba in the page-mapped stream 2 of
`mixedConfig`. -/
def pageConfig : CacheConfig where
  l2p := mixedConfig
  rbUserMax := 16
  nrSecs := 128
  getLstream := fun _ _ => 2
  maxLstream := 7

/-- The write path after `pblk_init` with segment 0 moved to the sector-mapped
stream 0 and then to the page-mapped stream 2. -/
def pageInit : CacheState where
  pblk := (l2pRun mixedConfig (pblkL2pInit fun nrb => pblkRbInit nrb 4) [.setLstream 0 0, .setLstream 0 2]).toOption.getD
    (pblkL2pInit fun nrb => pblkRbInit nrb 4)
  rl := fun _ => { rbUserCnt := 0, rbGcCnt := 0, rbSpace := -1 }
  stopped := false
  invalidated := []

/-- A one-sector write of lba 6: it reserves page 1 (lbas 4 to 7) in slots 0 to 3. -/
def lba6Written : NvmIo × CacheState :=
  (pblkWriteToCache pageConfig pageInit ⟨6, 1, 0, true⟩ { user := true }).toOption.getD (.err, pageInit)

theorem lba6Written_run :
    pblkWriteToCache pageConfig pageInit ⟨6, 1, 0, true⟩ { user := true } = .ok lba6Written :=
  eq_ok_of_toBool _ (by decide +kernel)

/-- A four-sector chunk of lbas 2 to 5 up to `retry:`: it spans pages 0 and 1 and
its first page is unreserved, so it asks for eight slots. -/
def lba2Chunk : WriteCtx × CacheState :=
  (writeToCachePrepare pageConfig lba6Written.2 2 4 0 { user := true } true).toOption.getD
    (⟨0, 0, 0, 0, 0, {}, false⟩, pageInit)

theorem lba2Chunk_run : writeToCachePrepare pageConfig lba6Written.2 2 4 0 { user := true } true = .ok lba2Chunk :=
  eq_ok_of_toBool _ (by decide +kernel)

def lba2Written : CacheState :=
  ((writeToCacheAt pageConfig lba2Chunk.2 lba2Chunk.1).toOption.getD (.err, pageInit)).2

theorem lba2Written_run : writeToCacheAt pageConfig lba2Chunk.2 lba2Chunk.1 = .ok (.done, lba2Written) :=
  eq_ok_pair_of_toBool _ (by decide +kernel) (by decide +kernel)

/-- After the write of lba 6, the chunk of lbas 2 to 5 claims slots 4 to 11
(`mem` ends at 12); the loop reserves page 0 in slots 4 to 7 and writes lbas 4
and 5 into the slots lba 6 reserved, so it fills four; slots 8 to 11 stay
neither written nor invalidated, and `nr_user` keeps them. -/
example :
    pblkWriteToCache pageConfig pageInit ⟨6, 1, 0, true⟩ { user := true } = .ok lba6Written ∧
      writeToCachePrepare pageConfig lba6Written.2 2 4 0 { user := true } true = .ok lba2Chunk ∧
      writeToCacheAt pageConfig lba2Chunk.2 lba2Chunk.1 = .ok (.done, lba2Written) ∧ lba2Chunk.1.padding = 8 ∧
      (lba2Written.rb 2).mem = 12 ∧ (lba2Written.rb 2).nrUser = 4 ∧
      (∀ pos ∈ [8, 9, 10, 11], ((lba2Written.rb 2).entries pos).flags = .writableOnly) ∧
      ∃ c1 c2, pblkRbMayWriteUser pageConfig lba2Chunk.2 2 8 = .ok (.done, 4, c1) ∧
        fillLoop pageConfig (c1.setRl 2 (pblkRlUserIn (c1.rl 2) 8)) lba2Chunk.1 0 4 4 0 = .ok (4, 8, c2) := by
  obtain ⟨real, nonneg, le, -, ⟨c1, c2, granted, filled, -⟩, user⟩ :=
    write_to_cache_claims_unfilled (by decide +kernel) (by decide +kernel) lba2Written_run
  have chunk : lba2Chunk.1.nrb = 2 ∧ lba2Chunk.1.padding = 8 ∧ lba2Chunk.1.startI = 0 ∧
      lba2Chunk.1.nrEntries = 4 := by
    decide +kernel
  have head : (lba2Chunk.2.rb 2).mem = 4 ∧ (lba2Chunk.2.rb 2).nrUser = 0 := by decide +kernel
  have after : (lba2Written.rb 2).nrUser = 4 := by decide +kernel
  obtain ⟨nrb, padding, start, entries⟩ := chunk
  rw [nrb, padding, head.2, after] at user
  rw [padding] at le
  rw [nrb, padding, head.1] at granted
  rw [nrb, padding, start, entries, head.1] at filled
  -- four slots filled of the eight claimed, read back from `nr_user`
  have eight : wrap32 ((0 + Int.toNat 8 : Nat) : Int) = 8 := rfl
  have four : real = 4 := by
    by_cases some : 0 < real
    · rw [if_pos some, eight, wrap32] at user
      omega
    · rw [if_neg some, eight] at user
      omega
  subst four
  refine ⟨lba6Written_run, lba2Chunk_run, lba2Written_run, padding, by decide +kernel, after, by decide +kernel, c1, c2,
    granted, filled⟩

/-! ## Stream tables without page maps -/

section NoPage

/-- An entry the writer thread passes in `pblk_rb_read_to_bio`: written or
invalidated. -/
def Filled (f : Flags) : Prop := f.written = true ∨ f.invalidate = true

/-- A write-path step that keeps every entry written or invalidated so and no
segment page-mapped. -/
structure Settles (c c' : CacheState) : Prop where
  filled : ∀ nrb pos, Filled ((c.rb nrb).entries pos).flags → Filled ((c'.rb nrb).entries pos).flags
  flat : NoPageSegments c.pblk → NoPageSegments c'.pblk

theorem Settles.refl (c : CacheState) : Settles c c := ⟨fun _ _ => id, id⟩

theorem Settles.trans {c c' c'' : CacheState} (first : Settles c c') (second : Settles c' c'') : Settles c c'' :=
  ⟨fun nrb pos filled => second.filled nrb pos (first.filled nrb pos filled), fun flat => second.flat (first.flat flat)⟩

theorem Settles.of_pblk {c c' : CacheState} (rwb : c'.pblk.rwb = c.pblk.rwb) (bmap : c'.pblk.bmap = c.pblk.bmap) :
    Settles c c' := by
  refine ⟨fun nrb pos filled => ?_, fun flat => flat.of_bmap bmap⟩
  simpa [CacheState.rb, rwb] using filled

theorem settles_setEntry (c : CacheState) (nrb pos : Nat) {w : WCtx}
    (keep : Filled ((c.rb nrb).entries pos).flags → Filled w.flags) :
    Settles c (c.setRb nrb ((c.rb nrb).setEntry pos w)) := by
  refine ⟨fun n p filled => ?_, fun flat => flat.of_bmap rfl⟩
  rw [CacheState.setRb_rb]
  split
  · next same =>
    subst same
    rw [Rb.setEntry_entries]
    split
    · next here => exact keep (here ▸ filled)
    · exact filled
  · exact filled

theorem takeShadow_filled (s : Pblk) (nrb line : Nat) {flags : Flags} (invalid : flags.invalidate = true)
    (n pos : Nat) (filled : Filled ((s.rwb n).entries pos).flags) :
    Filled (((takeShadow s nrb line flags).2.rwb n).entries pos).flags := by
  simp only [takeShadow, Pblk.setRwb, Function.update_apply]
  split
  · next same =>
    subst same
    rw [Rb.setEntry_entries]
    split
    · exact .inr invalid
    · exact filled
  · exact filled

theorem cacheInvalidate_filled (s : Pblk) (rPpa : PpaAddr) (nrb pos : Nat)
    (filled : Filled ((s.rwb nrb).entries pos).flags) :
    Filled ((((pblkCacheInvalidate s rPpa).2.rwb nrb).entries pos).flags) := by
  unfold pblkCacheInvalidate
  split
  · dsimp only
    split_ifs <;> first | exact filled | exact takeShadow_filled _ _ _ rfl _ _ filled
  · exact filled

variable (streams : NoPageStreams cfg.l2p)
include streams

theorem cacheMapSet_settles {c c' : CacheState} {lba : Nat} {ppa : PpaAddr}
    (set : c.updatePblk (fun s => pblkCacheMapSet cfg.l2p s lba ppa) = .ok c') : Settles c c' := by
  obtain ⟨s', set, done⟩ := bind_eq_ok.mp set
  rw [← pure_eq_ok.mp done]
  exact ⟨fun nrb pos filled => by simpa [CacheState.withPblk, CacheState.rb, cacheMapSet_rwb set] using filled,
    fun flat => cacheMapSet_noPage streams flat set⟩

theorem updateMapCache_settles {c c' : CacheState} {lba : Nat} {ppa : PpaAddr}
    (updated : pblkUpdateMapCache cfg c lba ppa = .ok c') : Settles c c' := by
  obtain ⟨⟨l2pPpa, s⟩, read, rest⟩ := bind_eq_ok.mp updated
  dsimp only at rest
  have looked : Settles c (c.withPblk s) := Settles.of_pblk (transMapGet_rwb read) (transMapGet_bmap read)
  -- the shadowed entry, if any, is invalidated in place
  have shadow : Settles c (c.withPblk (if pblkAddrInCache ppa then pblkCacheInvalidate s l2pPpa else (l2pPpa, s)).2) := by
    by_cases cached : pblkAddrInCache ppa
    · rw [if_pos cached]
      refine looked.trans ⟨fun nrb pos filled => cacheInvalidate_filled s l2pPpa nrb pos filled, fun flat => ?_⟩
      exact flat.of_bmap (cacheInvalidate_bmap l2pPpa)
    · rw [if_neg cached]
      exact looked
  generalize (if pblkAddrInCache ppa then pblkCacheInvalidate s l2pPpa else (l2pPpa, s)) = p at rest shadow
  refine shadow.trans ?_
  split_ifs at rest
  · exact (Settles.of_pblk rfl rfl : Settles (c.withPblk p.2) ((c.withPblk p.2).invalidate p.1)).trans
      (cacheMapSet_settles streams rest)
  · exact cacheMapSet_settles streams rest

theorem writeEntryUser_settles {c c' : CacheState} {nrb pos : Nat} {w : WCtx}
    (wrote : pblkRbWriteEntryUser cfg c nrb w pos = .ok c') :
    Settles c c' ∧ Filled ((c'.rb nrb).entries pos).flags := by
  unfold pblkRbWriteEntryUser at wrote
  dsimp only at wrote
  split at wrote
  · cases wrote
  · obtain ⟨mapped, map, done⟩ := bind_eq_ok.mp wrote
    rw [← pure_eq_ok.mp done]
    have placed := settles_setEntry c nrb pos (w := { (c.rb nrb).entries pos with lba := w.lba, ppa := w.ppa }) id
    refine ⟨(placed.trans (updateMapCache_settles streams map)).trans (settles_setEntry _ _ _ fun _ => .inl rfl), ?_⟩
    simp [Rb.setEntry_entries, Filled]

omit streams in
theorem getReservedAddr_of_flat {c : CacheState} (flat : NoPageSegments c.pblk) (lba : Nat) :
    pblkGetReservedAddr cfg c lba = .ok (none, c) := by
  unfold pblkGetReservedAddr
  rw [if_pos (flat _)]
  rfl

omit streams in
theorem fillLoop_succ_of_flat {c : CacheState} {ctx : WriteCtx} {i n posIndex : Nat} {real : Int}
    (flat : NoPageSegments c.pblk) :
    fillLoop cfg c ctx i (n + 1) posIndex real =
      pblkRbWriteEntryUser cfg c ctx.nrb (userWCtx (ctx.lba + i) ctx.flags) (pblkRbWrapPos (c.rb ctx.nrb) posIndex) >>=
        fun c => fillLoop cfg c ctx (i + 1) n (posIndex + 1) (real + 1) := by
  simp only [fillLoop, getReservedAddr_of_flat flat, ok_bind, ownReserved]
  rfl

theorem fillLoop_noPage {c c' : CacheState} {ctx : WriteCtx} {i n posIndex posIndex' : Nat} {real real' : Int}
    (flat : NoPageSegments c.pblk) (filled : fillLoop cfg c ctx i n posIndex real = .ok (real', posIndex', c')) :
    real' = real + n ∧ posIndex' = posIndex + n ∧ Settles c c' ∧
      ∀ j < n, Filled ((c'.rb ctx.nrb).entries (pblkRbWrapPos (c.rb ctx.nrb) (posIndex + j))).flags := by
  -- induction on the sectors left, one fresh slot each
  induction n generalizing c i posIndex real with
  | zero =>
    simp only [fillLoop, pure_eq_ok, Prod.mk.injEq] at filled
    obtain ⟨rfl, rfl, rfl⟩ := filled
    exact ⟨by simp, rfl, Settles.refl c, fun j below => absurd below (Nat.not_lt_zero j)⟩
  | succ n ih =>
    rw [fillLoop_succ_of_flat flat] at filled
    obtain ⟨c1, wrote, rest⟩ := bind_eq_ok.mp filled
    obtain ⟨settles, here⟩ := writeEntryUser_settles streams wrote
    obtain ⟨counted, moved, later, after⟩ := ih (settles.flat flat) rest
    have size := (writeEntryUser_keeps wrote).heads.power ctx.nrb
    have wraps : pblkRbWrapPos (c1.rb ctx.nrb) = pblkRbWrapPos (c.rb ctx.nrb) :=
      pblkRbWrapPos_congr (congrArg (2 ^ ·) size)
    refine ⟨by rw [counted]; push_cast; ring, by rw [moved]; ring, settles.trans later, fun j below => ?_⟩
    cases j with
    | zero => exact later.filled _ _ here
    | succ j =>
      have slot := after j (by omega)
      rwa [wraps, show posIndex + 1 + j = posIndex + (j + 1) by omega] at slot

theorem updateMapDev_noPage {c c' : CacheState} {lba : Nat} {ppa entryLine : PpaAddr}
    (flat : NoPageSegments c.pblk) (updated : pblkUpdateMapDev cfg c lba ppa entryLine = .ok c') :
    NoPageSegments c'.pblk := by
  unfold pblkUpdateMapDev at updated
  dsimp only at updated
  split at updated
  · cases pure_eq_ok.mp updated
    exact flat
  split at updated
  · cases pure_eq_ok.mp updated
    exact flat
  obtain ⟨⟨l2pLine, s⟩, read, rest⟩ := bind_eq_ok.mp updated
  dsimp only at rest
  have looked : NoPageSegments s := flat.of_bmap (transMapGet_bmap read)
  split at rest
  · cases pure_eq_ok.mp rest
    split_ifs
    · exact looked
    · exact looked
  · obtain ⟨s', set, done⟩ := bind_eq_ok.mp rest
    rw [← pure_eq_ok.mp done]
    exact devMapSet_noPage streams looked set

theorem mayWriteUser_noPage {c c' : CacheState} {nrb n pos : Nat} {ret : NvmIo} (flat : NoPageSegments c.pblk)
    (granted : pblkRbMayWriteUser cfg c nrb n = .ok (ret, pos, c')) : NoPageSegments c'.pblk := by
  unfold pblkRbMayWriteUser at granted
  split at granted
  · split at granted
    · cases pure_eq_ok.mp granted
      exact flat
    · obtain ⟨mid, recycle, done⟩ := bind_eq_ok.mp granted
      simp only [pure_eq_ok, Prod.mk.injEq] at done
      obtain ⟨-, -, rfl⟩ := done
      obtain ⟨updated, fold, done⟩ := bind_eq_ok.mp recycle
      rw [← pure_eq_ok.mp done]
      have recycled := foldlM_rel (r := fun a b : CacheState => NoPageSegments a.pblk → NoPageSegments b.pblk)
        (fun _ => id) (fun first second flat => second (first flat))
        (fun _ _ _ updated flat => updateMapDev_noPage streams flat updated) _ _ _ fold
      exact recycled (flat.of_bmap rfl)
  · cases pure_eq_ok.mp granted
    exact flat

omit streams in
theorem writeToCachePrepare_of_sector {c c' : CacheState} {lba nrEntries hint : Nat} {flags : Flags} {hasData : Bool}
    {ctx : WriteCtx} (unpaged : (cfg.l2p.lstream (userBuffer cfg lba hint)).mapType ≠ .page)
    (prepared : writeToCachePrepare cfg c lba nrEntries hint flags hasData = .ok (ctx, c')) :
    c' = c ∧ ctx.nrb = userBuffer cfg lba hint ∧ ctx.lba = lba ∧ ctx.nrEntries = nrEntries ∧
      ctx.padding = nrEntries ∧ ctx.startI = 0 ∧ ctx.flags = flags ∧ ctx.hasData = hasData := by
  unfold writeToCachePrepare at prepared
  dsimp only at prepared
  split at prepared
  · next empty =>
    simp only [pure_eq_ok, Prod.mk.injEq] at prepared
    obtain ⟨rfl, rfl⟩ := prepared
    simp [empty]
  · simp only [pure_eq_ok, Prod.mk.injEq] at prepared
    obtain ⟨rfl, rfl⟩ := prepared
    simp

/-- On a stream table without page-mapped streams, a chunk of `nrEntries`
sectors with data that its buffer admits claims exactly the slots it fills:
`mem` moves by `nrEntries`, every claimed slot is written or invalidated when
the call returns, `nr_user` is back where it was, the limiter counts the
`nrEntries` entries on top of what the claim left, and no segment becomes
page-mapped. -/
theorem write_to_cache_fills_its_claim {c c' : CacheState} {lba nrEntries hint nrb : Nat} {flags : Flags}
    (buffer : userBuffer cfg lba hint = nrb) (flat : NoPageSegments c.pblk) (unsigned : (c.rb nrb).nrUser < 2 ^ 32)
    (wrote : pblkWriteToCacheChunk cfg c lba nrEntries hint flags true = .ok (.done, c')) :
    ∃ c1, pblkRbMayWriteUser cfg c nrb nrEntries = .ok (.done, (c.rb nrb).mem, c1) ∧
      (c'.rb nrb).mem = advance (c.rb nrb).mem nrEntries (c.rb nrb).nrEntries ∧
      (∀ j < nrEntries, Filled ((c'.rb nrb).entries (pblkRbWrapPos (c.rb nrb) ((c.rb nrb).mem + j))).flags) ∧
      (c'.rb nrb).nrUser = (c.rb nrb).nrUser ∧
      (c'.rl nrb).rbUserCnt = (c1.rl nrb).rbUserCnt + nrEntries ∧
      NoPageSegments c'.pblk := by
  obtain ⟨⟨ctx, c0⟩, prepared, at_⟩ := bind_eq_ok.mp wrote
  obtain ⟨rfl, own, -, entries, padding, start, -, data⟩ := writeToCachePrepare_of_sector (streams _) prepared
  rw [buffer] at own
  have claimed : ctx.padding.toNat = nrEntries := by rw [padding, Int.toNat_natCast]
  by_cases empty : nrEntries = 0
  · -- no sector: the `start_i = nr_entries` exit, with nothing claimed
    subst empty
    obtain ⟨c1, granted, rfl⟩ := writeToCacheAt_unfilled (.inl (by rw [start, entries])) at_
    rw [own, claimed] at granted
    obtain ⟨-, moved, counted, -⟩ := mayWriteUser_granted granted
    refine ⟨c1, granted, ?_, fun j below => absurd below (Nat.not_lt_zero j), ?_, ?_, ?_⟩
    · simp [writeToCacheOut, own, padding, moved]
    · simp [writeToCacheOut, own, padding, counted, wrap32_natCast unsigned]
    · simp [own, padding, CacheState.setRl, pblkRlUserIn]
    · exact (mayWriteUser_noPage streams flat granted).of_bmap (by rw [writeToCacheOut_bmap]; rfl)
  · obtain ⟨c1, real, p, c2, granted, filled, -, out⟩ :=
      writeToCacheAt_filled (by rw [start, entries, data]; simp; omega) at_
    rw [own, claimed] at granted
    rw [own, start, entries, Nat.sub_zero] at filled
    rw [own] at out
    obtain ⟨-, moved, counted, size⟩ := mayWriteUser_granted granted
    -- the loop runs on the claimed buffer with the limiter charged
    generalize hmid : c1.setRl nrb (pblkRlUserIn (c1.rl nrb) ctx.padding) = mid at filled
    have midRb : mid.rb = c1.rb := by rw [← hmid, CacheState.setRl_rb]
    have flat1 : NoPageSegments mid.pblk := by
      rw [← hmid]
      exact (mayWriteUser_noPage streams flat granted : NoPageSegments c1.pblk)
    obtain ⟨real_eq, -, settles, slots⟩ := fillLoop_noPage streams flat1 filled
    have keeps := (fillLoop_keeps filled).1
    rw [Int.zero_add] at real_eq
    subst real_eq
    refine ⟨c1, granted, ?_, fun j below => ?_, ?_, ?_, (settles.flat flat1).of_bmap out.bmap⟩
    · rw [out.mem, show (c2.rb nrb).mem = (mid.rb nrb).mem from keeps.heads.mem nrb, midRb]
      exact moved
    · -- the slots the loop filled from the claimed head
      have slot := slots j below
      rw [own, midRb, pblkRbWrapPos_congr size, ← out.entries] at slot
      exact slot
    · rw [out.nrUser, if_pos (by omega), show (c2.rb nrb).nrUser = (mid.rb nrb).nrUser from keeps.heads.nrUser nrb,
        midRb, counted]
      exact wrap32_add_sub unsigned
    · rw [out.rbUserCnt, keeps.rl, ← hmid]
      simp [CacheState.setRl, pblkRlUserIn, padding]

end NoPage

/-- The stream table of a build without `PBLK_ALL_PMT`, with user writes
steered to the block-mapped stream 4. -/
def blockConfig : CacheConfig where
  l2p := l2pInitConfig mixedFormat 4 false
  rbUserMax := 16
  nrSecs := 128
  getLstream := fun _ _ => 4
  maxLstream := 7

/-- The write path after `pblk_init` with segment 0 moved to stream 4. -/
def blockInit : CacheState where
  pblk := (l2pRun blockConfig.l2p (pblkL2pInit fun nrb => pblkRbInit nrb 3) [.setLstream 0 4]).toOption.getD
    (pblkL2pInit fun nrb => pblkRbInit nrb 3)
  rl := fun _ => { rbUserCnt := 0, rbGcCnt := 0, rbSpace := -1 }
  stopped := false
  invalidated := []

theorem blockInit_run :
    l2pRun blockConfig.l2p (pblkL2pInit fun nrb => pblkRbInit nrb 3) [.setLstream 0 4] = .ok blockInit.pblk :=
  eq_ok_of_toBool (pblkL2pInit fun nrb => pblkRbInit nrb 3) (by decide +kernel)

theorem blockInit_flat : NoPageSegments blockInit.pblk :=
  (noPageSegments_init _).l2pRun (l2pInitConfig_noPage _ _ _) _ blockInit_run

/-- A four-sector chunk of lbas 8 to 11 into the block-mapped segment: its
first sector creates the segment's log, which `pblk_cache_map_set` allows at
offset 8 only. -/
def blockWritten : CacheState :=
  ((pblkWriteToCacheChunk blockConfig blockInit 8 4 0 { user := true } true).toOption.getD (.err, blockInit)).2

theorem blockWritten_run :
    pblkWriteToCacheChunk blockConfig blockInit 8 4 0 { user := true } true = .ok (.done, blockWritten) :=
  eq_ok_pair_of_toBool _ (by decide +kernel) (by decide +kernel)

theorem write_to_cache_fills_block_stream :
    NoPageStreams blockConfig.l2p ∧ userBuffer blockConfig 8 0 = 4 ∧ NoPageSegments blockInit.pblk ∧
      (blockInit.rb 4).nrUser < 2 ^ 32 ∧
      pblkWriteToCacheChunk blockConfig blockInit 8 4 0 { user := true } true = .ok (.done, blockWritten) ∧
      ∃ c1, pblkRbMayWriteUser blockConfig blockInit 4 4 = .ok (.done, (blockInit.rb 4).mem, c1) ∧
        (blockWritten.rb 4).mem = advance (blockInit.rb 4).mem 4 (blockInit.rb 4).nrEntries ∧
        (∀ j < 4, Filled ((blockWritten.rb 4).entries (pblkRbWrapPos (blockInit.rb 4) ((blockInit.rb 4).mem + j))).flags) ∧
        (blockWritten.rb 4).nrUser = (blockInit.rb 4).nrUser ∧
        (blockWritten.rl 4).rbUserCnt = (c1.rl 4).rbUserCnt + 4 ∧ NoPageSegments blockWritten.pblk :=
  ⟨l2pInitConfig_noPage _ _ _, by decide, blockInit_flat, by decide +kernel, blockWritten_run,
    write_to_cache_fills_its_claim (l2pInitConfig_noPage _ _ _) (by decide) blockInit_flat (by decide +kernel)
      blockWritten_run⟩

end MStream.Cache
