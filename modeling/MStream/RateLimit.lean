import MStream.Cache
import MStream.Reach

/-!
The rate limiter of pblk-rl.c and the GC switch of pblk-gc.c it drives. Each
write buffer of `rb_budget` entries is shared between user and GC writes:
`pblk_rl_update_rates` gives users the whole budget while at least `high` blocks
are free, and below that a number of windows of `PBLK_MAX_REQ_ADDRS` entries
that shrinks with the free blocks, down to none at the GC reserve; GC gets the
rest. The rates are recomputed when a line is freed (`pblk_rl_free_lines_inc`)
and on `pblk_gc_should_kick`, which also start or stop GC; taking a line
(`pblk_rl_free_lines_dec`) only lowers the count.

With `high = RESERVED_SPACE` rounded up to `2 ^ high_pw` and a budget of
`2 ^ rb_windows_pw` windows, `high_pw - rb_windows_pw` is the shift that turns
free blocks into user windows; as long as it is not negative, GC keeps at least
one window whenever users are limited (`rl_run_keeps_gc_window`). The thresholds
`low` and `total_blocks`, `rb_max_io` and `rb_gc_rsv` are read by no function
modelled here.
-/

namespace MStream.RateLimit

open Machine Cache Reach

/-! ## linux/bitops.h -/

/-- `fls`: the number of bits up to the highest one set, 0 for 0. -/
def fls (x : Nat) : Nat := x.size

/-- `get_count_order`: the order of the least power of two at least `count`,
-1 for 0. -/
def getCountOrder (count : Nat) : Int :=
  let order : Int := fls count - 1
  if count &&& (count - 1) ≠ 0 then order + 1 else order

theorem getCountOrder_two_pow (k : Nat) : getCountOrder (2 ^ k) = k := by
  have clear : 2 ^ k &&& (2 ^ k - 1) = 0 := by
    rw [Nat.and_two_pow_sub_one_eq_mod, Nat.mod_self]
  simp [getCountOrder, fls, Nat.size_pow, clear]

/-! ## The limiter and the GC switch -/

def pblkRlHigh : Nat := 1
def pblkRlMid : Nat := 2
def pblkRlLow : Nat := 3

/-- `PBLK_MAX_REQ_ADDRS` and its order, as pblk.h sets them with `RWB_BUFFER`. -/
def pblkMaxReqAddrs : Nat := 16
def pblkMaxReqAddrsPw : Nat := 4

def reservedSpace : Nat := 16 + 5

def pblkGcRsvLine : Nat := 1

structure Rl where
  high : Nat
  highPw : Nat
  rbWindowsPw : Int
  rbBudget : Int
  rbUserMax : Int
  rbGcMax : Int
  rbState : Nat
  rsvBlocks : Int
  freeBlocks : Int
  deriving DecidableEq, Repr

structure Gc where
  gcEnabled : Bool
  gcActive : Bool
  gcForced : Bool
  deriving DecidableEq, Repr

/-- `pblk_rl_nr_free_blks`: the atomic count read as an `unsigned long`. -/
def pblkRlNrFreeBlks (rl : Rl) : Nat := wrap64 rl.freeBlocks

/-- `pblk_rl_update_rates`, with its new `rb_state`. `max` is the `int`
`rb_budget` the callers pass; its trips through `unsigned long` give back the
same `int`. -/
def pblkRlUpdateRates (rl : Rl) (max : Int) : Rl × Nat :=
  let freeBlocks := pblkRlNrFreeBlks rl
  if rl.high ≤ freeBlocks then
    let rl := { rl with rbUserMax := max, rbGcMax := 0, rbState := pblkRlHigh }
    (rl, rl.rbState)
  else
    -- the C tests `free_blocks < rl->high` again, which holds here
    let shift := toInt32 (wrap32 (rl.highPw - rl.rbWindowsPw))
    let userWindows := toInt32 (wrap32 (shr64 freeBlocks shift))
    let userMax := userWindows * 2 ^ pblkMaxReqAddrsPw
    let rl := { rl with rbUserMax := userMax, rbGcMax := max - userMax }
    let rl := if freeBlocks ≤ wrap64 rl.rsvBlocks then { rl with rbUserMax := 0, rbGcMax := max } else rl
    let rl := { rl with rbState := pblkRlLow }
    (rl, rl.rbState)

/-- `pblk_rl_gc_may_insert`: GC is held back only at its share while users write. -/
def pblkRlGcMayInsert (rl : Rl) (rbGcCnt : Int) (rbUserActive : Bool) : Bool :=
  !(decide (rl.rbGcMax ≤ rbGcCnt) && rbUserActive)

/-- `pblk_gc_should_start`; the kick of the GC threads is not modelled. -/
def pblkGcShouldStart (gc : Gc) : Gc :=
  if gc.gcEnabled && !gc.gcActive then { gc with gcActive := true } else gc

def pblkGcShouldStop (gc : Gc) : Gc :=
  if gc.gcActive && !gc.gcForced then { gc with gcActive := false } else gc

/-- The GC switch after a rate update, as `pblk_rl_free_lines_inc` and
`pblk_gc_should_kick` end. -/
def gcAfterRates (gc : Gc) (ret : Nat) : Gc :=
  if ret = pblkRlMid ||| pblkRlLow then pblkGcShouldStart gc else pblkGcShouldStop gc

structure RlSys where
  rl : Rl
  gc : Gc

def pblkRlFreeLinesInc (p : RlSys) (blkInLine : Nat) : RlSys :=
  let rl := { p.rl with freeBlocks := p.rl.freeBlocks + blkInLine }
  let (rl, ret) := pblkRlUpdateRates rl rl.rbBudget
  { rl := rl, gc := gcAfterRates p.gc ret }

def pblkRlFreeLinesDec (rl : Rl) (blkInLine : Nat) : Rl :=
  { rl with freeBlocks := rl.freeBlocks - blkInLine }

def pblkGcShouldKick (p : RlSys) : RlSys :=
  let (rl, ret) := pblkRlUpdateRates p.rl p.rl.rbBudget
  { rl := rl, gc := gcAfterRates p.gc ret }

/-- `pblk_gc_sysfs_force`; `none` is `-EINVAL`. -/
def pblkGcSysfsForce (gc : Gc) (force : Int) : Option Gc :=
  if force < 0 ∨ force > 1 then none
  else some (pblkGcShouldStart { gc with gcForced := decide (force ≠ 0), gcEnabled := decide (force ≠ 0) })

/-- `pblk_rl_init` for a buffer of `budget` entries, after `pblk_lines_init`
has counted `freeBlocks`; the thresholds it first takes from `total_blocks` are
overwritten under `#if 1`. -/
def pblkRlInit (blkPerLine budget : Nat) (freeBlocks : Int) : Rl :=
  let minBlocks := blkPerLine * pblkGcRsvLine
  let high := reservedSpace
  { high := high
    highPw := wrap32 (getCountOrder high)
    rbWindowsPw := getCountOrder (budget / pblkMaxReqAddrs)
    rbBudget := budget
    rbUserMax := budget
    rbGcMax := 0
    rbState := pblkRlHigh
    rsvBlocks := minBlocks
    freeBlocks := freeBlocks }

def pblkGcInit : Gc := { gcEnabled := true, gcActive := false, gcForced := false }

inductive RlOp where
  | freeLinesInc (blkInLine : Nat)
  | freeLinesDec (blkInLine : Nat)
  | shouldKick
  | sysfsForce (force : Int)

def rlApply (p : RlSys) : RlOp → RlSys
  | .freeLinesInc blkInLine => pblkRlFreeLinesInc p blkInLine
  | .freeLinesDec blkInLine => { p with rl := pblkRlFreeLinesDec p.rl blkInLine }
  | .shouldKick => pblkGcShouldKick p
  | .sysfsForce force =>
      match pblkGcSysfsForce p.gc force with
      | some gc => { p with gc := gc }
      | none => p

/-! ## What every rate update keeps -/

/-- What `pblk_rl_init` fixes: `high` within `2 ^ high_pw`, a budget of
`2 ^ rb_windows_pw` windows within an `int`, and a shift from free blocks to
user windows that is not negative. -/
structure RlShape (rl : Rl) : Prop where
  high : rl.high ≤ 2 ^ rl.highPw
  highPw : rl.highPw < 32
  windows : 0 ≤ rl.rbWindowsPw
  shift : rl.rbWindowsPw ≤ rl.highPw
  budget : rl.rbBudget = ((pblkMaxReqAddrs * 2 ^ rl.rbWindowsPw.toNat : Nat) : Int)
  fits : rl.rbBudget < 2 ^ 31

/-- The shares of the budget: users get all of it in the HIGH state, and GC at
least one window in the LOW state. -/
structure RatesSplit (rl : Rl) : Prop where
  split : rl.rbUserMax + rl.rbGcMax = rl.rbBudget
  state : (rl.rbState = pblkRlHigh ∧ rl.rbUserMax = rl.rbBudget) ∨
    (rl.rbState = pblkRlLow ∧ (pblkMaxReqAddrs : Int) ≤ rl.rbGcMax)

variable {rl : Rl}

theorem RlShape.congr {rl' : Rl} (shape : RlShape rl) (high : rl'.high = rl.high) (highPw : rl'.highPw = rl.highPw)
    (windows : rl'.rbWindowsPw = rl.rbWindowsPw) (budget : rl'.rbBudget = rl.rbBudget) : RlShape rl' := by
  obtain ⟨fitsHigh, small, nonneg, shift, size, fits⟩ := shape
  constructor <;> simp only [high, highPw, windows, budget] <;> assumption

theorem RlShape.shift_eq (shape : RlShape rl) :
    toInt32 (wrap32 ((rl.highPw : Int) - rl.rbWindowsPw)) = ((rl.highPw - rl.rbWindowsPw.toNat : Nat) : Int) := by
  have nonneg : 0 ≤ (rl.highPw : Int) - rl.rbWindowsPw := by
    have := shape.shift
    omega
  have small := shape.highPw
  have windows := shape.windows
  rw [wrap32_of_lt nonneg (by omega), toInt32_of_lt (by omega)]
  omega

theorem RlShape.userWindows_lt (shape : RlShape rl) {fb : Nat} (below : fb < rl.high) :
    fb / 2 ^ (rl.highPw - rl.rbWindowsPw.toNat) < 2 ^ rl.rbWindowsPw.toNat := by
  have windows : rl.rbWindowsPw.toNat ≤ rl.highPw := by
    have := shape.shift
    omega
  -- `high ≤ 2 ^ high_pw = 2 ^ w * 2 ^ (high_pw - w)`
  rw [Nat.div_lt_iff_lt_mul (Nat.two_pow_pos _), ← Nat.pow_add, Nat.add_sub_cancel' windows]
  exact Nat.lt_of_lt_of_le below shape.high

theorem RlShape.userWindows_eq (shape : RlShape rl) {fb : Nat} (below : fb < rl.high) :
    toInt32 (wrap32 (shr64 fb (toInt32 (wrap32 ((rl.highPw : Int) - rl.rbWindowsPw))))) =
      ((fb / 2 ^ (rl.highPw - rl.rbWindowsPw.toNat) : Nat) : Int) := by
  have fewer := shape.userWindows_lt below
  have small : 2 ^ rl.rbWindowsPw.toNat < 2 ^ 31 := by
    have budget := shape.budget
    have fits := shape.fits
    simp only [pblkMaxReqAddrs] at budget
    omega
  rw [shape.shift_eq, shr64_of_lt (by omega) (by have := shape.highPw; omega), Int.toNat_natCast,
    wrap32_natCast (by omega), toInt32_of_lt (by omega)]

theorem updateRates_snd (max : Int) : (pblkRlUpdateRates rl max).2 = (pblkRlUpdateRates rl max).1.rbState := by
  simp only [pblkRlUpdateRates]
  split <;> rfl

/-- What one rate update sets, in each of its three regimes. -/
theorem RlShape.updateRates_eq (shape : RlShape rl) :
    (pblkRlUpdateRates rl rl.rbBudget).1 =
      if rl.high ≤ pblkRlNrFreeBlks rl then { rl with rbUserMax := rl.rbBudget, rbGcMax := 0, rbState := pblkRlHigh }
      else if pblkRlNrFreeBlks rl ≤ wrap64 rl.rsvBlocks then
        { rl with rbUserMax := 0, rbGcMax := rl.rbBudget, rbState := pblkRlLow }
      else
        let q : Int := (pblkRlNrFreeBlks rl / 2 ^ (rl.highPw - rl.rbWindowsPw.toNat) : Nat)
        { rl with
          rbUserMax := q * 2 ^ pblkMaxReqAddrsPw
          rbGcMax := rl.rbBudget - q * 2 ^ pblkMaxReqAddrsPw
          rbState := pblkRlLow } := by
  simp only [pblkRlUpdateRates]
  by_cases enough : rl.high ≤ pblkRlNrFreeBlks rl
  · rw [if_pos enough, if_pos enough]
  · rw [if_neg enough, if_neg enough, shape.userWindows_eq (Nat.lt_of_not_le enough)]
    by_cases reserve : pblkRlNrFreeBlks rl ≤ wrap64 rl.rsvBlocks
    · rw [if_pos reserve, if_pos reserve]
    · rw [if_neg reserve, if_neg reserve]

@[simp] theorem updateRates_budget (max : Int) : (pblkRlUpdateRates rl max).1.rbBudget = rl.rbBudget := by
  simp only [pblkRlUpdateRates]
  split
  · rfl
  · split <;> rfl

theorem RlShape.updateRates (shape : RlShape rl) (max : Int) : RlShape (pblkRlUpdateRates rl max).1 := by
  simp only [pblkRlUpdateRates]
  split
  · exact shape.congr rfl rfl rfl rfl
  · split <;> exact shape.congr rfl rfl rfl rfl

theorem RlShape.updateRates_split (shape : RlShape rl) : RatesSplit (pblkRlUpdateRates rl rl.rbBudget).1 := by
  have budget := shape.budget
  simp only [pblkMaxReqAddrs] at budget
  rw [shape.updateRates_eq]
  split
  · exact ⟨by simp, .inl ⟨rfl, rfl⟩⟩
  · split
    · -- at the GC reserve users get nothing and GC the whole budget
      refine ⟨by simp, .inr ⟨rfl, ?_⟩⟩
      have := Nat.one_le_two_pow (n := rl.rbWindowsPw.toNat)
      simp only [pblkMaxReqAddrs]
      omega
    · -- users get fewer windows than the budget holds
      next enough _ =>
      have fewer := shape.userWindows_lt (Nat.lt_of_not_le enough)
      refine ⟨by simp, .inr ⟨rfl, ?_⟩⟩
      simp only [pblkMaxReqAddrs, pblkMaxReqAddrsPw]
      omega

theorem RlShape.userMax_le_budget (shape : RlShape rl) : (pblkRlUpdateRates rl rl.rbBudget).1.rbUserMax ≤ rl.rbBudget := by
  have rates := shape.updateRates_split
  have split := rates.split
  rw [updateRates_budget] at split
  rcases rates.state with ⟨-, full⟩ | ⟨-, window⟩
  · rw [full, updateRates_budget]
  · omega

/-- `pblk_rl_init` on a buffer of `2 ^ k` entries, `16 ≤ 2 ^ k ≤ 512`: with
`high_pw = 5`, the shift to user windows is not negative. -/
theorem rlInit_shape {k : Nat} (four : 4 ≤ k) (nine : k ≤ 9) (blkPerLine : Nat) (freeBlocks : Int) :
    RlShape (pblkRlInit blkPerLine (2 ^ k) freeBlocks) := by
  have windows : 2 ^ k / pblkMaxReqAddrs = 2 ^ (k - 4) := Nat.pow_div four (by decide)
  have highPw : wrap32 (getCountOrder reservedSpace) = 5 := by decide
  have budget : 2 ^ k = pblkMaxReqAddrs * 2 ^ (k - 4) := by
    rw [show pblkMaxReqAddrs = 2 ^ 4 from rfl, ← Nat.pow_add, Nat.add_sub_cancel' four]
  have fits : 2 ^ k < 2 ^ 31 := Nat.pow_lt_pow_right (by decide) (by omega)
  refine ⟨show reservedSpace ≤ 2 ^ wrap32 (getCountOrder reservedSpace) by decide,
    show wrap32 (getCountOrder reservedSpace) < 32 by decide, ?_, ?_, ?_, ?_⟩
  · simp [pblkRlInit, windows, getCountOrder_two_pow]
  · simp only [pblkRlInit, windows, getCountOrder_two_pow, highPw]
    omega
  · simp only [pblkRlInit, windows, getCountOrder_two_pow, Int.toNat_natCast]
    exact_mod_cast budget
  · simp only [pblkRlInit]
    exact_mod_cast fits

/-- More free blocks never give users a smaller share of the buffer. -/
theorem update_rates_user_max_mono (shape : RlShape rl) {fb fb' : Nat} (le : fb ≤ fb') (fits : fb' < 2 ^ 64) :
    (pblkRlUpdateRates { rl with freeBlocks := fb } rl.rbBudget).1.rbUserMax ≤
      (pblkRlUpdateRates { rl with freeBlocks := fb' } rl.rbBudget).1.rbUserMax := by
  have shape1 : RlShape { rl with freeBlocks := fb } := shape.congr rfl rfl rfl rfl
  have shape2 : RlShape { rl with freeBlocks := fb' } := shape.congr rfl rfl rfl rfl
  have read1 : pblkRlNrFreeBlks { rl with freeBlocks := fb } = fb := wrap64_natCast (by omega)
  have read2 : pblkRlNrFreeBlks { rl with freeBlocks := fb' } = fb' := wrap64_natCast fits
  by_cases full : rl.high ≤ fb'
  · -- users already get the whole budget
    have most := shape1.userMax_le_budget
    rw [shape2.updateRates_eq]
    simp only [read2, if_pos full]
    exact most
  · have below : fb < rl.high := by omega
    rw [shape1.updateRates_eq, shape2.updateRates_eq]
    simp only [read1, read2, if_neg full, if_neg (Nat.not_le.mpr below)]
    by_cases reserve' : fb' ≤ wrap64 rl.rsvBlocks
    · rw [if_pos (Nat.le_trans le reserve'), if_pos reserve']
    · rw [if_neg reserve']
      -- the windows grow with the free blocks
      have more : fb / 2 ^ (rl.highPw - rl.rbWindowsPw.toNat) ≤ fb' / 2 ^ (rl.highPw - rl.rbWindowsPw.toNat) :=
        Nat.div_le_div_right le
      generalize fb / 2 ^ (rl.highPw - rl.rbWindowsPw.toNat) = q at more ⊢
      generalize fb' / 2 ^ (rl.highPw - rl.rbWindowsPw.toNat) = q' at more ⊢
      split
      · simp only [pblkMaxReqAddrsPw]
        omega
      · simp only [pblkMaxReqAddrsPw]
        omega

theorem update_rates_user_max_mono_rwb :
    RlShape (pblkRlInit 8 (2 ^ 5) 0) ∧ 3 ≤ 19 ∧ 19 < 2 ^ 64 ∧
      (pblkRlUpdateRates { pblkRlInit 8 (2 ^ 5) 0 with freeBlocks := (3 : Nat) } (2 ^ 5 : Nat)).1.rbUserMax ≤
        (pblkRlUpdateRates { pblkRlInit 8 (2 ^ 5) 0 with freeBlocks := (19 : Nat) } (2 ^ 5 : Nat)).1.rbUserMax :=
  have shape := rlInit_shape (by decide) (by decide) 8 0
  ⟨shape, by decide, by decide, update_rates_user_max_mono shape (by decide) (by decide)⟩

/-! ## The GC switch -/

theorem gcAfterRates_high (gc : Gc) : gcAfterRates gc pblkRlHigh = pblkGcShouldStop gc := if_neg (by decide)

theorem shouldStart_flags (gc : Gc) :
    (pblkGcShouldStart gc).gcForced = gc.gcForced ∧ (pblkGcShouldStart gc).gcEnabled = gc.gcEnabled := by
  unfold pblkGcShouldStart
  split <;> exact ⟨rfl, rfl⟩

theorem shouldStop_forced {gc : Gc} (active : (pblkGcShouldStop gc).gcActive = true) :
    (pblkGcShouldStop gc).gcForced = true := by
  unfold pblkGcShouldStop at active ⊢
  by_cases stop : (gc.gcActive && !gc.gcForced) = true
  · rw [if_pos stop] at active
    cases active
  · rw [if_neg stop] at active ⊢
    simp only [Bool.and_eq_true, Bool.not_eq_true', not_and, Bool.not_eq_false] at stop
    exact stop active

/-! ## Runs of the limiter -/

/-- The limiter keeps its shape and its split, and GC that is enabled and not
forced runs only in the LOW state. -/
structure RlInv (p : RlSys) : Prop where
  shape : RlShape p.rl
  rates : RatesSplit p.rl
  gc : p.gc.gcActive = true → p.rl.rbState = pblkRlLow ∨ p.gc.gcForced = true ∨ p.gc.gcEnabled = false

theorem RlShape.afterRates (shape : RlShape rl) (gc : Gc) :
    RlInv { rl := (pblkRlUpdateRates rl rl.rbBudget).1, gc := gcAfterRates gc (pblkRlUpdateRates rl rl.rbBudget).2 } := by
  have rates := shape.updateRates_split
  refine ⟨shape.updateRates _, rates, ?_⟩
  rw [updateRates_snd]
  rcases rates.state with ⟨high, -⟩ | ⟨low, -⟩
  · rw [high, gcAfterRates_high]
    exact fun active => .inr (.inl (shouldStop_forced active))
  · exact fun _ => .inl low

theorem rlApply_inv {p : RlSys} (inv : RlInv p) (op : RlOp) : RlInv (rlApply p op) := by
  cases op with
  | freeLinesInc blkInLine =>
    have shape : RlShape { p.rl with freeBlocks := p.rl.freeBlocks + blkInLine } := inv.shape.congr rfl rfl rfl rfl
    exact shape.afterRates p.gc
  | freeLinesDec blkInLine =>
    -- the count drops, and the rates stay as they were
    exact ⟨inv.shape.congr rfl rfl rfl rfl, ⟨inv.rates.split, inv.rates.state⟩, inv.gc⟩
  | shouldKick => exact inv.shape.afterRates p.gc
  | sysfsForce force =>
    simp only [rlApply]
    cases forced : pblkGcSysfsForce p.gc force with
    | none => exact inv
    | some gc =>
      -- the switch is forced exactly when it is enabled
      simp only [pblkGcSysfsForce] at forced
      split at forced
      · cases forced
      · cases forced
        refine ⟨inv.shape, inv.rates, fun _ => ?_⟩
        obtain ⟨same, same'⟩ := shouldStart_flags { p.gc with gcForced := decide (force ≠ 0), gcEnabled := decide (force ≠ 0) }
        simp only [same, same']
        by_cases zero : force = 0 <;> simp [zero]

theorem rlInit_inv {k : Nat} (four : 4 ≤ k) (nine : k ≤ 9) (blkPerLine : Nat) (freeBlocks : Int) :
    RlInv { rl := pblkRlInit blkPerLine (2 ^ k) freeBlocks, gc := pblkGcInit } :=
  ⟨rlInit_shape four nine blkPerLine freeBlocks, ⟨by simp [pblkRlInit], .inl ⟨rfl, rfl⟩⟩, fun active => nomatch active⟩

/-- From `pblk_rl_init` on a buffer of `2 ^ k` entries, `16 ≤ 2 ^ k ≤ 512`, and
over any run of freed lines, taken lines, GC kicks and sysfs writes, the user
and GC shares add up to the budget; users get the whole budget in the HIGH
state, and in the LOW state GC keeps at least one window of
`PBLK_MAX_REQ_ADDRS` entries; and GC that is enabled and not forced runs only
in the LOW state. -/
theorem rl_run_keeps_gc_window {k : Nat} (four : 4 ≤ k) (nine : k ≤ 9) (blkPerLine : Nat) (freeBlocks : Int)
    (ops : List RlOp) :
    let p := ops.foldl rlApply { rl := pblkRlInit blkPerLine (2 ^ k) freeBlocks, gc := pblkGcInit }
    p.rl.rbUserMax + p.rl.rbGcMax = p.rl.rbBudget ∧
      (p.rl.rbState = pblkRlHigh ∧ p.rl.rbUserMax = p.rl.rbBudget ∨
        p.rl.rbState = pblkRlLow ∧ (pblkMaxReqAddrs : Int) ≤ p.rl.rbGcMax) ∧
      (p.gc.gcActive = true → p.rl.rbState = pblkRlLow ∨ p.gc.gcForced = true ∨ p.gc.gcEnabled = false) := by
  intro p
  have inv : RlInv p := foldl_invariant RlInv (fun p op inv => rlApply_inv inv op) ops _
    (rlInit_inv four nine blkPerLine freeBlocks)
  exact ⟨inv.rates.split, inv.rates.state, inv.gc⟩

/-- The shipped buffer of `RWB_BUFFER = 32` entries, lines of 8 blocks and 30
free: lines are taken below `high`, the rates kicked, a line freed and GC
forced. -/
theorem rl_run_keeps_gc_window_rwb :
    4 ≤ 5 ∧ 5 ≤ 9 ∧
      let p := [.freeLinesDec 8, .freeLinesDec 8, .shouldKick, .freeLinesInc 8, .sysfsForce 1].foldl rlApply
        { rl := pblkRlInit 8 (2 ^ 5) 30, gc := pblkGcInit }
      p.rl.rbUserMax + p.rl.rbGcMax = p.rl.rbBudget ∧
        (p.rl.rbState = pblkRlHigh ∧ p.rl.rbUserMax = p.rl.rbBudget ∨
          p.rl.rbState = pblkRlLow ∧ (pblkMaxReqAddrs : Int) ≤ p.rl.rbGcMax) ∧
        (p.gc.gcActive = true → p.rl.rbState = pblkRlLow ∨ p.gc.gcForced = true ∨ p.gc.gcEnabled = false) :=
  ⟨by decide, by decide, rl_run_keeps_gc_window (by decide) (by decide) 8 30 _⟩

end MStream.RateLimit
