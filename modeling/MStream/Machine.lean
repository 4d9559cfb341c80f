import Mathlib

/-!
What a C function of kernel code can do besides returning: stop at a
`BUG_ON`, or touch memory it does not own (a freed or never-stored pointer,
an object of the wrong kind). Such a function is modelled in `Except Fault`,
and its callers are peeled apart with `bind_eq_ok`.

Unsigned arithmetic is kept in `Nat` with the wrap made explicit: `wrap32 x`
is the value an `unsigned int` receives from the mathematical result `x`,
`wrap64 x` the value an `unsigned long long` receives, and `toInt32` reads an
`unsigned int` value as an `int`.
-/

namespace MStream.Machine

inductive Fault where
  /-- a `BUG_ON` fired -/
  | bug
  /-- memory that is freed, never allocated, or not of the kind read -/
  | wild
  deriving DecidableEq, Repr

variable {ε α β : Type}

theorem bind_eq_ok {x : Except ε α} {f : α → Except ε β} {b : β} :
    x >>= f = .ok b ↔ ∃ a, x = .ok a ∧ f a = .ok b := by
  cases x with
  | error e => simp [bind, Except.bind]
  | ok a => simp [bind, Except.bind]

@[simp] theorem ok_bind {a : α} {f : α → Except ε β} :
    (Except.ok a : Except ε α) >>= f = f a := rfl

@[simp] theorem error_bind {e : ε} {f : α → Except ε β} :
    (Except.error e : Except ε α) >>= f = .error e := rfl

@[simp] theorem throw_eq_error {e : ε} : (throw e : Except ε α) = .error e := rfl

@[simp] theorem pure_eq_ok {a b : α} : (pure a : Except ε α) = .ok b ↔ a = b := by
  simp [pure, Except.pure]

theorem eq_ok_of_toBool {x : Except ε α} (d : α) (ran : x.toBool = true) : x = .ok (x.toOption.getD d) := by
  cases x <;> simp_all [Except.toBool, Except.toOption]

theorem eq_ok_pair_of_toBool {x : Except ε (α × β)} (d : α × β) {a : α} (ran : x.toBool = true)
    (first : (x.toOption.getD d).1 = a) : x = .ok (a, (x.toOption.getD d).2) := by
  cases x with
  | error e => simp [Except.toBool] at ran
  | ok v =>
    subst first
    rfl

/-! ### Loops over `0, …, m - 1`

A C `for (j = 0; j < m; j++)` loop whose body can fail is a `foldlM` over
`List.range m`; its invariant is indexed by the iterations done. -/

section Loop

variable {f : α → Nat → Except ε α} {inv : Nat → α → Prop}

theorem foldlM_range_succ (m : Nat) (a : α) :
    (List.range (m + 1)).foldlM f a = (List.range m).foldlM f a >>= fun s => f s m := by
  simp [List.range_succ, List.foldlM_append]

theorem foldlM_range_ok {m : Nat} {a : α} (start : inv 0 a)
    (step : ∀ j < m, ∀ s, inv j s → ∃ s', f s j = .ok s' ∧ inv (j + 1) s') :
    ∃ s, (List.range m).foldlM f a = .ok s ∧ inv m s := by
  induction m with
  | zero => exact ⟨a, rfl, start⟩
  | succ m ih =>
    obtain ⟨s, run, hs⟩ := ih fun j hj => step j (by omega)
    obtain ⟨s', next, hs'⟩ := step m (by omega) s hs
    exact ⟨s', by rw [foldlM_range_succ, run, ok_bind, next], hs'⟩

theorem foldlM_range_inv {m : Nat} {a b : α} (start : inv 0 a)
    (step : ∀ j < m, ∀ s s', inv j s → f s j = .ok s' → inv (j + 1) s')
    (run : (List.range m).foldlM f a = .ok b) : inv m b := by
  induction m generalizing b with
  | zero =>
    have same : a = b := by simpa using run
    exact same ▸ start
  | succ m ih =>
    rw [foldlM_range_succ, bind_eq_ok] at run
    obtain ⟨s, first, last⟩ := run
    exact step m (by omega) s b (ih (fun j hj => step j (by omega)) first) last

theorem foldl_range_succ {g : α → Nat → α} (m : Nat) (a : α) :
    (List.range (m + 1)).foldl g a = g ((List.range m).foldl g a) m := by
  simp [List.range_succ, List.foldl_append]

theorem foldl_range_inv {g : α → Nat → α} {m : Nat} {a : α} (start : inv 0 a)
    (step : ∀ j < m, ∀ s, inv j s → inv (j + 1) (g s j)) : inv m ((List.range m).foldl g a) := by
  induction m with
  | zero => exact start
  | succ m ih =>
    rw [foldl_range_succ]
    exact step m (by omega) _ (ih fun j hj => step j (by omega))

/-- A loop whose state carries more than another's, and whose every step does to
the shared part what the other's does, ends with the other's state in that part. -/
theorem foldl_fst {σ γ : Type} {f : α → γ → α} {g : α × σ → γ → α × σ} (step : ∀ p x, (g p x).1 = f p.1 x) :
    ∀ (l : List γ) (p : α × σ), (l.foldl g p).1 = l.foldl f p.1 := by
  intro l
  induction l with
  | nil => intro p; rfl
  | cons x rest ih =>
    intro p
    rw [List.foldl_cons, List.foldl_cons, ih, step]

/-- A loop over a list whose every step relates its state to the next, by a
reflexive and transitive relation, relates its start to its end. -/
theorem foldl_rel {γ : Type} {f : α → γ → α} (r : α → α → Prop) (refl : ∀ a, r a a)
    (trans : ∀ {a b c}, r a b → r b c → r a c) (step : ∀ a x, r a (f a x)) :
    ∀ (l : List γ) (a : α), r a (l.foldl f a) := by
  intro l
  induction l with
  | nil => exact refl
  | cons x rest ih =>
    intro a
    exact trans (step a x) (ih (f a x))

/-- The form of `foldl_rel` for a loop that can fail. -/
theorem foldlM_rel {g : α → β → Except ε α} {r : α → α → Prop} (refl : ∀ a, r a a)
    (trans : ∀ {a b c}, r a b → r b c → r a c) (step : ∀ a x b, g a x = .ok b → r a b) :
    ∀ (l : List β) (a b : α), l.foldlM g a = .ok b → r a b := by
  intro l
  induction l with
  | nil =>
    intro a b run
    cases pure_eq_ok.mp run
    exact refl a
  | cons x rest ih =>
    intro a b run
    rw [List.foldlM_cons, bind_eq_ok] at run
    obtain ⟨mid, first, later⟩ := run
    exact trans (step a x mid first) (ih mid b later)

end Loop

def wrap32 (x : Int) : Nat := (x % 2 ^ 32).toNat

def wrap64 (x : Int) : Nat := (x % 2 ^ 64).toNat

theorem wrap32_of_lt {x : Int} (nonneg : 0 ≤ x) (lt : x < 2 ^ 32) : wrap32 x = x.toNat := by
  rw [wrap32, Int.emod_eq_of_lt nonneg lt]

theorem wrap32_natCast {n : Nat} (lt : n < 2 ^ 32) : wrap32 n = n := by
  rw [wrap32_of_lt (Int.natCast_nonneg n) (by exact_mod_cast lt), Int.toNat_natCast]

/-- An `unsigned int` that gains `n` and loses them again is back where it was. -/
theorem wrap32_add_sub {a n : Nat} (fits : a < 2 ^ 32) : wrap32 ((wrap32 (a + n : Nat) : Int) - n) = a := by
  unfold wrap32
  omega

theorem wrap64_natCast {n : Nat} (lt : n < 2 ^ 64) : wrap64 n = n := by
  rw [wrap64, Int.emod_eq_of_lt (Int.natCast_nonneg n) (by exact_mod_cast lt), Int.toNat_natCast]

theorem wrap64_le (x : Nat) : wrap64 x ≤ x := by
  unfold wrap64
  omega

def toInt32 (x : Nat) : Int := if x < 2 ^ 31 then x else x - 2 ^ 32

/-- A right shift of a 64-bit value as x86-64's shr computes it: the count is
taken mod 64, where C leaves a negative count or one of 64 and more undefined. -/
def shr64 (x : Nat) (count : Int) : Nat := x >>> (count % 64).toNat

theorem shr64_of_lt {x : Nat} {count : Int} (nonneg : 0 ≤ count) (lt : count < 64) :
    shr64 x count = x / 2 ^ count.toNat := by
  rw [shr64, Int.emod_eq_of_lt nonneg lt, Nat.shiftRight_eq_div_pow]

theorem toInt32_of_lt {x : Nat} (lt : x < 2 ^ 31) : toInt32 x = x := if_pos lt

end MStream.Machine
