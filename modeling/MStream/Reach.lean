import Mathlib

/-!
Transition systems given by an initial predicate and a labelled step relation.
`Reachable` is the set of states some finite sequence of steps leads to from an
initial state; `Run` is one such sequence, with its labels. An invariant is
proved once by induction over `Reachable` (`Reachable.invariant`); a concrete
run that ends in a bad state refutes any invariant that excludes it
(`Run.reachable`).
-/

namespace MStream.Reach

variable {σ α : Type}

inductive Reachable (init : σ → Prop) (step : σ → α → σ → Prop) : σ → Prop
  | init {s : σ} : init s → Reachable init step s
  | step {s s' : σ} {a : α} : Reachable init step s → step s a s' → Reachable init step s'

inductive Run (step : σ → α → σ → Prop) : σ → List α → σ → Prop
  | nil (s : σ) : Run step s [] s
  | cons {s s' s'' : σ} {a : α} {rest : List α} :
      step s a s' → Run step s' rest s'' → Run step s (a :: rest) s''

variable {init : σ → Prop} {step : σ → α → σ → Prop}

/-- The induction rule for safety: a predicate that holds initially and that
every step preserves holds in every reachable state. -/
theorem Reachable.invariant (inv : σ → Prop) (initial : ∀ s, init s → inv s)
    (preserved : ∀ s a s', inv s → step s a s' → inv s') {s : σ}
    (reachable : Reachable init step s) : inv s := by
  induction reachable with
  | init start => exact initial _ start
  | step _ moved ih => exact preserved _ _ _ ih moved

theorem Run.reachable {s s' : σ} {actions : List α} (run : Run step s actions s')
    (start : Reachable init step s) : Reachable init step s' := by
  induction run with
  | nil => exact start
  | cons moved _ ih => exact ih (Reachable.step start moved)

/-- A state that breaks a property, reached by a run from an initial state,
shows that the property is not an invariant. -/
theorem not_invariant_of_run (inv : σ → Prop) {s s' : σ} {actions : List α}
    (start : init s) (run : Run step s actions s') (broken : ¬ inv s') :
    ¬ ∀ t, Reachable init step t → inv t :=
  fun holds => broken (holds s' (run.reachable (Reachable.init start)))

/-! ## Simulation of a total abstract step

A fallible step function simulates a total abstract one when, from related
states, every action the abstract state allows succeeds and leads to related
states again. Then a whole run of allowed actions succeeds, and its end is
related to the abstract fold (`simulates_run`). -/

section Simulation

variable {τ ε : Type}

/-- Whether each action of a run is allowed in the abstract state it meets. -/
def admits (ok : τ → α → Bool) (spec : τ → α → τ) : τ → List α → Bool
  | _, [] => true
  | t, a :: rest => ok t a && admits ok spec (spec t a) rest

@[simp] theorem admits_nil (ok : τ → α → Bool) (spec : τ → α → τ) (t : τ) : admits ok spec t [] = true := rfl

@[simp] theorem admits_cons (ok : τ → α → Bool) (spec : τ → α → τ) (t : τ) (a : α) (rest : List α) :
    admits ok spec t (a :: rest) = (ok t a && admits ok spec (spec t a) rest) := rfl

theorem simulates_run (step : σ → α → Except ε σ) (spec : τ → α → τ) (ok : τ → α → Bool)
    (R : σ → τ → Prop) (sim : ∀ s t a, R s t → ok t a = true → ∃ s', step s a = .ok s' ∧ R s' (spec t a)) :
    ∀ (actions : List α) (s : σ) (t : τ), R s t → admits ok spec t actions = true →
      ∃ s', actions.foldlM step s = .ok s' ∧ R s' (actions.foldl spec t) := by
  intro actions
  induction actions with
  | nil => exact fun s t related _ => ⟨s, rfl, related⟩
  | cons a rest ih =>
    intro s t related allowed
    rw [admits_cons, Bool.and_eq_true] at allowed
    obtain ⟨s', stepped, related'⟩ := sim s t a related allowed.1
    obtain ⟨s'', ran, final⟩ := ih s' (spec t a) related' allowed.2
    refine ⟨s'', ?_, final⟩
    rw [List.foldlM_cons, stepped]
    exact ran

theorem admits_append (ok : τ → α → Bool) (spec : τ → α → τ) (t : τ) (xs ys : List α) :
    admits ok spec t (xs ++ ys) = (admits ok spec t xs && admits ok spec (xs.foldl spec t) ys) := by
  induction xs generalizing t with
  | nil => simp
  | cons a rest ih => simp [ih, Bool.and_assoc]

/-- The induction rule for a total step: what every step keeps holds after a run. -/
theorem foldl_invariant {f : σ → α → σ} (inv : σ → Prop) (step : ∀ s a, inv s → inv (f s a)) :
    ∀ (actions : List α) (s : σ), inv s → inv (actions.foldl f s) := by
  intro actions
  induction actions with
  | nil => exact fun _ holds => holds
  | cons a rest ih => exact fun s holds => ih (f s a) (step s a holds)

/-- The same rule for a run of allowed actions: only the steps the state allows
need to keep the invariant. -/
theorem foldl_invariant_of_admits {ok : τ → α → Bool} {spec : τ → α → τ} (inv : τ → Prop)
    (step : ∀ t a, inv t → ok t a = true → inv (spec t a)) :
    ∀ (actions : List α) (t : τ), inv t → admits ok spec t actions = true → inv (actions.foldl spec t) := by
  intro actions
  induction actions with
  | nil => exact fun _ holds _ => holds
  | cons a rest ih =>
    intro t holds allowed
    rw [admits_cons, Bool.and_eq_true] at allowed
    exact ih (spec t a) (step t a holds allowed.1) allowed.2

end Simulation

end MStream.Reach
