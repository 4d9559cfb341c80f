import Mathlib

/-!
Loops run on fuel. A loop body looks at its state and either leaves the loop
with a result or goes round again from a new state; `loopFuel` runs it for at
most `fuel` passes and answers `none` when the fuel runs out before the loop
leaves. Three rules reason about such a loop without unfolding it:

* an invariant every pass keeps holds of the state the loop leaves from, so
  whatever the exits promise holds of the result (`loopFuel_inv`);
* a measure every pass lowers bounds the passes, so fuel beyond the measure
  finishes the loop (`loopFuel_completes`);
* a set of states the body never leaves from, closed under its passes, is a
  loop that no fuel finishes (`loopFuel_diverges`).
-/

namespace MStream.Fuel

variable {σ β : Type}

/-- At most `fuel` passes of `body`: `.inl b` leaves the loop with `b`, `.inr s`
goes round again from `s`. -/
def loopFuel (body : σ → β ⊕ σ) : Nat → σ → Option β
  | 0, _ => none
  | fuel + 1, s =>
    match body s with
    | .inl b => some b
    | .inr s' => loopFuel body fuel s'

variable {body : σ → β ⊕ σ}

@[simp] theorem loopFuel_zero (s : σ) : loopFuel body 0 s = none := rfl

theorem loopFuel_exit {s : σ} {b : β} (exits : body s = .inl b) (fuel : Nat) :
    loopFuel body (fuel + 1) s = some b := by
  simp [loopFuel, exits]

theorem loopFuel_again {s s' : σ} (again : body s = .inr s') (fuel : Nat) :
    loopFuel body (fuel + 1) s = loopFuel body fuel s' := by
  simp [loopFuel, again]

/-- The loop rule: when every pass from a state satisfying `inv` either leaves
with a result satisfying `post` or goes on to a state satisfying `inv`, every
result the loop returns satisfies `post`. -/
theorem loopFuel_inv (inv : σ → Prop) (post : β → Prop)
    (exits : ∀ s b, inv s → body s = .inl b → post b)
    (keeps : ∀ s s', inv s → body s = .inr s' → inv s') :
    ∀ (fuel : Nat) (s : σ) (b : β), inv s → loopFuel body fuel s = some b → post b := by
  intro fuel
  induction fuel with
  | zero => intro s b _ ran; simp at ran
  | succ fuel ih =>
    intro s b holds ran
    cases pass : body s with
    | inl b' =>
      rw [loopFuel_exit pass] at ran
      exact Option.some.inj ran ▸ exits s b' holds pass
    | inr s' =>
      rw [loopFuel_again pass] at ran
      exact ih s' b (keeps s s' holds pass) ran

/-- Termination by a measure: when every pass that goes on lowers `measure`,
more fuel than the measure of the start finishes the loop. -/
theorem loopFuel_completes (measure : σ → Nat)
    (lowers : ∀ s s', body s = .inr s' → measure s' < measure s) :
    ∀ (fuel : Nat) (s : σ), measure s < fuel → (loopFuel body fuel s).isSome := by
  intro fuel
  induction fuel with
  | zero => intro s below; omega
  | succ fuel ih =>
    intro s below
    cases pass : body s with
    | inl b => simp [loopFuel_exit pass]
    | inr s' =>
      rw [loopFuel_again pass]
      have lower := lowers s s' pass
      exact ih s' (by omega)

/-- Divergence: from a state of a set the body only ever goes on from, and
always to a state of the set again, the loop runs out of every fuel. -/
theorem loopFuel_diverges (stuck : σ → Prop)
    (keeps : ∀ s, stuck s → ∃ s', body s = .inr s' ∧ stuck s') :
    ∀ (fuel : Nat) (s : σ), stuck s → loopFuel body fuel s = none := by
  intro fuel
  induction fuel with
  | zero => intro s _; rfl
  | succ fuel ih =>
    intro s holds
    obtain ⟨s', pass, holds'⟩ := keeps s holds
    rw [loopFuel_again pass]
    exact ih s' holds'

end MStream.Fuel
