import Mathlib.Tactic.Common

/-!
# Loops

A `while` loop whose condition may hold forever. `whileLoop` runs it for a number of turns at most,
and has no result when the condition still holds then. `whileLoop_of_invariant` is the rule for a
loop that ends: what every turn keeps holds behind the loop, with the condition false, whenever the
number of turns reaches the variant.
-/

set_option autoImplicit false
set_option relaxedAutoImplicit false

namespace Disguise.Process

variable {σ : Type}

/-- The state in which a loop ends, if it ends after at most a number of turns. -/
def whileLoop (condition : σ → Prop) [DecidablePred condition] (turn : σ → σ) :
    ℕ → σ → Option σ
  | 0, state => if condition state then none else some state
  | fuel + 1, state =>
    if condition state then whileLoop condition turn fuel (turn state) else some state

section Invariants

variable {condition : σ → Prop} [DecidablePred condition] {turn : σ → σ}

/-- A loop whose condition does not hold makes no turn. -/
theorem whileLoop_of_not (fuel : ℕ) {state : σ} (hcondition : ¬ condition state) :
    whileLoop condition turn fuel state = some state := by
  cases fuel with
  | zero => exact if_neg hcondition
  | succ fuel => exact if_neg hcondition

/-- A loop that keeps an invariant and makes its variant smaller ends, with the invariant kept.

Assumes: the number of turns is not less than the variant. -/
theorem whileLoop_of_invariant {invariant : σ → Prop} (variant : σ → ℕ)
    (hturn : ∀ state, invariant state → condition state →
      invariant (turn state) ∧ variant (turn state) < variant state)
    {fuel : ℕ} {state : σ} (hinvariant : invariant state) (hfuel : variant state ≤ fuel) :
    ∃ last, whileLoop condition turn fuel state = some last ∧ invariant last ∧
      ¬ condition last := by
  induction fuel generalizing state with
  | zero =>
    have hend : ¬ condition state := by
      intro hcondition
      have hless := (hturn state hinvariant hcondition).2
      omega
    exact ⟨state, whileLoop_of_not 0 hend, hinvariant, hend⟩
  | succ fuel ih =>
    by_cases hcondition : condition state
    · obtain ⟨hkept, hless⟩ := hturn state hinvariant hcondition
      rw [whileLoop, if_pos hcondition]
      exact ih hkept (by omega)
    · exact ⟨state, whileLoop_of_not (fuel + 1) hcondition, hinvariant, hcondition⟩

end Invariants

end Disguise.Process
