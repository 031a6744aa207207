import Mathlib.Data.List.Basic
import Mathlib.Logic.Relation

/-!
# Runs with a history

A system whose steps are accompanied by events. A run has a history, the events of its steps in
their order, and a property of histories and states that every step keeps holds after every run
(`Recorded.invariant`). Whether a state can be reached does not depend on the events
(`reaches_iff_recorded`).
-/

set_option autoImplicit false
set_option relaxedAutoImplicit false

namespace Disguise.Process

open Relation

variable {State Event : Type}

/-- A run from a state, with the events of its steps. -/
inductive Recorded (step : State → List Event → State → Prop) (first : State) :
    List Event → State → Prop where
  | start : Recorded step first [] first
  | step {history events : List Event} {before after : State}
      (hrun : Recorded step first history before) (hstep : step before events after) :
      Recorded step first (history ++ events) after

variable {step : State → List Event → State → Prop} {first : State}

/-- What holds at the start and is kept by every step holds after every run. -/
theorem Recorded.invariant {holds : List Event → State → Prop} (hstart : holds [] first)
    (hkept : ∀ history events before after, holds history before → step before events after →
      holds (history ++ events) after)
    {history : List Event} {state : State} (hrun : Recorded step first history state) :
    holds history state := by
  induction hrun with
  | start => exact hstart
  | step _ hstep ih => exact hkept _ _ _ _ ih hstep

/-- Steps with fewer conditions have more runs. -/
theorem Recorded.mono {other : State → List Event → State → Prop}
    (hsteps : ∀ before events after, step before events after → other before events after)
    {history : List Event} {state : State} (hrun : Recorded step first history state) :
    Recorded other first history state := by
  induction hrun with
  | start => exact .start
  | step _ hstep ih => exact .step ih (hsteps _ _ _ hstep)

/-- A state is reached exactly if it is reached with some history. -/
theorem reaches_iff_recorded {state : State} :
    ReflTransGen (fun before after ↦ ∃ events, step before events after) first state ↔
      ∃ history, Recorded step first history state := by
  constructor
  · intro hreaches
    induction hreaches with
    | refl => exact ⟨[], .start⟩
    | tail _ hstep ih =>
      obtain ⟨history, hrun⟩ := ih
      obtain ⟨events, hstep⟩ := hstep
      exact ⟨history ++ events, .step hrun hstep⟩
  · rintro ⟨history, hrun⟩
    induction hrun with
    | start => exact .refl
    | step _ hstep ih => exact ih.tail ⟨_, hstep⟩

end Disguise.Process
