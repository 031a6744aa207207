import Disguise.Process.Basic

/-!
# Processes that behave alike

Two processes are alike when they hand over the same messages, make the same observations and wait
at the same places, whatever their surroundings answer, and when the errors and the results they
end with are related. The relation on errors and results is a parameter, so what two processes are
allowed to differ in is said once, and everything else about them is the same.

`Alike.bind` composes such processes and `alike_refl` says that a process is alike to itself. The
equations of the primitives turn two straight-line processes of one shape into what has to be
related at their exits. `Alike.execution` is the result about runs: two processes that are alike
have, in the same surroundings, runs that send the same bytes, make the same observations and end
in related ways.

No property of the surroundings is used, and nothing is said about processes that can only be told
apart by a message they receive later.
-/

set_option autoImplicit false
set_option relaxedAutoImplicit false

namespace Disguise.Process

variable {M O ε ε' α α' β β' : Type}

/-- Two outcomes are of the same kind, with related errors or related results. -/
inductive EndAlike (sameError : ε → ε' → Prop) (sameResult : α → α' → Prop) :
    Except ε α → Except ε' α' → Prop
  | ok {result : α} {result' : α'} (hresult : sameResult result result') :
      EndAlike sameError sameResult (.ok result) (.ok result')
  | error {error : ε} {error' : ε'} (herror : sameError error error') :
      EndAlike sameError sameResult (.error error) (.error error')

/-- Two runs exchange the same messages with their surroundings, make the same observations and end
alike. -/
structure ExecutionAlike (sameError : ε → ε' → Prop) (sameResult : α → α' → Prop)
    (run : Execution M O ε α) (run' : Execution M O ε' α') : Prop where
  sent : run.sent = run'.sent
  notes : run.notes = run'.notes
  sends : run.sends = run'.sends
  waits : run.waits = run'.waits
  outcome : EndAlike sameError sameResult run.outcome run'.outcome

/-- Runs that are alike stay so behind the same messages and observations. -/
theorem ExecutionAlike.after {sameError : ε → ε' → Prop} {sameResult : α → α' → Prop}
    {run : Execution M O ε α} {run' : Execution M O ε' α'}
    (halike : ExecutionAlike sameError sameResult run run') (sent : List M) (notes : List O) :
    ExecutionAlike sameError sameResult (run.after sent notes) (run'.after sent notes) where
  sent := congrArg (sent ++ ·) halike.sent
  notes := congrArg (notes ++ ·) halike.notes
  sends := halike.sends
  waits := halike.waits
  outcome := halike.outcome

namespace Proc

/-- Two processes of the same shape, with related errors and results. -/
inductive Alike (sameError : ε → ε' → Prop) (sameResult : α → α' → Prop) :
    Proc M O ε α → Proc M O ε' α' → Prop
  | done {result : α} {result' : α'} (hresult : sameResult result result') :
      Alike sameError sameResult (done result) (done result')
  | fail {error : ε} {error' : ε'} (herror : sameError error error') :
      Alike sameError sameResult (fail error) (fail error')
  | send {message : M} {next : Bool → Proc M O ε α} {next' : Bool → Proc M O ε' α'}
      (hnext : ∀ accepted, Alike sameError sameResult (next accepted) (next' accepted)) :
      Alike sameError sameResult (send message next) (send message next')
  | recv {next : M → Proc M O ε α} {next' : M → Proc M O ε' α'}
      (hnext : ∀ message, Alike sameError sameResult (next message) (next' message)) :
      Alike sameError sameResult (recv next) (recv next')
  | note {observation : O} {next : Proc M O ε α} {next' : Proc M O ε' α'}
      (hnext : Alike sameError sameResult next next') :
      Alike sameError sameResult (note observation next) (note observation next')

variable {sameError : ε → ε' → Prop}

/-- Every process is alike to itself, when every error and every result is related to itself. -/
theorem alike_refl {sameError : ε → ε → Prop} {sameResult : α → α → Prop}
    (herror : ∀ error, sameError error error) (hresult : ∀ result, sameResult result result)
    (process : Proc M O ε α) : Alike sameError sameResult process process := by
  induction process with
  | done result => exact .done (hresult result)
  | fail error => exact .fail (herror error)
  | send message next ih => exact .send ih
  | recv next ih => exact .recv ih
  | note observation next ih => exact .note ih

/-- Sequences are alike when their first parts are, and their second parts on related results. -/
theorem Alike.bind {sameFirst : α → α' → Prop} {sameResult : β → β' → Prop}
    {process : Proc M O ε α} {process' : Proc M O ε' α'} {continuation : α → Proc M O ε β}
    {continuation' : α' → Proc M O ε' β'} (hfirst : Alike sameError sameFirst process process')
    (hsecond : ∀ result result', sameFirst result result' →
      Alike sameError sameResult (continuation result) (continuation' result')) :
    Alike sameError sameResult (process >>= continuation) (process' >>= continuation') := by
  induction hfirst with
  | done hresult => exact hsecond _ _ hresult
  | fail herror => exact .fail herror
  | send hnext ih => exact .send ih
  | recv hnext ih => exact .recv ih
  | note hnext ih => exact .note ih

/-- Processes that are alike have runs that are alike, in the same surroundings. -/
theorem Alike.execution {sameResult : α → α' → Prop} {process : Proc M O ε α}
    {process' : Proc M O ε' α'} (halike : Alike sameError sameResult process process')
    (environment : Environment M) (sends waits : ℕ) :
    ExecutionAlike sameError sameResult (execute environment process sends waits)
      (execute environment process' sends waits) := by
  induction halike generalizing sends waits with
  | done hresult => exact ⟨rfl, rfl, rfl, rfl, .ok hresult⟩
  | fail herror => exact ⟨rfl, rfl, rfl, rfl, .error herror⟩
  | send hnext ih => exact (ih (environment.accepts sends) (sends + 1) waits).after _ _
  | recv hnext ih => exact ih (environment.delivers waits) sends (waits + 1)
  | note hnext ih => exact (ih sends waits).after _ _

/-! ### The primitives -/

section Primitives

variable {sameResult : β → β' → Prop}

theorem alike_done (result : β) (result' : β') :
    Alike sameError sameResult (done result : Proc M O ε β) (done result') ↔
      sameResult result result' := by
  refine ⟨fun halike ↦ ?_, .done⟩
  cases halike with
  | done hresult => exact hresult

theorem alike_receive (continuation : M → Proc M O ε β) (continuation' : M → Proc M O ε' β') :
    Alike sameError sameResult (receive >>= continuation) (receive >>= continuation') ↔
      ∀ message, Alike sameError sameResult (continuation message) (continuation' message) := by
  refine ⟨fun halike ↦ ?_, .recv⟩
  cases halike with
  | recv hnext => exact hnext

theorem alike_observe (observation : O) (continuation : Unit → Proc M O ε β)
    (continuation' : Unit → Proc M O ε' β') :
    Alike sameError sameResult (observe observation >>= continuation)
        (observe observation >>= continuation') ↔
      Alike sameError sameResult (continuation ()) (continuation' ()) := by
  refine ⟨fun halike ↦ ?_, .note⟩
  cases halike with
  | note hnext => exact hnext

theorem alike_require (condition : Prop) [Decidable condition] (error : ε) (error' : ε')
    (continuation : Unit → Proc M O ε β) (continuation' : Unit → Proc M O ε' β') :
    Alike sameError sameResult (require condition error >>= continuation)
        (require condition error' >>= continuation') ↔
      (¬ condition → sameError error error') ∧
        (condition → Alike sameError sameResult (continuation ()) (continuation' ())) := by
  by_cases hcondition : condition
  · simp [require, hcondition]
  · simp only [require, hcondition, if_false, fail_bind, not_false_eq_true, true_implies,
      false_implies, and_true]
    refine ⟨fun halike ↦ ?_, .fail⟩
    cases halike with
    | fail herror => exact herror

theorem alike_orFail (value : Option α) (error : ε) (error' : ε')
    (continuation : α → Proc M O ε β) (continuation' : α → Proc M O ε' β') :
    Alike sameError sameResult (orFail value error >>= continuation)
        (orFail value error' >>= continuation') ↔
      (value = none → sameError error error') ∧ ∀ found, value = some found →
        Alike sameError sameResult (continuation found) (continuation' found) := by
  cases value with
  | some found => simp [orFail]
  | none =>
    simp only [orFail, fail_bind, true_implies, reduceCtorEq, false_implies, implies_true,
      and_true]
    refine ⟨fun halike ↦ ?_, .fail⟩
    cases halike with
    | fail herror => exact herror

end Primitives

end Proc

end Disguise.Process
