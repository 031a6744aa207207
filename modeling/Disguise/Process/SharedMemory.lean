import Mathlib.Logic.Function.Basic
import Mathlib.Logic.Relation
import Mathlib.Tactic.Common

/-!
# Programs over a shared memory

The code of one process that shares memory with others, as a tree of its next access: it loads a
cell, it stores into a cell, it makes a choice its environment decides (an allocation that can
fail), or it returns. Each access is one atomic step, and cells of different kinds hold values of
different types.

A program is run in two ways. `run` executes it from its start to its end while the other processes
are given by `Surroundings`, which may change the memory in any way before each access; the result
is a function of the surroundings, so that runs can be compared. `Step` is one access, for systems
in which several programs take turns. `run_alone_steps` connects the two: a run that nobody disturbs
is a sequence of steps.
-/

set_option autoImplicit false
set_option relaxedAutoImplicit false

namespace Disguise.Process

variable {Cell : Type}

/-- The contents of the shared memory. -/
abbrev Shared (Content : Cell → Type) := ∀ cell, Content cell

/-- The code of a process that shares memory, with a result of type `α`. -/
inductive Program (Content : Cell → Type) (α : Type) where
  | done (result : α)
  | load (cell : Cell) (next : Content cell → Program Content α)
  | store (cell : Cell) (value : Content cell) (next : Program Content α)
  | choose (next : Bool → Program Content α)

/-- A step of a process, as an observer sees it. -/
inductive Access (Content : Cell → Type) where
  | loaded (cell : Cell) (value : Content cell)
  | stored (cell : Cell) (value : Content cell)
  | chose (answer : Bool)

/-- The other processes, as far as one process can tell: how they change the memory before its
`i`-th step, and how its `i`-th step is decided if that is a choice. -/
structure Surroundings (Content : Cell → Type) where
  intervene : ℕ → Shared Content → Shared Content
  chooses : ℕ → Bool

/-- A finished run: what the process did, the number of steps taken so far, the memory it leaves and
its result. -/
structure Run (Content : Cell → Type) (α : Type) where
  trace : List (Access Content)
  moment : ℕ
  memory : Shared Content
  result : α

variable {Content : Cell → Type} {α β : Type}

namespace Program

/-! ### Sequencing -/

/-- Runs a program and continues with its result. -/
protected def bind (program : Program Content α) (continuation : α → Program Content β) :
    Program Content β :=
  match program with
  | done result => continuation result
  | load cell next => load cell fun value ↦ (next value).bind continuation
  | store cell value next => store cell value (next.bind continuation)
  | choose next => choose fun answer ↦ (next answer).bind continuation

instance : Monad (Program Content) where
  pure := done
  bind := Program.bind

/-- Loads a cell. -/
def loadCell (cell : Cell) : Program Content (Content cell) := load cell done

/-- Stores into a cell. -/
def storeCell (cell : Cell) (value : Content cell) : Program Content Unit :=
  store cell value (done ())

/-- Asks the environment for a decision. -/
def decision : Program Content Bool := choose done

@[simp] theorem pure_def (result : α) : (pure result : Program Content α) = done result := rfl

@[simp] theorem bind_done (result : α) (continuation : α → Program Content β) :
    (done result >>= continuation) = continuation result := rfl

@[simp] theorem bind_load (cell : Cell) (next : Content cell → Program Content α)
    (continuation : α → Program Content β) :
    (load cell next >>= continuation) = load cell fun value ↦ next value >>= continuation := rfl

@[simp] theorem bind_store (cell : Cell) (value : Content cell) (next : Program Content α)
    (continuation : α → Program Content β) :
    (store cell value next >>= continuation) = store cell value (next >>= continuation) := rfl

@[simp] theorem bind_choose (next : Bool → Program Content α)
    (continuation : α → Program Content β) :
    (choose next >>= continuation) = choose fun answer ↦ next answer >>= continuation := rfl

@[simp] theorem bind_loadCell (cell : Cell) (continuation : Content cell → Program Content β) :
    (loadCell cell >>= continuation) = load cell continuation := rfl

@[simp] theorem bind_storeCell (cell : Cell) (value : Content cell)
    (continuation : Unit → Program Content β) :
    (storeCell cell value >>= continuation) = store cell value (continuation ()) := rfl

@[simp] theorem bind_decision (continuation : Bool → Program Content β) :
    (decision >>= continuation) = choose continuation := rfl

end Program

open Program

/-! ### Runs among surroundings -/

/-- A run preceded by one more access. -/
def Run.after (access : Access Content) (rest : Run Content α) : Run Content α :=
  { rest with trace := access :: rest.trace }

/-- Surroundings that never change the memory. -/
def alone (answers : ℕ → Bool) : Surroundings Content where
  intervene := fun _ memory ↦ memory
  chooses := answers

section Execution

variable [DecidableEq Cell]

/-- Runs a program that starts after `moment` steps. -/
def run (surroundings : Surroundings Content) :
    Program Content α → ℕ → Shared Content → Run Content α
  | done result, moment, memory => ⟨[], moment, memory, result⟩
  | load cell next, moment, memory =>
    let seen := surroundings.intervene moment memory
    (run surroundings (next (seen cell)) (moment + 1) seen).after (.loaded cell (seen cell))
  | store cell value next, moment, memory =>
    let seen := surroundings.intervene moment memory
    (run surroundings next (moment + 1) (Function.update seen cell value)).after
      (.stored cell value)
  | choose next, moment, memory =>
    let seen := surroundings.intervene moment memory
    let answer := surroundings.chooses moment
    (run surroundings (next answer) (moment + 1) seen).after (.chose answer)

/-- A run of a sequence is a run of its first part, and a run of the second part from where the
first one ended. -/
theorem run_bind (surroundings : Surroundings Content) (program : Program Content α)
    (continuation : α → Program Content β) (moment : ℕ) (memory : Shared Content) :
    run surroundings (program >>= continuation) moment memory =
      let first := run surroundings program moment memory
      let second := run surroundings (continuation first.result) first.moment first.memory
      { second with trace := first.trace ++ second.trace } := by
  induction program generalizing moment memory with
  | done result => rfl
  | load cell next ih => simp only [bind_load, run, ih, Run.after, List.cons_append]
  | store cell value next ih => simp only [bind_store, run, ih, Run.after, List.cons_append]
  | choose next ih => simp only [bind_choose, run, ih, Run.after, List.cons_append]

/-! ### Steps -/

/-- One access of a program to the memory. -/
inductive Step : Program Content α → Shared Content → Access Content → Program Content α →
    Shared Content → Prop where
  | load (cell : Cell) (next : Content cell → Program Content α) (memory : Shared Content) :
      Step (.load cell next) memory (.loaded cell (memory cell)) (next (memory cell)) memory
  | store (cell : Cell) (value : Content cell) (next : Program Content α)
      (memory : Shared Content) :
      Step (.store cell value next) memory (.stored cell value) next
        (Function.update memory cell value)
  | choose (next : Bool → Program Content α) (answer : Bool) (memory : Shared Content) :
      Step (.choose next) memory (.chose answer) (next answer) memory

/-- Some steps of a program in a row, with what an observer sees. -/
inductive Steps : Program Content α → Shared Content → List (Access Content) →
    Program Content α → Shared Content → Prop where
  | refl (program : Program Content α) (memory : Shared Content) :
      Steps program memory [] program memory
  | head {first second third : Program Content α} {before between after : Shared Content}
      {access : Access Content} {trace : List (Access Content)}
      (hstep : Step first before access second between)
      (hsteps : Steps second between trace third after) :
      Steps first before (access :: trace) third after

/-- A run that nobody disturbs is a sequence of steps to the end of the program. -/
theorem run_alone_steps (answers : ℕ → Bool) (program : Program Content α) (moment : ℕ)
    (memory : Shared Content) :
    Steps program memory (run (alone answers) program moment memory).trace
      (.done (run (alone answers) program moment memory).result)
      (run (alone answers) program moment memory).memory := by
  induction program generalizing moment memory with
  | done result => exact .refl _ _
  | load cell next ih => exact .head (.load cell next memory) (ih (memory cell) _ _)
  | store cell value next ih => exact .head (.store cell value next memory) (ih _ _)
  | choose next ih => exact .head (.choose next (answers moment) memory) (ih _ _ _)

/-- The steps of a sequence begin with those of its first part. -/
theorem Steps.bind {program : Program Content α} {memory after : Shared Content}
    {trace : List (Access Content)} {result : Program Content α}
    (hsteps : Steps program memory trace result after) (continuation : α → Program Content β) :
    Steps (program >>= continuation) memory trace (result >>= continuation) after := by
  induction hsteps with
  | refl program memory => exact .refl _ _
  | head hstep _ ih =>
    refine .head ?_ ih
    cases hstep with
    | load cell next _ => exact .load cell (fun value ↦ next value >>= continuation) _
    | store cell value _ _ => exact .store cell value (_ >>= continuation) _
    | choose next answer _ => exact .choose (fun answer ↦ next answer >>= continuation) answer _

/-- Where each access of a program is a step of a system, the steps of the program are a run of the
system. -/
theorem Steps.reaches {State : Type} {system : State → State → Prop}
    (place : Program Content α → Shared Content → List (Access Content) → State)
    (hplace : ∀ program rest memory after access earlier, Step program memory access rest after →
      system (place program memory earlier) (place rest after (earlier ++ [access])))
    {program rest : Program Content α} {memory after : Shared Content}
    {trace : List (Access Content)} (hsteps : Steps program memory trace rest after)
    (earlier : List (Access Content)) :
    Relation.ReflTransGen system (place program memory earlier)
      (place rest after (earlier ++ trace)) := by
  induction hsteps generalizing earlier with
  | refl program memory => rw [List.append_nil]
  | @head _ _ _ _ _ _ access trace hstep _ ih =>
    have hrest := ih (earlier ++ [access])
    rw [List.append_assoc, List.singleton_append] at hrest
    exact .head (hplace _ _ _ _ _ _ hstep) hrest

/-- A step of a sequence is a step of its first part, unless that part has returned. -/
theorem step_bind {program : Program Content α} {continuation : α → Program Content β}
    {memory after : Shared Content} {access : Access Content} {rest : Program Content β}
    (hstep : Step (program >>= continuation) memory access rest after) :
    (∃ result, program = .done result) ∨
      ∃ next, Step program memory access next after ∧ rest = next >>= continuation := by
  cases program with
  | done result => exact Or.inl ⟨result, rfl⟩
  | load cell next =>
    cases hstep
    exact Or.inr ⟨_, .load cell next memory, rfl⟩
  | store cell value next =>
    cases hstep
    exact Or.inr ⟨_, .store cell value next memory, rfl⟩
  | choose next =>
    cases hstep with
    | choose _ answer _ => exact Or.inr ⟨_, .choose next answer memory, rfl⟩

/-! ### Programs that only load -/

/-- All a program does is to load certain cells. -/
def OnlyLoads (allowed : Cell → Prop) : Program Content α → Prop
  | done _ => True
  | load cell next => allowed cell ∧ ∀ value, OnlyLoads allowed (next value)
  | store _ _ _ => False
  | choose next => ∀ answer, OnlyLoads allowed (next answer)

/-- A step of such a program leaves the memory as it is and loads what is there. -/
theorem OnlyLoads.step {allowed : Cell → Prop} {program rest : Program Content α}
    {memory after : Shared Content} {access : Access Content}
    (honly : OnlyLoads allowed program) (hstep : Step program memory access rest after) :
    after = memory ∧ OnlyLoads allowed rest ∧
      ∀ cell value, access = .loaded cell value → allowed cell ∧ value = memory cell := by
  cases hstep with
  | load cell next memory =>
    refine ⟨rfl, honly.2 _, ?_⟩
    rintro _ _ ⟨⟩
    exact ⟨honly.1, rfl⟩
  | store cell value next memory => exact absurd honly id
  | choose next answer memory => exact ⟨rfl, honly answer, fun _ _ hloaded ↦ nomatch hloaded⟩

end Execution

end Disguise.Process
