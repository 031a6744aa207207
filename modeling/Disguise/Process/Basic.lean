import Mathlib.Logic.Relation
import Mathlib.Tactic.Common

/-!
# Message-passing processes

The code of one party of a protocol, as a tree of what it does next: it hands a message to the
transport and learns whether the transport took it, it waits for a message, it makes an
observation, it stops with an error, or it returns. A party that is written in straight-line code
with early exits is a `Proc` in source order, and everything its surroundings decide (which bytes
arrive, which sends fail) is left to an `Environment`.

`execute` runs a process against an environment and collects what it sent, what it observed and
how it ended. `execute_bind` composes runs. The primitives are `transmit`, `receive`, `observe`,
`require` and `orFail`, and each has one equation for how it runs in front of a continuation.

Four predicates are computed along a process. `Completes` says that a run returns a given result,
`Transmits` that the transport took at least a given number of messages, and `Hands` that a given
message was handed to the transport; their equations turn a straight-line process into the
conjunction of the tests it passes. `Respects` says that every
observation, the error a run ends with and the result it returns satisfy given predicates; its
equations turn a straight-line process into its verification conditions.

`Performs` records the messages a process exchanges when the transport takes every message. It is
what the composition of two processes over a network is built from.
-/

set_option autoImplicit false
set_option relaxedAutoImplicit false

namespace Disguise.Process

/-- The code of one party: messages `M`, observations `O`, errors `ε` and results `α`. -/
inductive Proc (M O ε α : Type) where
  | done (result : α)
  | fail (error : ε)
  | send (message : M) (next : Bool → Proc M O ε α)
  | recv (next : M → Proc M O ε α)
  | note (observation : O) (next : Proc M O ε α)

/-- What surrounds a process: whether the transport takes the `i`-th message handed to it, and the
message the `i`-th wait delivers. -/
structure Environment (M : Type) where
  accepts : ℕ → Bool
  delivers : ℕ → M

/-- A finished run: the messages the transport took, the observations, the numbers of sends and
waits the surroundings have answered, and how the process ended. -/
structure Execution (M O ε α : Type) where
  sent : List M
  notes : List O
  sends : ℕ
  waits : ℕ
  outcome : Except ε α

variable {M O ε α β : Type}

/-- A run preceded by messages already sent and observations already made. -/
def Execution.after (sent : List M) (notes : List O) (rest : Execution M O ε α) :
    Execution M O ε α :=
  { rest with sent := sent ++ rest.sent, notes := notes ++ rest.notes }

namespace Proc

/-! ### Sequencing -/

/-- Runs a process and continues with its result. An error ends the whole process. -/
protected def bind (process : Proc M O ε α) (continuation : α → Proc M O ε β) : Proc M O ε β :=
  match process with
  | done result => continuation result
  | fail error => fail error
  | send message next => send message fun accepted ↦ (next accepted).bind continuation
  | recv next => recv fun message ↦ (next message).bind continuation
  | note observation next => note observation (next.bind continuation)

instance : Monad (Proc M O ε) where
  pure := done
  bind := Proc.bind

/-- Hands a message to the transport and returns whether the transport took it. -/
def transmit (message : M) : Proc M O ε Bool := send message done

/-- Waits for a message. -/
def receive : Proc M O ε M := recv done

/-- Makes an observation. -/
def observe (observation : O) : Proc M O ε Unit := note observation (done ())

/-- Stops with an error unless a condition holds. -/
def require (condition : Prop) [Decidable condition] (error : ε) : Proc M O ε Unit :=
  if condition then done () else fail error

/-- The value of an optional result, or an error when there is none. -/
def orFail (value : Option α) (error : ε) : Proc M O ε α :=
  match value with
  | some result => done result
  | none => fail error

@[simp] theorem orFail_some (result : α) (error : ε) :
    (orFail (some result) error : Proc M O ε α) = done result := rfl

/-- Tests of equivalent conditions are the same process. -/
theorem require_congr {first second : Prop} [Decidable first] [Decidable second] (error : ε)
    (hconditions : first ↔ second) :
    (require first error : Proc M O ε Unit) = require second error := by
  by_cases hfirst : first
  · rw [require, require, if_pos hfirst, if_pos (hconditions.mp hfirst)]
  · rw [require, require, if_neg hfirst, if_neg fun hsecond ↦ hfirst (hconditions.mpr hsecond)]

@[simp] theorem pure_eq (result : α) : (pure result : Proc M O ε α) = done result := rfl

@[simp] theorem done_bind (result : α) (continuation : α → Proc M O ε β) :
    (done result >>= continuation) = continuation result := rfl

@[simp] theorem fail_bind (error : ε) (continuation : α → Proc M O ε β) :
    ((fail error : Proc M O ε α) >>= continuation) = fail error := rfl

@[simp] theorem send_bind (message : M) (next : Bool → Proc M O ε α)
    (continuation : α → Proc M O ε β) :
    (send message next >>= continuation) =
      send message fun accepted ↦ next accepted >>= continuation := rfl

@[simp] theorem recv_bind (next : M → Proc M O ε α) (continuation : α → Proc M O ε β) :
    (recv next >>= continuation) = recv fun message ↦ next message >>= continuation := rfl

@[simp] theorem note_bind (observation : O) (next : Proc M O ε α)
    (continuation : α → Proc M O ε β) :
    (note observation next >>= continuation) = note observation (next >>= continuation) := rfl

/-- Two continuations of an optional result are the same process when they agree on what it can
be. -/
theorem orFail_congr {value : Option α} {error : ε} {first second : α → Proc M O ε β}
    (hagree : ∀ found, value = some found → first found = second found) :
    (orFail value error >>= first) = (orFail value error >>= second) := by
  cases value with
  | none => rfl
  | some found => exact hagree found rfl

/-- Two continuations of a test are the same process when they agree where the test succeeds. -/
theorem require_bind_congr {condition : Prop} [Decidable condition] {error : ε}
    {first second : Unit → Proc M O ε β} (hagree : condition → first () = second ()) :
    (require condition error >>= first) = (require condition error >>= second) := by
  by_cases hcondition : condition
  · rw [require, if_pos hcondition, done_bind, done_bind, hagree hcondition]
  · rw [require, if_neg hcondition]
    rfl

/-- Sequencing is associative, so a process can be cut into named parts. -/
theorem sequence_assoc {γ : Type} (process : Proc M O ε α) (first : α → Proc M O ε β)
    (second : β → Proc M O ε γ) :
    ((process >>= first) >>= second) = process >>= fun result ↦ first result >>= second := by
  induction process with
  | done result => rfl
  | fail error => rfl
  | send message next ih => simp only [send_bind, ih]
  | recv next ih => simp only [recv_bind, ih]
  | note observation next ih => simp only [note_bind, ih]

/-- Returning the result of a process is running the process. -/
theorem bind_done_right (process : Proc M O ε α) : (process >>= done) = process := by
  induction process with
  | done result => rfl
  | fail error => rfl
  | send message next ih => simp only [send_bind, ih]
  | recv next ih => simp only [recv_bind, ih]
  | note observation next ih => simp only [note_bind, ih]

/-! ### Runs against an environment -/

/-- Runs a process against an environment that has already answered `sends` sends and `waits`
waits. -/
def execute (environment : Environment M) :
    Proc M O ε α → ℕ → ℕ → Execution M O ε α
  | done result, sends, waits => ⟨[], [], sends, waits, .ok result⟩
  | fail error, sends, waits => ⟨[], [], sends, waits, .error error⟩
  | send message next, sends, waits =>
    (execute environment (next (environment.accepts sends)) (sends + 1) waits).after
      (if environment.accepts sends then [message] else []) []
  | recv next, sends, waits =>
    execute environment (next (environment.delivers waits)) sends (waits + 1)
  | note observation next, sends, waits =>
    (execute environment next sends waits).after [] [observation]

/-- A run of a sequence is a run of its first part, followed by a run of the second part from where
the first one left the environment. -/
theorem execute_bind (environment : Environment M) (process : Proc M O ε α)
    (continuation : α → Proc M O ε β) (sends waits : ℕ) :
    execute environment (process >>= continuation) sends waits =
      match (execute environment process sends waits).outcome with
      | .ok result =>
        (execute environment (continuation result) (execute environment process sends waits).sends
          (execute environment process sends waits).waits).after
          (execute environment process sends waits).sent
          (execute environment process sends waits).notes
      | .error error =>
        { execute environment process sends waits with outcome := .error error } := by
  induction process generalizing sends waits with
  | done result => simp [execute, Execution.after]
  | fail error => simp [execute]
  | send message next ih =>
    simp only [send_bind, execute, ih]
    cases hrest : (execute environment (next (environment.accepts sends)) (sends + 1)
      waits).outcome <;> simp [Execution.after, hrest]
  | recv next ih => simp only [recv_bind, execute, ih]
  | note observation next ih =>
    simp only [note_bind, execute, ih]
    cases hrest : (execute environment next sends waits).outcome <;>
      simp [Execution.after, hrest]

/-! ### Returning a result -/

/-- A run returns the given result. -/
def Completes (environment : Environment M) (process : Proc M O ε α) (sends waits : ℕ)
    (result : α) : Prop :=
  (execute environment process sends waits).outcome = .ok result

section Completes

variable (environment : Environment M) (sends waits : ℕ) (result : β)

@[simp] theorem completes_done (value : β) :
    Completes environment (done value : Proc M O ε β) sends waits result ↔ value = result := by
  simp [Completes, execute]

@[simp] theorem completes_fail (error : ε) :
    ¬ Completes environment (fail error : Proc M O ε β) sends waits result := by
  simp [Completes, execute]

@[simp] theorem completes_transmit (message : M) (continuation : Bool → Proc M O ε β) :
    Completes environment (transmit message >>= continuation) sends waits result ↔
      Completes environment (continuation (environment.accepts sends)) (sends + 1) waits
        result :=
  Iff.rfl

@[simp] theorem completes_receive (continuation : M → Proc M O ε β) :
    Completes environment (receive >>= continuation) sends waits result ↔
      Completes environment (continuation (environment.delivers waits)) sends (waits + 1)
        result :=
  Iff.rfl

@[simp] theorem completes_observe (observation : O) (continuation : Unit → Proc M O ε β) :
    Completes environment (observe observation >>= continuation) sends waits result ↔
      Completes environment (continuation ()) sends waits result :=
  Iff.rfl

@[simp] theorem completes_require (condition : Prop) [Decidable condition] (error : ε)
    (continuation : Unit → Proc M O ε β) :
    Completes environment (require condition error >>= continuation) sends waits result ↔
      condition ∧ Completes environment (continuation ()) sends waits result := by
  by_cases hcondition : condition <;> simp [require, hcondition]

@[simp] theorem completes_orFail (value : Option α) (error : ε)
    (continuation : α → Proc M O ε β) :
    Completes environment (orFail value error >>= continuation) sends waits result ↔
      ∃ found, value = some found ∧
        Completes environment (continuation found) sends waits result := by
  cases value <;> simp [orFail]

end Completes

/-! ### Transmitting messages -/

/-- In a run the transport takes at least `count` messages. -/
def Transmits (environment : Environment M) (process : Proc M O ε α) (sends waits count : ℕ) :
    Prop :=
  count ≤ (execute environment process sends waits).sent.length

section Transmits

variable (environment : Environment M) (sends waits count : ℕ)

@[simp] theorem transmits_done (value : β) :
    ¬ Transmits environment (done value : Proc M O ε β) sends waits (count + 1) := by
  simp [Transmits, execute]

@[simp] theorem transmits_fail (error : ε) :
    ¬ Transmits environment (fail error : Proc M O ε β) sends waits (count + 1) := by
  simp [Transmits, execute]

@[simp] theorem transmits_zero (process : Proc M O ε β) :
    Transmits environment process sends waits 0 :=
  Nat.zero_le _

@[simp] theorem transmits_transmit (message : M) (continuation : Bool → Proc M O ε β) :
    Transmits environment (transmit message >>= continuation) sends waits (count + 1) ↔
      if environment.accepts sends then
        Transmits environment (continuation true) (sends + 1) waits count
      else Transmits environment (continuation false) (sends + 1) waits (count + 1) := by
  cases haccepts : environment.accepts sends <;>
    simp [Transmits, transmit, execute, Execution.after, haccepts]

@[simp] theorem transmits_receive (continuation : M → Proc M O ε β) :
    Transmits environment (receive >>= continuation) sends waits count ↔
      Transmits environment (continuation (environment.delivers waits)) sends (waits + 1)
        count :=
  Iff.rfl

@[simp] theorem transmits_observe (observation : O) (continuation : Unit → Proc M O ε β) :
    Transmits environment (observe observation >>= continuation) sends waits count ↔
      Transmits environment (continuation ()) sends waits count :=
  Iff.rfl

@[simp] theorem transmits_require (condition : Prop) [Decidable condition] (error : ε)
    (continuation : Unit → Proc M O ε β) :
    Transmits environment (require condition error >>= continuation) sends waits (count + 1) ↔
      condition ∧ Transmits environment (continuation ()) sends waits (count + 1) := by
  by_cases hcondition : condition <;> simp [require, hcondition]

@[simp] theorem transmits_orFail (value : Option α) (error : ε)
    (continuation : α → Proc M O ε β) :
    Transmits environment (orFail value error >>= continuation) sends waits (count + 1) ↔
      ∃ found, value = some found ∧
        Transmits environment (continuation found) sends waits (count + 1) := by
  cases value <;> simp [orFail]

end Transmits

/-! ### Handing messages over -/

/-- The messages a run hands to the transport, whether they are taken or not. -/
def handed (environment : Environment M) : Proc M O ε α → ℕ → ℕ → List M
  | done _, _, _ => []
  | fail _, _, _ => []
  | send message next, sends, waits =>
    message :: handed environment (next (environment.accepts sends)) (sends + 1) waits
  | recv next, sends, waits =>
    handed environment (next (environment.delivers waits)) sends (waits + 1)
  | note _ next, sends, waits => handed environment next sends waits

/-- A run hands a message to the transport, after `count` others. -/
def Hands (environment : Environment M) (process : Proc M O ε α) (sends waits count : ℕ)
    (message : M) : Prop :=
  (handed environment process sends waits)[count]? = some message

section Hands

variable (environment : Environment M) (sends waits count : ℕ) (message : M)

@[simp] theorem hands_done (value : β) :
    ¬ Hands environment (done value : Proc M O ε β) sends waits count message := by
  simp [Hands, handed]

@[simp] theorem hands_fail (error : ε) :
    ¬ Hands environment (fail error : Proc M O ε β) sends waits count message := by
  simp [Hands, handed]

@[simp] theorem hands_transmit_zero (first : M) (continuation : Bool → Proc M O ε β) :
    Hands environment (transmit first >>= continuation) sends waits 0 message ↔
      first = message := by
  simp [Hands, transmit, handed]

@[simp] theorem hands_transmit_succ (first : M) (continuation : Bool → Proc M O ε β) :
    Hands environment (transmit first >>= continuation) sends waits (count + 1) message ↔
      Hands environment (continuation (environment.accepts sends)) (sends + 1) waits count
        message := by
  simp [Hands, transmit, handed]

@[simp] theorem hands_receive (continuation : M → Proc M O ε β) :
    Hands environment (receive >>= continuation) sends waits count message ↔
      Hands environment (continuation (environment.delivers waits)) sends (waits + 1) count
        message :=
  Iff.rfl

@[simp] theorem hands_observe (observation : O) (continuation : Unit → Proc M O ε β) :
    Hands environment (observe observation >>= continuation) sends waits count message ↔
      Hands environment (continuation ()) sends waits count message :=
  Iff.rfl

@[simp] theorem hands_require (condition : Prop) [Decidable condition] (error : ε)
    (continuation : Unit → Proc M O ε β) :
    Hands environment (require condition error >>= continuation) sends waits count message ↔
      condition ∧ Hands environment (continuation ()) sends waits count message := by
  by_cases hcondition : condition <;> simp [require, hcondition]

@[simp] theorem hands_orFail (value : Option α) (error : ε)
    (continuation : α → Proc M O ε β) :
    Hands environment (orFail value error >>= continuation) sends waits count message ↔
      ∃ found, value = some found ∧
        Hands environment (continuation found) sends waits count message := by
  cases value <;> simp [orFail]

end Hands

/-! ### Verification conditions -/

/-- In a run every observation satisfies `good`, an error the run ends with satisfies `tolerated`,
and a result it returns satisfies `promised`. -/
structure Respects (good : O → Prop) (tolerated : ε → Prop) (promised : α → Prop)
    (environment : Environment M) (process : Proc M O ε α) (sends waits : ℕ) : Prop where
  notes : ∀ observation ∈ (execute environment process sends waits).notes, good observation
  error : ∀ error, (execute environment process sends waits).outcome = .error error →
    tolerated error
  result : ∀ result, (execute environment process sends waits).outcome = .ok result →
    promised result

section Respects

variable (good : O → Prop) (tolerated : ε → Prop) (promised : β → Prop)
  (environment : Environment M) (sends waits : ℕ)

@[simp] theorem respects_done (value : β) :
    Respects good tolerated promised environment (done value : Proc M O ε β) sends waits ↔
      promised value := by
  refine ⟨fun hrespects ↦ hrespects.result value rfl, fun hvalue ↦ ⟨?_, ?_, ?_⟩⟩
  · simp [execute]
  · simp [execute]
  · intro result hresult
    rw [← Except.ok.inj hresult]
    exact hvalue

@[simp] theorem respects_fail (error : ε) :
    Respects good tolerated promised environment (fail error : Proc M O ε β) sends waits ↔
      tolerated error := by
  refine ⟨fun hrespects ↦ hrespects.error error rfl, fun herror ↦ ⟨?_, ?_, ?_⟩⟩
  · simp [execute]
  · intro error' herror'
    rw [← Except.error.inj herror']
    exact herror
  · simp [execute]

@[simp] theorem respects_transmit (message : M) (continuation : Bool → Proc M O ε β) :
    Respects good tolerated promised environment (transmit message >>= continuation) sends waits ↔
      Respects good tolerated promised environment (continuation (environment.accepts sends))
        (sends + 1) waits :=
  ⟨fun ⟨hnotes, herror, hresult⟩ ↦ ⟨hnotes, herror, hresult⟩,
    fun ⟨hnotes, herror, hresult⟩ ↦ ⟨hnotes, herror, hresult⟩⟩

@[simp] theorem respects_receive (continuation : M → Proc M O ε β) :
    Respects good tolerated promised environment (receive >>= continuation) sends waits ↔
      Respects good tolerated promised environment (continuation (environment.delivers waits)) sends
        (waits + 1) :=
  ⟨fun ⟨hnotes, herror, hresult⟩ ↦ ⟨hnotes, herror, hresult⟩,
    fun ⟨hnotes, herror, hresult⟩ ↦ ⟨hnotes, herror, hresult⟩⟩

@[simp] theorem respects_observe (observation : O) (continuation : Unit → Proc M O ε β) :
    Respects good tolerated promised environment (observe observation >>= continuation) sends
        waits ↔
      good observation ∧
        Respects good tolerated promised environment (continuation ()) sends waits := by
  constructor
  · rintro ⟨hnotes, herror, hresult⟩
    exact ⟨hnotes observation (List.mem_cons_self ..),
      fun later hlater ↦ hnotes later (List.mem_cons_of_mem _ hlater), herror, hresult⟩
  · rintro ⟨hgood, hnotes, herror, hresult⟩
    refine ⟨fun later hlater ↦ ?_, herror, hresult⟩
    rcases List.mem_cons.mp hlater with rfl | hlater
    · exact hgood
    · exact hnotes later hlater

@[simp] theorem respects_require (condition : Prop) [Decidable condition] (error : ε)
    (continuation : Unit → Proc M O ε β) :
    Respects good tolerated promised environment (require condition error >>= continuation) sends
        waits ↔
      (¬ condition → tolerated error) ∧ (condition →
        Respects good tolerated promised environment (continuation ()) sends waits) := by
  by_cases hcondition : condition <;> simp [require, hcondition]

@[simp] theorem respects_require_last (promised' : Unit → Prop) (condition : Prop)
    [Decidable condition] (error : ε) :
    Respects good tolerated promised' environment (require condition error : Proc M O ε Unit) sends
        waits ↔
      (¬ condition → tolerated error) ∧ (condition → promised' ()) := by
  by_cases hcondition : condition <;> simp [require, hcondition]

@[simp] theorem respects_orFail (value : Option α) (error : ε)
    (continuation : α → Proc M O ε β) :
    Respects good tolerated promised environment (orFail value error >>= continuation) sends
        waits ↔
      (value = none → tolerated error) ∧ ∀ found, value = some found →
        Respects good tolerated promised environment (continuation found) sends waits := by
  cases value <;> simp [orFail]

/-- A sequence respects what its first part respects in every run and its second part respects from
there on. -/
theorem respects_bind {promised' : α → Prop} {process : Proc M O ε α}
    {continuation : α → Proc M O ε β}
    (hfirst : Respects good tolerated promised' environment process sends waits)
    (hsecond : ∀ result sends' waits', promised' result →
      Respects good tolerated promised environment (continuation result) sends' waits') :
    Respects good tolerated promised environment (process >>= continuation) sends waits := by
  have hrun := execute_bind environment process continuation sends waits
  cases houtcome : (execute environment process sends waits).outcome with
  | error error =>
    rw [houtcome] at hrun
    refine ⟨?_, ?_, ?_⟩ <;> rw [hrun]
    · exact hfirst.notes
    · intro error' herror
      rw [← Except.error.inj herror]
      exact hfirst.error error houtcome
    · simp
  | ok value =>
    rw [houtcome] at hrun
    have hrest := hsecond value (execute environment process sends waits).sends
      (execute environment process sends waits).waits (hfirst.result value houtcome)
    refine ⟨?_, ?_, ?_⟩ <;> rw [hrun]
    · intro observation hobservation
      rcases List.mem_append.mp hobservation with hearly | hlate
      · exact hfirst.notes observation hearly
      · exact hrest.notes observation hlate
    · exact hrest.error
    · exact hrest.result

end Respects

end Proc

end Disguise.Process
