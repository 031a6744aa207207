import Mathlib.Data.List.Basic
import Mathlib.Data.List.Infix

/-!
# Messages over a byte stream

A stream socket carries cells, not messages. `Direction` is one direction of a connection: what a
sender has been asked to pass, what it still means to hand over of the last message, the cells in
flight, and what a receiver has taken for messages. Its events are the sender being asked to pass a
message, a call of `send` that takes a number of cells, and a call of `read` that returns a number
of cells, so a sequence of events is one way in which a stream can split what is passed over it. The
code of the sender is a parameter (`Sender`), and the receiver takes what one `read` returns for a
message.

`Carried` says that no message has been split or joined so far: what has been taken is what was
passed, message by message, and all that was passed and not taken is still on its way.
`carried_step_iff` says of every event exactly when it keeps this, in terms of what the stream does
in the event, and `throughout_iff_eachStep` turns that into whole runs.
-/

set_option autoImplicit false
set_option relaxedAutoImplicit false

namespace Disguise.Process

/-! ### Runs of a step function -/

section Runs

variable {σ τ : Type} (step : σ → τ → Option σ)

/-- Every state of a run is good. A run ends at an event that cannot happen. -/
def Throughout (good : σ → Prop) : σ → List τ → Prop
  | state, [] => good state
  | state, event :: rest =>
    good state ∧ ∀ next, step state event = some next → Throughout good next rest

/-- Every event of a run that happens is allowed in the state it happens in. -/
def EachStep (allowed : σ → τ → Prop) : σ → List τ → Prop
  | _, [] => True
  | state, event :: rest =>
    ∀ next, step state event = some next → allowed state event ∧ EachStep allowed next rest

variable {step}

/-- A run in which every state is good starts in a good state. -/
theorem Throughout.head {good : σ → Prop} {state : σ} {events : List τ}
    (hrun : Throughout step good state events) : good state := by
  cases events with
  | nil => exact hrun
  | cons event rest => exact hrun.1

/-- A run in which every state is good ends in a good state. -/
theorem Throughout.last {good : σ → Prop} {state last : σ} {events : List τ}
    (hrun : Throughout step good state events) (hlast : events.foldlM step state = some last) :
    good last := by
  induction events generalizing state with
  | nil =>
    obtain rfl : state = last := Option.some.inj hlast
    exact hrun
  | cons event rest ih =>
    rw [List.foldlM_cons] at hlast
    obtain ⟨next, hnext, hrest⟩ := Option.bind_eq_some_iff.mp hlast
    exact ih (hrun.2 next hnext) hrest

/-- What every step preserves holds throughout every run. -/
theorem throughout_of_preserved {good : σ → Prop}
    (hpreserved : ∀ state event next, good state → step state event = some next → good next)
    {state : σ} (hgood : good state) (events : List τ) : Throughout step good state events := by
  induction events generalizing state with
  | nil => exact hgood
  | cons event rest ih =>
    exact ⟨hgood, fun next hnext ↦ ih (hpreserved state event next hgood hnext)⟩

/-- When the allowed events are exactly those that lead from good states to good states, the runs
from a good state that stay good are exactly those whose events are allowed. -/
theorem throughout_iff_eachStep {good : σ → Prop} {allowed : σ → τ → Prop}
    (hexact : ∀ state event next, good state → step state event = some next →
      (good next ↔ allowed state event)) {state : σ} (hgood : good state) (events : List τ) :
    Throughout step good state events ↔ EachStep step allowed state events := by
  induction events generalizing state with
  | nil => exact iff_of_true hgood trivial
  | cons event rest ih =>
    constructor
    · rintro ⟨-, hrest⟩ next hnext
      have hgoodNext := (hrest next hnext).head
      exact ⟨(hexact state event next hgood hnext).mp hgoodNext,
        (ih hgoodNext).mp (hrest next hnext)⟩
    · intro hsteps
      refine ⟨hgood, fun next hnext ↦ ?_⟩
      obtain ⟨hallowed, hrest⟩ := hsteps next hnext
      exact (ih ((hexact state event next hgood hnext).mpr hallowed)).mpr hrest

end Runs

/-! ### One direction of a connection -/

/-- The code that hands one message to the stream: its state when it starts, the cells its next call
of `send` is given, if there is a next call, and its state when the call has taken some of them. -/
structure Sender (σ α : Type) where
  start : List α → σ
  offers : σ → Option (List α)
  accepted : σ → ℕ → σ

variable {σ α : Type}

/-- The cells the sender still means to hand over. -/
def Sender.rest (sender : Sender σ α) (sending : Option σ) : List α :=
  (sending.bind sender.offers).getD []

/-- One direction of a connection. -/
structure Direction (σ α : Type) where
  sending : Option σ
  passed : List (List α)
  inFlight : List α
  taken : List (List α)

namespace Direction

/-- A direction nothing has been passed in. -/
def idle : Direction σ α := ⟨none, [], [], []⟩

/-- The oldest message that has been passed and not been taken. -/
def next? (direction : Direction σ α) : Option (List α) :=
  direction.passed[direction.taken.length]?

/-- What happens in a direction: the sender is asked to pass a message, a call of `send` takes a
number of cells, or a call of `read` returns a number of cells. -/
inductive Event (α : Type) where
  | pass (message : List α)
  | send (count : ℕ)
  | read (count : ℕ)

/-- One event. A message is passed when the sender is done with the one before. A `send` takes some
of the cells it is given, and a `read` returns some of the cells in flight, at most `capacity`. -/
def step (sender : Sender σ α) (receives : List α → List α) (capacity : ℕ)
    (direction : Direction σ α) : Event α → Option (Direction σ α)
  | .pass message =>
    if (direction.sending.bind sender.offers).isNone then
      some { direction with
        sending := some (sender.start message), passed := direction.passed ++ [message] }
    else none
  | .send count => do
    let state ← direction.sending
    let cells ← sender.offers state
    if count ≤ cells.length ∧ (cells ≠ [] → 0 < count) then
      some { direction with
        sending := some (sender.accepted state count)
        inFlight := direction.inFlight ++ cells.take count }
    else none
  | .read count =>
    if 0 < count ∧ count ≤ capacity ∧ count ≤ direction.inFlight.length then
      some { direction with
        inFlight := direction.inFlight.drop count
        taken := direction.taken ++ [receives (direction.inFlight.take count)] }
    else none

section Step

variable {sender : Sender σ α} {receives : List α → List α} {capacity : ℕ}
  {direction after : Direction σ α}

theorem step_pass {message : List α}
    (hstep : step sender receives capacity direction (.pass message) = some after) :
    sender.rest direction.sending = [] ∧
      after = { direction with
        sending := some (sender.start message), passed := direction.passed ++ [message] } := by
  simp only [step, Option.ite_none_right_eq_some, Option.isNone_iff_eq_none, Option.some.injEq]
    at hstep
  exact ⟨by rw [Sender.rest, hstep.1, Option.getD_none], hstep.2.symm⟩

theorem step_send {count : ℕ}
    (hstep : step sender receives capacity direction (.send count) = some after) :
    ∃ state, direction.sending = some state ∧ count ≤ (sender.rest direction.sending).length ∧
      (sender.rest direction.sending ≠ [] → 0 < count) ∧
      after = { direction with
        sending := some (sender.accepted state count)
        inFlight := direction.inFlight ++ (sender.rest direction.sending).take count } := by
  simp only [step, Option.bind_eq_bind, Option.bind_eq_some_iff, Option.ite_none_right_eq_some,
    Option.some.injEq] at hstep
  obtain ⟨state, hstate, cells, hcells, ⟨hcount, hpositive⟩, hafter⟩ := hstep
  have hrest : sender.rest direction.sending = cells := by
    rw [Sender.rest, hstate, Option.bind_some, hcells, Option.getD_some]
  rw [hrest]
  exact ⟨state, hstate, hcount, hpositive, hafter.symm⟩

theorem step_read {count : ℕ}
    (hstep : step sender receives capacity direction (.read count) = some after) :
    0 < count ∧ count ≤ capacity ∧ count ≤ direction.inFlight.length ∧
      after = { direction with
        inFlight := direction.inFlight.drop count
        taken := direction.taken ++ [receives (direction.inFlight.take count)] } := by
  simp only [step, Option.ite_none_right_eq_some, Option.some.injEq] at hstep
  exact ⟨hstep.1.1, hstep.1.2.1, hstep.1.2.2, hstep.2.symm⟩

end Step

/-! ### Messages that arrive whole -/

/-- What has been taken is what was passed, message by message, and everything that was passed and
not taken is still on its way. -/
structure Carried (sender : Sender σ α) (direction : Direction σ α) : Prop where
  taken_in_order : direction.taken <+: direction.passed
  nothing_lost : direction.passed.flatten =
    direction.taken.flatten ++ direction.inFlight ++ sender.rest direction.sending

/-- Nothing is split in a direction nothing has been passed in. -/
theorem carried_idle (sender : Sender σ α) : Carried sender (idle : Direction σ α) :=
  ⟨List.prefix_rfl, rfl⟩

/-- What the stream does in an event when it splits nothing there: a `send` after which the code
does not go on with the rest of its message takes all of it, and a `read` returns as many cells as
the oldest message not taken has. -/
def Whole (sender : Sender σ α) (direction : Direction σ α) : Event α → Prop
  | .pass _ => True
  | .send count => ∀ state, direction.sending = some state →
      sender.rest (some (sender.accepted state count)) = (sender.rest direction.sending).drop count
  | .read count => direction.next?.map List.length = some count

section Carried

variable {sender : Sender σ α} {receives : List α → List α} {capacity : ℕ}
  {direction after : Direction σ α}

/-- What is left of the messages passed is in flight or still to be handed over. -/
theorem Carried.exists_rest (hcarried : Carried sender direction) :
    ∃ rest, direction.passed = direction.taken ++ rest ∧ direction.next? = rest.head? ∧
      rest.flatten = direction.inFlight ++ sender.rest direction.sending := by
  obtain ⟨rest, hrest⟩ := hcarried.taken_in_order
  refine ⟨rest, hrest.symm, ?_, ?_⟩
  · rw [next?, ← hrest, List.getElem?_append_right le_rfl, Nat.sub_self, List.head?_eq_getElem?]
  · have hlost := hcarried.nothing_lost
    rw [← hrest, List.flatten_append, List.append_assoc] at hlost
    exact List.append_cancel_left hlost

/-- When nothing is on its way any more, every message has been taken.

Assumes: no empty message was passed. -/
theorem Carried.taken_eq (hcarried : Carried sender direction) (hflight : direction.inFlight = [])
    (hsent : sender.rest direction.sending = []) (hnonempty : ∀ message ∈ direction.passed,
      message ≠ []) : direction.taken = direction.passed := by
  obtain ⟨rest, hpassed, -, hrest⟩ := hcarried.exists_rest
  rw [hflight, hsent, List.append_nil, List.flatten_eq_nil_iff] at hrest
  have hnone : rest = [] := by
    refine List.eq_nil_iff_forall_not_mem.mpr fun message hmessage ↦ ?_
    refine hnonempty message ?_ (hrest message hmessage)
    rw [hpassed]
    exact List.mem_append_right _ hmessage
  rw [hpassed, hnone, List.append_nil]

theorem carried_pass (hstart : ∀ message, sender.rest (some (sender.start message)) = message)
    (hcarried : Carried sender direction) {message : List α}
    (hstep : step sender receives capacity direction (.pass message) = some after) :
    Carried sender after := by
  obtain ⟨hdone, rfl⟩ := step_pass hstep
  have hlost := hcarried.nothing_lost
  rw [hdone, List.append_nil] at hlost
  refine ⟨hcarried.taken_in_order.trans (List.prefix_append _ _), ?_⟩
  dsimp only
  rw [List.flatten_append, hlost, hstart, List.flatten_singleton]

theorem carried_send_iff (hcarried : Carried sender direction) {count : ℕ}
    (hstep : step sender receives capacity direction (.send count) = some after) :
    Carried sender after ↔ Whole sender direction (.send count) := by
  obtain ⟨state, hstate, -, -, rfl⟩ := step_send hstep
  have hlost := hcarried.nothing_lost
  have hkept : direction.passed.flatten = direction.taken.flatten ++
      (direction.inFlight ++ (sender.rest direction.sending).take count) ++
        (sender.rest direction.sending).drop count := by
    rw [hlost, List.append_assoc, List.append_assoc, List.append_assoc, List.take_append_drop]
  constructor
  · intro hafter state' hstate'
    obtain rfl : state = state' := Option.some.inj (hstate.symm.trans hstate')
    exact List.append_cancel_left (hafter.nothing_lost.symm.trans hkept)
  · intro hwhole
    refine ⟨hcarried.taken_in_order, ?_⟩
    dsimp only
    rw [hwhole state hstate]
    exact hkept

theorem carried_read_iff (hreceives : ∀ cells, cells.length ≤ capacity → receives cells = cells)
    (hcarried : Carried sender direction) {count : ℕ}
    (hstep : step sender receives capacity direction (.read count) = some after) :
    Carried sender after ↔ Whole sender direction (.read count) := by
  obtain ⟨hpositive, hcapacity, hcount, rfl⟩ := step_read hstep
  obtain ⟨rest, hpassed, hnext, hrest⟩ := hcarried.exists_rest
  have hlength : (direction.inFlight.take count).length = count := by
    rw [List.length_take, Nat.min_eq_left hcount]
  have hmessage : receives (direction.inFlight.take count) = direction.inFlight.take count :=
    hreceives _ (hlength.trans_le hcapacity)
  have htaken : direction.taken ++ [direction.inFlight.take count] <+: direction.passed ↔
      rest.head? = some (direction.inFlight.take count) := by
    rw [hpassed, List.prefix_append_right_inj, List.singleton_prefix_iff_head?_eq_some]
  have hlost : direction.passed.flatten =
      (direction.taken ++ [direction.inFlight.take count]).flatten ++
        direction.inFlight.drop count ++ sender.rest direction.sending := by
    rw [List.flatten_append, List.flatten_singleton, List.append_assoc direction.taken.flatten,
      List.take_append_drop]
    exact hcarried.nothing_lost
  rw [hmessage]
  constructor
  · intro hafter
    rw [Whole, hnext, htaken.mp hafter.taken_in_order, Option.map_some, hlength]
  · intro hwhole
    rw [Whole, hnext] at hwhole
    obtain ⟨message, hhead, hmessageLength⟩ := Option.map_eq_some_iff.mp hwhole
    obtain ⟨later, rfl⟩ := List.head?_eq_some_iff.mp hhead
    -- The cells in flight begin with those of the message, as many as were read.
    have hfirst : message = direction.inFlight.take count := by
      have htake := congrArg (List.take count) hrest
      rw [List.flatten_cons, List.take_append_of_le_length (Nat.le_of_eq hmessageLength.symm),
        List.take_of_length_le (Nat.le_of_eq hmessageLength),
        List.take_append_of_le_length hcount] at htake
      exact htake
    refine ⟨htaken.mpr ?_, hlost⟩
    rw [hhead, hfirst]

/-- An event keeps messages whole exactly when the stream splits nothing in it.

Assumes: the sender starts with its whole message, and the receiver takes up to `capacity` cells as
they are. -/
theorem carried_step_iff (hstart : ∀ message, sender.rest (some (sender.start message)) = message)
    (hreceives : ∀ cells, cells.length ≤ capacity → receives cells = cells)
    (event : Event α) (hcarried : Carried sender direction)
    (hstep : step sender receives capacity direction event = some after) :
    Carried sender after ↔ Whole sender direction event := by
  cases event with
  | pass message => exact iff_of_true (carried_pass hstart hcarried hstep) trivial
  | send count => exact carried_send_iff hcarried hstep
  | read count => exact carried_read_iff hreceives hcarried hstep

end Carried

end Direction

end Disguise.Process
