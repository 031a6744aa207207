import Disguise.Process.Basic

/-!
# Two processes over a network

Two processes joined by two first-in first-out channels, one for each direction. A configuration
is the two remaining processes and the messages in flight, and `NetworkStep` lets either side move
whenever it can: a send appends to the channel, a wait takes the oldest message, an observation
changes nothing but the process.

Such a network is deterministic in the sense of Kahn: two different moves from one configuration
belong to different sides and commute (`networkStep_diamond`). A run that has reached a
configuration with no move left is therefore the only way the network can end, whatever the order
of the moves was (`reaches_of_final`).

`Performs` records what a process exchanges when the transport takes every message. Two processes
with dual exchanges can be run against each other to the end of both (`network_reaches_of_dual`).
-/

set_option autoImplicit false
set_option relaxedAutoImplicit false

namespace Disguise.Process

open Relation

/-- A message leaving or entering a process. -/
inductive Action (M : Type) where
  | sends (message : M)
  | receives (message : M)

/-- The same message seen from the other side. -/
def Action.dual {M : Type} : Action M → Action M
  | sends message => receives message
  | receives message => sends message

variable {M O O' ε ε' α α' β : Type}

namespace Proc

/-- A process exchanges the messages of a list, in order, over a transport that takes every message,
and becomes another process. -/
inductive Performs : Proc M O ε α → List (Action M) → Proc M O ε α → Prop
  | refl (process : Proc M O ε α) : Performs process [] process
  | send {message : M} {next : Bool → Proc M O ε α} {actions : List (Action M)}
      {final : Proc M O ε α} (rest : Performs (next true) actions final) :
      Performs (send message next) (.sends message :: actions) final
  | recv {message : M} {next : M → Proc M O ε α} {actions : List (Action M)}
      {final : Proc M O ε α} (rest : Performs (next message) actions final) :
      Performs (recv next) (.receives message :: actions) final
  | note {observation : O} {next : Proc M O ε α} {actions : List (Action M)}
      {final : Proc M O ε α} (rest : Performs next actions final) :
      Performs (note observation next) actions final

section Primitives

variable {actions : List (Action M)} {final : Proc M O ε β}

theorem performs_transmit {message : M} {continuation : Bool → Proc M O ε β}
    (rest : Performs (continuation true) actions final) :
    Performs (transmit message >>= continuation) (.sends message :: actions) final :=
  Performs.send rest

theorem performs_receive {message : M} {continuation : M → Proc M O ε β}
    (rest : Performs (continuation message) actions final) :
    Performs (receive >>= continuation) (.receives message :: actions) final :=
  Performs.recv rest

theorem performs_observe {observation : O} {continuation : Unit → Proc M O ε β}
    (rest : Performs (continuation ()) actions final) :
    Performs (observe observation >>= continuation) actions final :=
  Performs.note rest

theorem performs_require {condition : Prop} [Decidable condition] {error : ε}
    {continuation : Unit → Proc M O ε β} (hcondition : condition)
    (rest : Performs (continuation ()) actions final) :
    Performs (require condition error >>= continuation) actions final := by
  rw [require, if_pos hcondition]
  exact rest

end Primitives

/-- The exchanges of a sequence are those of its first part followed by those of the second. -/
theorem Performs.bind {process : Proc M O ε α} {actions later : List (Action M)} {result : α}
    {continuation : α → Proc M O ε β} {final : Proc M O ε β}
    (first : Performs process actions (done result))
    (second : Performs (continuation result) later final) :
    Performs (process >>= continuation) (actions ++ later) final := by
  generalize hend : (done result : Proc M O ε α) = last at first
  induction first with
  | refl process =>
    subst hend
    exact second
  | send rest ih => exact Performs.send (ih hend)
  | recv rest ih => exact Performs.recv (ih hend)
  | note rest ih => exact Performs.note (ih hend)

/-- Before its first exchange a process makes observations only; the exchange itself is a send or a
wait. -/
theorem performs_head {process final : Proc M O ε α} {action : Action M}
    {actions : List (Action M)}
    (hperforms : Performs process (action :: actions) final) :
    (∃ message next, action = .sends message ∧ Performs process [] (send message next) ∧
        Performs (next true) actions final) ∨
      ∃ message next, action = .receives message ∧ Performs process [] (recv next) ∧
        Performs (next message) actions final := by
  generalize hactions : action :: actions = all at hperforms
  induction hperforms with
  | refl process => simp at hactions
  | send rest ih =>
    obtain ⟨rfl, rfl⟩ := List.cons.inj hactions
    exact Or.inl ⟨_, _, rfl, Performs.refl _, rest⟩
  | recv rest ih =>
    obtain ⟨rfl, rfl⟩ := List.cons.inj hactions
    exact Or.inr ⟨_, _, rfl, Performs.refl _, rest⟩
  | note rest ih =>
    rcases ih hactions with ⟨message, next, haction, hquiet, hnext⟩ |
      ⟨message, next, haction, hquiet, hnext⟩
    · exact Or.inl ⟨message, next, haction, Performs.note hquiet, hnext⟩
    · exact Or.inr ⟨message, next, haction, Performs.note hquiet, hnext⟩

end Proc

open Proc

/-- A configuration of two processes and the messages in flight in each direction. -/
structure Network (M O O' ε ε' α α' : Type) where
  left : Proc M O ε α
  right : Proc M O' ε' α'
  toRight : List M
  toLeft : List M

/-- Two processes that have not exchanged anything yet. -/
def Network.start (left : Proc M O ε α) (right : Proc M O' ε' α') :
    Network M O O' ε ε' α α' :=
  ⟨left, right, [], []⟩

/-- One move of one side of a network. -/
inductive NetworkStep : Network M O O' ε ε' α α' → Network M O O' ε ε' α α' → Prop
  | leftSend (message : M) (next : Bool → Proc M O ε α) (right : Proc M O' ε' α')
      (toRight toLeft : List M) :
      NetworkStep ⟨send message next, right, toRight, toLeft⟩
        ⟨next true, right, toRight ++ [message], toLeft⟩
  | leftRecv (message : M) (next : M → Proc M O ε α) (right : Proc M O' ε' α')
      (toRight toLeft : List M) :
      NetworkStep ⟨recv next, right, toRight, message :: toLeft⟩
        ⟨next message, right, toRight, toLeft⟩
  | leftNote (observation : O) (next : Proc M O ε α) (right : Proc M O' ε' α')
      (toRight toLeft : List M) :
      NetworkStep ⟨note observation next, right, toRight, toLeft⟩ ⟨next, right, toRight, toLeft⟩
  | rightSend (message : M) (next : Bool → Proc M O' ε' α') (left : Proc M O ε α)
      (toRight toLeft : List M) :
      NetworkStep ⟨left, send message next, toRight, toLeft⟩
        ⟨left, next true, toRight, toLeft ++ [message]⟩
  | rightRecv (message : M) (next : M → Proc M O' ε' α') (left : Proc M O ε α)
      (toRight toLeft : List M) :
      NetworkStep ⟨left, recv next, message :: toRight, toLeft⟩
        ⟨left, next message, toRight, toLeft⟩
  | rightNote (observation : O') (next : Proc M O' ε' α') (left : Proc M O ε α)
      (toRight toLeft : List M) :
      NetworkStep ⟨left, note observation next, toRight, toLeft⟩ ⟨left, next, toRight, toLeft⟩

/-- The configurations a network can reach. -/
def Reaches (first last : Network M O O' ε ε' α α') : Prop := ReflTransGen NetworkStep first last

/-! ### Determinism -/

/-- Two moves from one configuration are the same move, or belong to different sides and commute. -/
theorem networkStep_diamond (first second third : Network M O O' ε ε' α α')
    (hsecond : NetworkStep first second) (hthird : NetworkStep first third) :
    second = third ∨ ∃ last, NetworkStep second last ∧ NetworkStep third last := by
  cases hsecond with
  | leftSend message next right toRight toLeft =>
    cases hthird with
    | leftSend => exact Or.inl rfl
    | rightSend => exact Or.inr ⟨_, .rightSend _ _ _ _ _, .leftSend _ _ _ _ _⟩
    | rightRecv => exact Or.inr ⟨_, .rightRecv _ _ _ _ _, .leftSend _ _ _ _ _⟩
    | rightNote => exact Or.inr ⟨_, .rightNote _ _ _ _ _, .leftSend _ _ _ _ _⟩
  | leftRecv message next right toRight toLeft =>
    cases hthird with
    | leftRecv => exact Or.inl rfl
    | rightSend => exact Or.inr ⟨_, .rightSend _ _ _ _ _, .leftRecv _ _ _ _ _⟩
    | rightRecv => exact Or.inr ⟨_, .rightRecv _ _ _ _ _, .leftRecv _ _ _ _ _⟩
    | rightNote => exact Or.inr ⟨_, .rightNote _ _ _ _ _, .leftRecv _ _ _ _ _⟩
  | leftNote observation next right toRight toLeft =>
    cases hthird with
    | leftNote => exact Or.inl rfl
    | rightSend => exact Or.inr ⟨_, .rightSend _ _ _ _ _, .leftNote _ _ _ _ _⟩
    | rightRecv => exact Or.inr ⟨_, .rightRecv _ _ _ _ _, .leftNote _ _ _ _ _⟩
    | rightNote => exact Or.inr ⟨_, .rightNote _ _ _ _ _, .leftNote _ _ _ _ _⟩
  | rightSend message next left toRight toLeft =>
    cases hthird with
    | rightSend => exact Or.inl rfl
    | leftSend => exact Or.inr ⟨_, .leftSend _ _ _ _ _, .rightSend _ _ _ _ _⟩
    | leftRecv => exact Or.inr ⟨_, .leftRecv _ _ _ _ _, .rightSend _ _ _ _ _⟩
    | leftNote => exact Or.inr ⟨_, .leftNote _ _ _ _ _, .rightSend _ _ _ _ _⟩
  | rightRecv message next left toRight toLeft =>
    cases hthird with
    | rightRecv => exact Or.inl rfl
    | leftSend => exact Or.inr ⟨_, .leftSend _ _ _ _ _, .rightRecv _ _ _ _ _⟩
    | leftRecv => exact Or.inr ⟨_, .leftRecv _ _ _ _ _, .rightRecv _ _ _ _ _⟩
    | leftNote => exact Or.inr ⟨_, .leftNote _ _ _ _ _, .rightRecv _ _ _ _ _⟩
  | rightNote observation next left toRight toLeft =>
    cases hthird with
    | rightNote => exact Or.inl rfl
    | leftSend => exact Or.inr ⟨_, .leftSend _ _ _ _ _, .rightNote _ _ _ _ _⟩
    | leftRecv => exact Or.inr ⟨_, .leftRecv _ _ _ _ _, .rightNote _ _ _ _ _⟩
    | leftNote => exact Or.inr ⟨_, .leftNote _ _ _ _ _, .rightNote _ _ _ _ _⟩

/-- Two processes that have returned have no move left. -/
theorem not_networkStep_of_done {result : α} {result' : α'} {toRight toLeft : List M}
    {next : Network M O O' ε ε' α α'} :
    ¬ NetworkStep ⟨done result, done result', toRight, toLeft⟩ next := by
  intro hstep
  cases hstep

/-- When a network can end in a configuration with no move left, every run of it can be continued
to that configuration, so it is the only one in which the network ends. -/
theorem reaches_of_final {first last middle : Network M O O' ε ε' α α'}
    (hlast : Reaches first last) (hfinal : ∀ next, ¬ NetworkStep last next)
    (hmiddle : Reaches first middle) : Reaches middle last := by
  have hdiamond : ∀ a b c : Network M O O' ε ε' α α', NetworkStep a b → NetworkStep a c →
      ∃ d, ReflGen NetworkStep b d ∧ ReflTransGen NetworkStep c d := by
    intro a b c hb hc
    rcases networkStep_diamond a b c hb hc with rfl | ⟨d, hbd, hcd⟩
    · exact ⟨b, ReflGen.refl, ReflTransGen.refl⟩
    · exact ⟨d, ReflGen.single hbd, ReflTransGen.single hcd⟩
  obtain ⟨join, hlastJoin, hmiddleJoin⟩ := church_rosser hdiamond hlast hmiddle
  rcases hlastJoin.cases_head with rfl | ⟨next, hstep, -⟩
  · exact hmiddleJoin
  · exact absurd hstep (hfinal next)

/-! ### Running two processes against each other -/

/-- A process that exchanges nothing on its way to another process makes observations only, and its
side of the network can make them without moving anything else. -/
theorem reaches_right_quiet {right quiet : Proc M O' ε' α'} (hright : Performs right [] quiet)
    (left : Proc M O ε α) (toRight toLeft : List M) :
    Reaches ⟨left, right, toRight, toLeft⟩ ⟨left, quiet, toRight, toLeft⟩ := by
  generalize hactions : ([] : List (Action M)) = actions at hright
  induction hright with
  | refl process => exact ReflTransGen.refl
  | send rest ih => simp at hactions
  | recv rest ih => simp at hactions
  | note rest ih => exact ReflTransGen.head (.rightNote _ _ _ _ _) (ih hactions)

/-- Two processes with dual exchanges can be run against each other from empty channels to the end
of both exchanges, which leaves the channels empty. -/
theorem network_reaches_of_dual {left leftFinal : Proc M O ε α} {actions : List (Action M)}
    (hleft : Performs left actions leftFinal) :
    ∀ {right rightFinal : Proc M O' ε' α'},
      Performs right (actions.map Action.dual) rightFinal →
        Reaches (Network.start left right) (Network.start leftFinal rightFinal) := by
  induction hleft with
  | refl process =>
    intro right rightFinal hright
    exact reaches_right_quiet hright process [] []
  | @send message next actions final rest ih =>
    intro right rightFinal hright
    rcases performs_head hright with ⟨_, _, hdual, _, _⟩ | ⟨received, waiting, hdual, hquiet, hnext⟩
    · simp [Action.dual] at hdual
    · injection hdual with hmessage
      subst hmessage
      exact (ReflTransGen.single (.leftSend message next right [] [])).trans
        ((reaches_right_quiet hquiet (next true) [message] []).trans
          (ReflTransGen.head (.rightRecv message waiting (next true) [] []) (ih hnext)))
  | @recv message next actions final rest ih =>
    intro right rightFinal hright
    rcases performs_head hright with ⟨sent, sending, hdual, hquiet, hnext⟩ | ⟨_, _, hdual, _, _⟩
    · injection hdual with hmessage
      subst hmessage
      exact (reaches_right_quiet hquiet (recv next) [] []).trans
        (ReflTransGen.head (.rightSend message sending (recv next) [] [])
          (ReflTransGen.head (.leftRecv message next (sending true) [] []) (ih hnext)))
    · simp [Action.dual] at hdual
  | @note observation next actions final rest ih =>
    intro right rightFinal hright
    exact ReflTransGen.head (.leftNote observation next right [] []) (ih hright)

end Disguise.Process
