import Disguise.Process.Network
import Mathlib.Data.List.Chain
import Mathlib.Data.List.Forall2
import Mathlib.Order.GameAdd

/-!
# Conversations that follow a script

A script says in which order two sides speak, and what each may say at its turns. A process follows
a script on one side if it speaks at the turns of its side, waits at the turns of the other one, and
returns a result only at the end; it may stop with an error anywhere, and what it hears does not
matter (`Follows`).

Two processes that follow one script on its two sides are a network in which never both sides have
messages on their way (`Coherent`), and in which a move is left until a side has stopped
(`Coherent.live`). No network moves forever (`networkStep_wf`), so each run of theirs can be
continued to an end, where a side has stopped (`Coherent.ends`).
-/

set_option autoImplicit false
set_option relaxedAutoImplicit false

namespace Disguise.Process

open Proc Relation

variable {M O O' ε ε' α α' β : Type}

/-- The two sides of a network. -/
inductive Side where
  | left
  | right
  deriving DecidableEq

/-- A turn of a conversation: who speaks, and what may be said. -/
structure Turn (M : Type) where
  speaker : Side
  allowed : M → Prop

/-! ### One side -/

/-- A process follows a script on one side, whatever it hears and whether its messages are taken or
not. -/
inductive Follows (side : Side) : List (Turn M) → Proc M O ε α → Prop
  | done (result : α) : Follows side [] (done result)
  | fail (script : List (Turn M)) (error : ε) : Follows side script (fail error)
  | send {turn : Turn M} {script : List (Turn M)} {message : M} {next : Bool → Proc M O ε α}
      (hspeaker : turn.speaker = side) (hallowed : turn.allowed message)
      (hnext : ∀ taken, Follows side script (next taken)) :
      Follows side (turn :: script) (send message next)
  | recv {turn : Turn M} {script : List (Turn M)} {next : M → Proc M O ε α}
      (hspeaker : turn.speaker ≠ side) (hnext : ∀ message, Follows side script (next message)) :
      Follows side (turn :: script) (recv next)
  | note {script : List (Turn M)} {observation : O} {next : Proc M O ε α}
      (hnext : Follows side script next) : Follows side script (note observation next)

variable {side : Side} {turn : Turn M} {script : List (Turn M)}

section Primitives

theorem follows_transmit {message : M} {continuation : Bool → Proc M O ε β}
    (hspeaker : turn.speaker = side) (hallowed : turn.allowed message)
    (hnext : ∀ taken, Follows side script (continuation taken)) :
    Follows side (turn :: script) (transmit message >>= continuation) :=
  .send hspeaker hallowed hnext

theorem follows_receive {continuation : M → Proc M O ε β} (hspeaker : turn.speaker ≠ side)
    (hnext : ∀ message, Follows side script (continuation message)) :
    Follows side (turn :: script) (receive >>= continuation) :=
  .recv hspeaker hnext

theorem follows_observe {observation : O} {continuation : Unit → Proc M O ε β}
    (hnext : Follows side script (continuation ())) :
    Follows side script (observe observation >>= continuation) :=
  .note hnext

theorem follows_require {condition : Prop} [Decidable condition] {error : ε}
    {continuation : Unit → Proc M O ε β}
    (hnext : condition → Follows side script (continuation ())) :
    Follows side script (require condition error >>= continuation) := by
  rw [require]
  split_ifs with hcondition
  · exact hnext hcondition
  · exact .fail script error

theorem follows_orFail {value : Option α} {error : ε} {continuation : α → Proc M O ε β}
    (hnext : ∀ result, value = some result → Follows side script (continuation result)) :
    Follows side script (orFail value error >>= continuation) := by
  cases value with
  | none => exact .fail script error
  | some result => exact hnext result rfl

end Primitives

/-- A sequence follows the script of its first part and then that of its second part. -/
theorem Follows.bind {later : List (Turn M)} {process : Proc M O ε α}
    {continuation : α → Proc M O ε β} (hfirst : Follows side script process)
    (hsecond : ∀ result, Follows side later (continuation result)) :
    Follows side (script ++ later) (process >>= continuation) := by
  induction hfirst with
  | done result => exact hsecond result
  | fail script error => exact .fail _ error
  | send hspeaker hallowed _ ih => exact .send hspeaker hallowed ih
  | recv hspeaker _ ih => exact .recv hspeaker ih
  | note _ ih => exact .note ih

theorem Follows.of_note {observation : O} {next : Proc M O ε α}
    (hfollows : Follows side script (.note observation next)) : Follows side script next := by
  cases hfollows with
  | note hnext => exact hnext

/-! ### What is exchanged -/

/-- The messages a run hands over and waits for, in their order. -/
def conversation (environment : Environment M) : Proc M O ε α → (sends waits : ℕ) → List (Action M)
  | .done _, _, _ => []
  | .fail _, _, _ => []
  | .send message next, sends, waits =>
    .sends message ::
      conversation environment (next (environment.accepts sends)) (sends + 1) waits
  | .recv next, sends, waits =>
    .receives (environment.delivers waits) ::
      conversation environment (next (environment.delivers waits)) sends (waits + 1)
  | .note _ next, sends, waits => conversation environment next sends waits

/-- What a process exchanges at a turn. -/
def Turn.Exchanged (side : Side) (turn : Turn M) : Action M → Prop
  | .sends message => turn.speaker = side ∧ turn.allowed message
  | .receives _ => turn.speaker ≠ side

/-- Whatever surrounds a process that follows a script, the turns that it takes are the first ones
of the script, and all of them if it returns a result. -/
theorem Follows.conversation_eq {process : Proc M O ε α} (hfollows : Follows side script process)
    (environment : Environment M) (sends waits : ℕ) :
    ∃ taken rest, script = taken ++ rest ∧
      List.Forall₂ (Turn.Exchanged side) taken (conversation environment process sends waits) ∧
      ∀ result, Completes environment process sends waits result → rest = [] := by
  induction hfollows generalizing sends waits with
  | done result => exact ⟨[], [], rfl, .nil, fun _ _ ↦ rfl⟩
  | fail script error =>
    exact ⟨[], script, rfl, .nil, fun result hresult ↦
      absurd hresult (completes_fail environment sends waits result error)⟩
  | @send turn _ _ _ hspeaker hallowed _ ih =>
    obtain ⟨taken, rest, hscript, hexchanged, hresult⟩ :=
      ih (environment.accepts sends) (sends + 1) waits
    exact ⟨turn :: taken, rest, congrArg (turn :: ·) hscript,
      .cons ⟨hspeaker, hallowed⟩ hexchanged, hresult⟩
  | @recv turn _ _ hspeaker _ ih =>
    obtain ⟨taken, rest, hscript, hexchanged, hresult⟩ :=
      ih (environment.delivers waits) sends (waits + 1)
    exact ⟨turn :: taken, rest, congrArg (turn :: ·) hscript, .cons hspeaker hexchanged, hresult⟩
  | note _ ih => exact ih sends waits

/-! ### Both sides -/

/-- A side has returned or stopped with an error. -/
def Stopped : Proc M O ε α → Prop
  | .done _ | .fail _ => True
  | .send _ _ | .recv _ | .note _ _ => False

/-- One side is ahead of the other one by some turns of its own, whose messages are on their way,
and nothing is on its way to it. -/
structure Ahead (side other : Side) (ahead rest : List (Turn M)) (front : Proc M O ε α)
    (back : Proc M O' ε' α') (outgoing incoming : List M) : Prop where
  speaks : ∀ turn ∈ ahead, turn.speaker = side
  outgoing : List.Forall₂ Turn.allowed ahead outgoing
  incoming : incoming = []
  front : Follows side rest front
  back : Follows other (ahead ++ rest) back

section Ahead

variable {other : Side} {ahead rest : List (Turn M)} {front : Proc M O ε α}
  {back : Proc M O' ε' α'} {outgoing incoming : List M}

/-- With nothing on its way each side is as far as the other one. -/
theorem Ahead.swap (hahead : Ahead side other [] rest front back outgoing incoming) :
    Ahead other side [] rest back front incoming outgoing := by
  obtain ⟨-, houtgoing, rfl, hfront, hback⟩ := hahead
  cases houtgoing
  exact ⟨fun _ hturn ↦ absurd hturn List.not_mem_nil, .nil, rfl, hback, hfront⟩

/-- The side in front says something more. -/
theorem Ahead.say {message : M} {next : Bool → Proc M O ε α}
    (hahead : Ahead side other ahead rest (.send message next) back outgoing incoming) :
    ∃ turn later, rest = turn :: later ∧
      Ahead side other (ahead ++ [turn]) later (next true) back (outgoing ++ [message])
        incoming := by
  obtain ⟨hspeaks, houtgoing, hincoming, hfront, hback⟩ := hahead
  cases hfront with
  | @send turn later _ _ hspeaker hallowed hnext =>
    refine ⟨turn, later, rfl, ?_, ?_, hincoming, hnext true, ?_⟩
    · intro said hsaid
      rcases List.mem_append.mp hsaid with hold | hnew
      · exact hspeaks said hold
      · rw [List.mem_singleton.mp hnew]
        exact hspeaker
    · exact List.rel_append houtgoing (.cons hallowed .nil)
    · rw [List.append_assoc]
      exact hback

/-- The side behind hears the oldest message that is on its way. -/
theorem Ahead.hear {message : M} {next : M → Proc M O' ε' α'}
    (hahead : Ahead side other ahead rest front (.recv next) (message :: outgoing) incoming) :
    ∃ turn later, ahead = turn :: later ∧
      Ahead side other later rest front (next message) outgoing incoming := by
  obtain ⟨hspeaks, houtgoing, hincoming, hfront, hback⟩ := hahead
  cases houtgoing with
  | @cons turn _ later _ _ houtgoing =>
    cases hback with
    | recv _ hnext =>
      exact ⟨turn, later, rfl, fun said hsaid ↦ hspeaks said (List.mem_cons_of_mem turn hsaid),
        houtgoing, hincoming, hfront, hnext message⟩

/-- The side behind does not speak.

Assumes: the two sides are different ones. -/
theorem Ahead.eq_nil (hsides : side ≠ other) {message : M} {next : Bool → Proc M O' ε' α'}
    (hahead : Ahead side other ahead rest front (.send message next) outgoing incoming) :
    ahead = [] := by
  cases ahead with
  | nil => rfl
  | cons turn ahead =>
    cases hahead.back with
    | send hspeaker _ _ =>
      exact absurd ((hahead.speaks turn List.mem_cons_self).symm.trans hspeaker) hsides

theorem Ahead.frontNote {observation : O} {next : Proc M O ε α}
    (hahead : Ahead side other ahead rest (.note observation next) back outgoing incoming) :
    Ahead side other ahead rest next back outgoing incoming := by
  obtain ⟨hspeaks, houtgoing, hincoming, hfront, hback⟩ := hahead
  exact ⟨hspeaks, houtgoing, hincoming, hfront.of_note, hback⟩

theorem Ahead.backNote {observation : O'} {next : Proc M O' ε' α'}
    (hahead : Ahead side other ahead rest front (.note observation next) outgoing incoming) :
    Ahead side other ahead rest front next outgoing incoming := by
  obtain ⟨hspeaks, houtgoing, hincoming, hfront, hback⟩ := hahead
  exact ⟨hspeaks, houtgoing, hincoming, hfront, hback.of_note⟩

end Ahead

/-- Both sides are within one script, and one of them is ahead, or none. -/
def Coherent (script : List (Turn M)) (state : Network M O O' ε ε' α α') : Prop :=
  ∃ past ahead rest, script = past ++ (ahead ++ rest) ∧
    (Ahead .left .right ahead rest state.left state.right state.toRight state.toLeft ∨
      Ahead .right .left ahead rest state.right state.left state.toLeft state.toRight)

/-- A side that speaks is in front.

Assumes: the two sides are different ones. -/
theorem Ahead.of_say {side other : Side} (hsides : side ≠ other) {ahead rest : List (Turn M)}
    {message : M} {next : Bool → Proc M O ε α} {listener : Proc M O' ε' α'}
    {outgoing incoming : List M}
    (hahead : Ahead side other ahead rest (.send message next) listener outgoing incoming ∨
      Ahead other side ahead rest listener (.send message next) incoming outgoing) :
    Ahead side other ahead rest (.send message next) listener outgoing incoming := by
  rcases hahead with hfront | hback
  · exact hfront
  · obtain rfl := hback.eq_nil hsides.symm
    exact hback.swap

/-- A side that hears something is behind. -/
theorem Ahead.of_hear {side other : Side} {ahead rest : List (Turn M)} {message : M}
    {listener : Proc M O ε α} {speaker : Proc M O' ε' α'} {incoming outgoing : List M}
    (hahead : Ahead side other ahead rest listener speaker outgoing (message :: incoming) ∨
      Ahead other side ahead rest speaker listener (message :: incoming) outgoing) :
    Ahead other side ahead rest speaker listener (message :: incoming) outgoing := by
  rcases hahead with hfront | hback
  · exact absurd hfront.incoming (List.cons_ne_nil message incoming)
  · exact hback

/-- Every move keeps both sides within the script. -/
theorem Coherent.step {before after : Network M O O' ε ε' α α'}
    (hcoherent : Coherent script before) (hstep : NetworkStep before after) :
    Coherent script after := by
  have hleftRight : Side.left ≠ Side.right := Side.noConfusion
  obtain ⟨past, ahead, rest, rfl, hahead⟩ := hcoherent
  cases hstep with
  | leftSend message next right toRight toLeft =>
    obtain ⟨turn, later, rfl, hsaid⟩ := (Ahead.of_say hleftRight hahead).say
    refine ⟨past, ahead ++ [turn], later, ?_, Or.inl hsaid⟩
    rw [List.append_assoc, List.singleton_append]
  | rightSend message next left toRight toLeft =>
    obtain ⟨turn, later, rfl, hsaid⟩ := (Ahead.of_say hleftRight.symm hahead.symm).say
    refine ⟨past, ahead ++ [turn], later, ?_, Or.inr hsaid⟩
    rw [List.append_assoc, List.singleton_append]
  | leftRecv message next right toRight toLeft =>
    obtain ⟨turn, later, rfl, hheard⟩ := (Ahead.of_hear hahead).hear
    refine ⟨past ++ [turn], later, rest, ?_, Or.inr hheard⟩
    rw [List.append_assoc, List.singleton_append, List.cons_append]
  | rightRecv message next left toRight toLeft =>
    obtain ⟨turn, later, rfl, hheard⟩ := (Ahead.of_hear hahead.symm).hear
    refine ⟨past ++ [turn], later, rest, ?_, Or.inl hheard⟩
    rw [List.append_assoc, List.singleton_append, List.cons_append]
  | leftNote observation next right toRight toLeft =>
    exact ⟨past, ahead, rest, rfl, hahead.imp Ahead.frontNote Ahead.backNote⟩
  | rightNote observation next left toRight toLeft =>
    exact ⟨past, ahead, rest, rfl, hahead.imp Ahead.backNote Ahead.frontNote⟩

/-- So does every run. -/
theorem coherent_of_reaches {left : Proc M O ε α} {right : Proc M O' ε' α'}
    (hleft : Follows .left script left) (hright : Follows .right script right)
    {state : Network M O O' ε ε' α α'} (hreaches : Reaches (Network.start left right) state) :
    Coherent script state := by
  induction hreaches with
  | refl =>
    exact ⟨[], [], script, rfl, Or.inl ⟨fun _ hturn ↦ absurd hturn List.not_mem_nil, .nil, rfl,
      hleft, hright⟩⟩
  | tail _ hstep ih => exact ih.step hstep

/-! ### Progress -/

/-- When both sides wait, a message is on its way.

Assumes: there are no other sides than these two. -/
theorem Ahead.outgoing_ne_nil {other : Side} (hsides : ∀ speaker, speaker = side ∨ speaker = other)
    {ahead rest : List (Turn M)} {front : M → Proc M O ε α} {back : M → Proc M O' ε' α'}
    {outgoing incoming : List M}
    (hahead : Ahead side other ahead rest (.recv front) (.recv back) outgoing incoming) :
    outgoing ≠ [] := by
  rintro rfl
  obtain ⟨-, houtgoing, -, hfront, hback⟩ := hahead
  cases houtgoing
  cases hfront with
  | @recv turn _ _ hspeaker _ =>
    cases hback with
    | recv hspeaker' _ => exact (hsides turn.speaker).elim hspeaker hspeaker'

/-- A move is left until a side has stopped. -/
theorem Coherent.live {state : Network M O O' ε ε' α α'} (hcoherent : Coherent script state) :
    (∃ next, NetworkStep state next) ∨ Stopped state.left ∨ Stopped state.right := by
  obtain ⟨past, ahead, rest, -, hahead⟩ := hcoherent
  obtain ⟨left, right, toRight, toLeft⟩ := state
  cases left with
  | done result => exact Or.inr (Or.inl trivial)
  | fail error => exact Or.inr (Or.inl trivial)
  | send message next => exact Or.inl ⟨_, .leftSend message next right toRight toLeft⟩
  | note observation next => exact Or.inl ⟨_, .leftNote observation next right toRight toLeft⟩
  | recv next =>
    cases right with
    | done result => exact Or.inr (Or.inr trivial)
    | fail error => exact Or.inr (Or.inr trivial)
    | send message next' => exact Or.inl ⟨_, .rightSend message next' (.recv next) toRight toLeft⟩
    | note observation next' =>
      exact Or.inl ⟨_, .rightNote observation next' (.recv next) toRight toLeft⟩
    | recv next' =>
      rcases hahead with hleft | hright
      · have hsent : toRight ≠ [] :=
          hleft.outgoing_ne_nil fun speaker ↦ by cases speaker <;> decide
        obtain ⟨message, toRight, rfl⟩ := List.exists_cons_of_ne_nil hsent
        exact Or.inl ⟨_, .rightRecv message next' (.recv next) toRight toLeft⟩
      · have hsent : toLeft ≠ [] :=
          hright.outgoing_ne_nil fun speaker ↦ by cases speaker <;> decide
        obtain ⟨message, toLeft, rfl⟩ := List.exists_cons_of_ne_nil hsent
        exact Or.inl ⟨_, .leftRecv message next (.recv next') toRight toLeft⟩

/-- What a process goes on as after its first step. -/
inductive Continues : Proc M O ε α → Proc M O ε α → Prop
  | send (message : M) (next : Bool → Proc M O ε α) (taken : Bool) :
      Continues (next taken) (.send message next)
  | recv (next : M → Proc M O ε α) (message : M) : Continues (next message) (.recv next)
  | note (observation : O) (next : Proc M O ε α) : Continues next (.note observation next)

theorem continues_wf : WellFounded (Continues : Proc M O ε α → Proc M O ε α → Prop) := by
  refine ⟨fun process ↦ ?_⟩
  induction process with
  | done result =>
    refine ⟨_, fun later hlater ↦ ?_⟩
    cases hlater
  | fail error =>
    refine ⟨_, fun later hlater ↦ ?_⟩
    cases hlater
  | send message next ih =>
    refine ⟨_, fun later hlater ↦ ?_⟩
    cases hlater with
    | send _ _ taken => exact ih taken
  | recv next ih =>
    refine ⟨_, fun later hlater ↦ ?_⟩
    cases hlater with
    | recv _ message => exact ih message
  | note observation next ih =>
    refine ⟨_, fun later hlater ↦ ?_⟩
    cases hlater with
    | note => exact ih

/-- No network moves forever. -/
theorem networkStep_wf :
    WellFounded fun after before : Network M O O' ε ε' α α' ↦ NetworkStep before after := by
  refine Subrelation.wf ?_
    (InvImage.wf (fun state : Network M O O' ε ε' α α' ↦ (state.left, state.right))
      (continues_wf.prod_gameAdd continues_wf))
  intro after before hstep
  cases hstep with
  | leftSend message next => exact .fst (.send message next true)
  | leftRecv message next => exact .fst (.recv next message)
  | leftNote observation next => exact .fst (.note observation next)
  | rightSend message next => exact .snd (.send message next true)
  | rightRecv message next => exact .snd (.recv next message)
  | rightNote observation next => exact .snd (.note observation next)

/-- Every configuration of a network can be continued to one without a move. -/
theorem exists_final (state : Network M O O' ε ε' α α') :
    ∃ last, Reaches state last ∧ ∀ next, ¬ NetworkStep last next := by
  induction state using networkStep_wf.induction with
  | h state ih =>
    by_cases hmoves : ∃ next, NetworkStep state next
    · obtain ⟨next, hnext⟩ := hmoves
      obtain ⟨last, hlast, hfinal⟩ := ih next hnext
      exact ⟨last, hlast.head hnext, hfinal⟩
    · exact ⟨state, .refl, not_exists.mp hmoves⟩

/-- When two sides that follow one script have no move left, one of them has stopped. -/
theorem Coherent.stopped {state : Network M O O' ε ε' α α'} (hcoherent : Coherent script state)
    (hfinal : ∀ next, ¬ NetworkStep state next) : Stopped state.left ∨ Stopped state.right :=
  hcoherent.live.resolve_left (not_exists.mpr hfinal)

/-! ### Messages on their way -/

/-- Turns of one speaker in a script whose speakers alternate are at most one. -/
theorem length_le_one_of_speaks {past ahead rest : List (Turn M)}
    (halternate : (past ++ (ahead ++ rest)).IsChain fun turn turn' ↦ turn.speaker ≠ turn'.speaker)
    (hspeaks : ∀ turn ∈ ahead, turn.speaker = side) : ahead.length ≤ 1 := by
  by_contra hmore
  obtain ⟨first, second, later, rfl⟩ : ∃ first second later, ahead = first :: second :: later := by
    cases ahead with
    | nil => exact absurd (Nat.zero_le 1) hmore
    | cons first ahead =>
      obtain ⟨second, later, rfl⟩ := List.exists_cons_of_ne_nil fun hnil : ahead = [] ↦
        hmore (hnil ▸ le_rfl)
      exact ⟨first, second, later, rfl⟩
  have hdiffer := (List.isChain_append_cons_cons.mp halternate).2.1
  have hfirst := hspeaks first List.mem_cons_self
  have hsecond := hspeaks second (List.mem_cons_of_mem first List.mem_cons_self)
  exact hdiffer (hfirst.trans hsecond.symm)

/-- Every message on its way is one of a turn. -/
theorem exists_turn {ahead : List (Turn M)} {messages : List M}
    (hallowed : List.Forall₂ Turn.allowed ahead messages) :
    ∀ message ∈ messages, ∃ turn ∈ ahead, turn.allowed message := by
  induction hallowed with
  | nil => exact fun message hmessage ↦ absurd hmessage List.not_mem_nil
  | @cons turn message _ _ hfirst _ ih =>
    intro other hother
    rcases List.mem_cons.mp hother with rfl | hlater
    · exact ⟨turn, List.mem_cons_self, hfirst⟩
    · obtain ⟨found, hfound, hsaid⟩ := ih other hlater
      exact ⟨found, List.mem_cons_of_mem turn hfound, hsaid⟩

/-- At most one message is on its way, and it is one the script allows to its speaker.

Assumes: the speakers of the script alternate. -/
theorem Coherent.inFlight {state : Network M O O' ε ε' α α'} (hcoherent : Coherent script state)
    (halternate : script.IsChain fun turn turn' ↦ turn.speaker ≠ turn'.speaker) :
    state.toRight.length + state.toLeft.length ≤ 1 ∧
      (∀ message ∈ state.toRight, ∃ turn ∈ script, turn.speaker = .left ∧ turn.allowed message) ∧
      ∀ message ∈ state.toLeft, ∃ turn ∈ script, turn.speaker = .right ∧ turn.allowed message := by
  obtain ⟨past, ahead, rest, rfl, hahead⟩ := hcoherent
  have hmember (turn : Turn M) (hturn : turn ∈ ahead) : turn ∈ past ++ (ahead ++ rest) :=
    List.mem_append_right past (List.mem_append_left rest hturn)
  rcases hahead with hleft | hright
  · have hshort := length_le_one_of_speaks halternate hleft.speaks
    rw [hleft.outgoing.length_eq] at hshort
    refine ⟨?_, fun message hmessage ↦ ?_, fun message hmessage ↦ ?_⟩
    · rw [hleft.incoming]
      exact hshort
    · obtain ⟨turn, hturn, hallowed⟩ := exists_turn hleft.outgoing message hmessage
      exact ⟨turn, hmember turn hturn, hleft.speaks turn hturn, hallowed⟩
    · rw [hleft.incoming] at hmessage
      exact absurd hmessage List.not_mem_nil
  · have hshort := length_le_one_of_speaks halternate hright.speaks
    rw [hright.outgoing.length_eq] at hshort
    refine ⟨?_, fun message hmessage ↦ ?_, fun message hmessage ↦ ?_⟩
    · rw [hright.incoming, List.length_nil, Nat.zero_add]
      exact hshort
    · rw [hright.incoming] at hmessage
      exact absurd hmessage List.not_mem_nil
    · obtain ⟨turn, hturn, hallowed⟩ := exists_turn hright.outgoing message hmessage
      exact ⟨turn, hmember turn hturn, hright.speaks turn hturn, hallowed⟩

end Disguise.Process
