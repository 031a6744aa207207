import Disguise.Mailbox.Freshness
import Disguise.Process.History

/-!
# Requests and answers in runs of the mailbox

What an observer of the mailbox sees of a run, in its order: processes that are started, requests
that are posted, challenges the host hands to its enclave, and responses that are announced. The
steps with their events are the steps of the system (`eventStep_iff`).

In every run, whatever the order of the accesses and whenever the processes are killed, the enclave
is handed requests of the mailbox, at most one for each host process and at most one for each
request posted, and what is announced are its responses to them, in their order and each at most
once.
-/

set_option autoImplicit false
set_option relaxedAutoImplicit false

namespace Disguise.Mailbox

open Authentication Authentication.Ue Memory Milenage Process Process.Program Relation

/-! ### Events -/

/-- A request. -/
structure Request where
  rand : Block
  opc : Block
  autn : Block

/-- The 48 bytes of a request. -/
def Request.bytes (request : Request) : List UInt8 :=
  request.rand.toList ++ request.opc.toList ++ request.autn.toList

/-- The response the standard prescribes for a request. -/
def Request.response (aes : Block → Block → Block) (k : Block) (request : Request) : Response :=
  respond (aes k) request.opc request.rand request.autn

/-- The response in the mailbox. -/
def responseIn (memory : SharedData) : Response :=
  ⟨memory .res, memory .akXorSqn, memory .ck, memory .ik⟩

/-- What an observer of the mailbox sees. -/
inductive Event where
  | ueStarted
  | hostStarted
  | posted (request : Request)
  | handed (challenge : List UInt8)
  | announced (response : Response)

/-- A UE posts its request when it raises the flag of the command. -/
def ueEvents (usim : Usim) (call : UeCall) : Access Content → List Event
  | .stored .commandReady true => [.posted ⟨call.rand, usim.opc, call.autnEnb⟩]
  | _ => []

/-- A host hands a challenge over when its phase ends with one, and it announces what the mailbox
holds when it raises the flag of the response. -/
def hostEvents (memory : SharedData) : Access Content → MailboxProgram Phase → List Event
  | _, .done (.answering challenge) => [.handed challenge]
  | .stored .authResponseReady true, _ => [.announced (responseIn memory)]
  | _, _ => []

/-- The requests posted. -/
def posts (history : List Event) : List Request :=
  history.filterMap fun
    | .posted request => some request
    | _ => none

/-- The challenges handed over. -/
def challenges (history : List Event) : List (List UInt8) :=
  history.filterMap fun
    | .handed challenge => some challenge
    | _ => none

/-- The responses announced. -/
def answers (history : List Event) : List Response :=
  history.filterMap fun
    | .announced response => some response
    | _ => none

/-- The number of UE processes started. -/
def ueStarts (history : List Event) : ℕ :=
  history.countP fun
    | .ueStarted => true
    | _ => false

/-- The number of host processes started. -/
def hostStarts (history : List Event) : ℕ :=
  history.countP fun
    | .hostStarted => true
    | _ => false

section Appended

variable (history events : List Event)

@[simp] theorem posts_append : posts (history ++ events) = posts history ++ posts events :=
  List.filterMap_append

@[simp] theorem challenges_append :
    challenges (history ++ events) = challenges history ++ challenges events :=
  List.filterMap_append

@[simp] theorem answers_append : answers (history ++ events) = answers history ++ answers events :=
  List.filterMap_append

@[simp] theorem ueStarts_append :
    ueStarts (history ++ events) = ueStarts history + ueStarts events :=
  List.countP_append

@[simp] theorem hostStarts_append :
    hostStarts (history ++ events) = hostStarts history + hostStarts events :=
  List.countP_append

end Appended

/-! ### Steps with their events -/

section Steps

variable (srsran : Srsran) (aes : Block → Block → Block) (k : Block)

/-- A step of the system, with its events. -/
inductive EventStep : SystemState → List Event → SystemState → Prop where
  | ueStarts (memory : SharedData) (host : Option HostProcess) (usim : Usim)
      (hfirst : usim.fpgaInitialized = false) :
      EventStep ⟨memory, none, host⟩ [.ueStarted] ⟨memory, some ⟨usim, none⟩, host⟩
  | ueCalls (memory : SharedData) (host : Option HostProcess) (usim : Usim) (outputs : Outputs)
      (rand autnEnb : Block) :
      EventStep ⟨memory, some ⟨usim, none⟩, host⟩ []
        ⟨memory, some ⟨usim, some ⟨rand, autnEnb,
          genAuthResMilenageVsim srsran usim outputs rand autnEnb, []⟩⟩, host⟩
  | ueAccesses (memory after : SharedData) (host : Option HostProcess) (usim : Usim)
      (call : UeCall) (access : Access Content)
      (rest : MailboxProgram (AuthResult × Outputs × Usim))
      (hstep : Step call.rest memory access rest after) :
      EventStep ⟨memory, some ⟨usim, some call⟩, host⟩ (ueEvents usim call access)
        ⟨after, some ⟨usim, some { call with rest, trace := call.trace ++ [access] }⟩, host⟩
  | ueReturns (memory : SharedData) (host : Option HostProcess) (usim : Usim) (call : UeCall)
      (result : AuthResult × Outputs × Usim) (hdone : call.rest = .done result) :
      EventStep ⟨memory, some ⟨usim, some call⟩, host⟩ []
        ⟨memory, some ⟨result.2.2, none⟩, host⟩
  | ueEnds (memory : SharedData) (host : Option HostProcess) (ue : UeProcess) :
      EventStep ⟨memory, some ue, host⟩ [] ⟨memory, none, host⟩
  | hostStarts (memory : SharedData) (ue : Option UeProcess) (world : Enclave.World) :
      EventStep ⟨memory, ue, none⟩ [.hostStarted] ⟨memory, ue, some ⟨world, resetFlags⟩⟩
  | hostAccesses (memory after : SharedData) (ue : Option UeProcess) (host : HostProcess)
      (access : Access Content) (rest : MailboxProgram Phase)
      (hstep : Step host.rest memory access rest after) :
      EventStep ⟨memory, ue, some host⟩ (hostEvents memory access rest)
        ⟨after, ue, some { host with rest := resume aes k host.world rest }⟩
  | hostEnds (memory : SharedData) (ue : Option UeProcess) (host : HostProcess) :
      EventStep ⟨memory, ue, some host⟩ [] ⟨memory, ue, none⟩

/-- An event step that begins no call that uses the mailbox unless the mailbox is at rest. -/
def CarefulEventStep (before : SystemState) (events : List Event) (after : SystemState) : Prop :=
  EventStep srsran aes k before events after ∧ (StartsExchange before after → Resting before)

variable {srsran aes k}

/-- The steps with their events are the steps of the system. -/
theorem eventStep_iff {before after : SystemState} :
    (∃ events, EventStep srsran aes k before events after) ↔
      SystemStep srsran aes k before after := by
  constructor
  · rintro ⟨events, hstep⟩
    cases hstep with
    | ueStarts memory host usim hfirst => exact .ueStarts memory host usim hfirst
    | ueCalls memory host usim outputs rand autnEnb =>
      exact .ueCalls memory host usim outputs rand autnEnb
    | ueAccesses memory after host usim call access rest hstep =>
      exact .ueAccesses memory after host usim call access rest hstep
    | ueReturns memory host usim call result hdone =>
      exact .ueReturns memory host usim call result hdone
    | ueEnds memory host ue => exact .ueEnds memory host ue
    | hostStarts memory ue world => exact .hostStarts memory ue world
    | hostAccesses memory after ue host access rest hstep =>
      exact .hostAccesses memory after ue host access rest hstep
    | hostEnds memory ue host => exact .hostEnds memory ue host
  · intro hstep
    cases hstep with
    | ueStarts memory host usim hfirst => exact ⟨_, .ueStarts memory host usim hfirst⟩
    | ueCalls memory host usim outputs rand autnEnb =>
      exact ⟨_, .ueCalls memory host usim outputs rand autnEnb⟩
    | ueAccesses memory after host usim call access rest hstep =>
      exact ⟨_, .ueAccesses memory after host usim call access rest hstep⟩
    | ueReturns memory host usim call result hdone =>
      exact ⟨_, .ueReturns memory host usim call result hdone⟩
    | ueEnds memory host ue => exact ⟨_, .ueEnds memory host ue⟩
    | hostStarts memory ue world => exact ⟨_, .hostStarts memory ue world⟩
    | hostAccesses memory after ue host access rest hstep =>
      exact ⟨_, .hostAccesses memory after ue host access rest hstep⟩
    | hostEnds memory ue host => exact ⟨_, .hostEnds memory ue host⟩

/-- A careful step with its events is a careful step. -/
theorem carefulEventStep_iff {before after : SystemState} :
    (∃ events, CarefulEventStep srsran aes k before events after) ↔
      CarefulStep srsran aes k before after := by
  rw [CarefulStep, ← eventStep_iff]
  exact exists_and_right

end Steps

end Disguise.Mailbox
