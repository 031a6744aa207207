import Disguise.Mailbox.Pipeline

/-!
# The mailbox and its two processes

The UE and the host of the virtual SIM over one shared-memory object, which outlives both. At most
one UE process and one host process are alive; each can be killed at any time and started again, and
a step of the system is one access of one of them, so that all orders of their accesses occur. A UE
process makes calls of `gen_auth_res_milenage_vsim` with arbitrary challenges, and keeps a trace of
what the present call has done. A host process runs its phases.

`CarefulStep` are the steps of the system in which no request is written into a mailbox that is not
at rest. The lemmas at the end lift runs of one process to runs of the system.
-/

set_option autoImplicit false
set_option relaxedAutoImplicit false

namespace Disguise.Mailbox

open Authentication Authentication.Ue Memory Milenage Process Process.Program Relation

/-! ### States -/

/-- A call of `gen_auth_res_milenage_vsim` under way: its challenge, what is left of its code, and
what it has done. -/
structure UeCall where
  rand : Block
  autnEnb : Block
  rest : MailboxProgram (AuthResult × Outputs × Usim)
  trace : List (Access Content)

/-- A UE process. -/
structure UeProcess where
  usim : Usim
  call : Option UeCall

/-- A host process, with what its enclave is given. -/
structure HostProcess where
  world : Enclave.World
  rest : MailboxProgram Phase

/-- The shared-memory object and the processes that are alive. -/
structure SystemState where
  memory : SharedData
  ue : Option UeProcess
  host : Option HostProcess

/-! ### Steps -/

section Steps

variable (srsran : Srsran) (aes : Block → Block → Block) (k : Block)

/-- A host process that has finished a phase goes on with the next one. -/
def resume (world : Enclave.World) : MailboxProgram Phase → MailboxProgram Phase
  | .done phase => phase.program aes k world
  | rest => rest

/-- A step of the system. -/
inductive SystemStep : SystemState → SystemState → Prop where
  /-- A UE process is started. -/
  | ueStarts (memory : SharedData) (host : Option HostProcess) (usim : Usim)
      (hfirst : usim.fpgaInitialized = false) :
      SystemStep ⟨memory, none, host⟩ ⟨memory, some ⟨usim, none⟩, host⟩
  /-- The UE process is called. -/
  | ueCalls (memory : SharedData) (host : Option HostProcess) (usim : Usim) (outputs : Outputs)
      (rand autnEnb : Block) :
      SystemStep ⟨memory, some ⟨usim, none⟩, host⟩
        ⟨memory, some ⟨usim, some ⟨rand, autnEnb,
          genAuthResMilenageVsim srsran usim outputs rand autnEnb, []⟩⟩, host⟩
  /-- The UE process makes an access. -/
  | ueAccesses (memory after : SharedData) (host : Option HostProcess) (usim : Usim)
      (call : UeCall) (access : Access Content)
      (rest : MailboxProgram (AuthResult × Outputs × Usim))
      (hstep : Step call.rest memory access rest after) :
      SystemStep ⟨memory, some ⟨usim, some call⟩, host⟩
        ⟨after, some ⟨usim, some { call with rest, trace := call.trace ++ [access] }⟩, host⟩
  /-- The call returns. -/
  | ueReturns (memory : SharedData) (host : Option HostProcess) (usim : Usim) (call : UeCall)
      (result : AuthResult × Outputs × Usim) (hdone : call.rest = .done result) :
      SystemStep ⟨memory, some ⟨usim, some call⟩, host⟩ ⟨memory, some ⟨result.2.2, none⟩, host⟩
  /-- The UE process ends. -/
  | ueEnds (memory : SharedData) (host : Option HostProcess) (ue : UeProcess) :
      SystemStep ⟨memory, some ue, host⟩ ⟨memory, none, host⟩
  /-- A host process is started. -/
  | hostStarts (memory : SharedData) (ue : Option UeProcess) (world : Enclave.World) :
      SystemStep ⟨memory, ue, none⟩ ⟨memory, ue, some ⟨world, resetFlags⟩⟩
  /-- The host process makes an access. -/
  | hostAccesses (memory after : SharedData) (ue : Option UeProcess) (host : HostProcess)
      (access : Access Content) (rest : MailboxProgram Phase)
      (hstep : Step host.rest memory access rest after) :
      SystemStep ⟨memory, ue, some host⟩
        ⟨after, ue, some { host with rest := resume aes k host.world rest }⟩
  /-- The host process ends. -/
  | hostEnds (memory : SharedData) (ue : Option UeProcess) (host : HostProcess) :
      SystemStep ⟨memory, ue, some host⟩ ⟨memory, ue, none⟩

/-! ### A mailbox at rest -/

/-- A host process has no request in hand: it resets the flags, it is about to poll, or it has
ended. -/
inductive Idle : MailboxProgram Phase → Prop where
  | reset : Idle resetFlags
  | resetResponse : Idle (.store .responseReady false (.store .authResponseReady false
      (.done .polling)))
  | resetAuthResponse : Idle (.store .authResponseReady false (.done .polling))
  | polling : Idle sendChallengeToVsim
  | exited : Idle (.done .exited)

/-- No command and no answer is announced, and no host process has a request in hand. -/
structure Resting (state : SystemState) : Prop where
  commandReady : state.memory .commandReady = false
  authResponseReady : state.memory .authResponseReady = false
  host : ∀ process, state.host = some process → Idle process.rest

/-- A step begins a call that uses the mailbox: the first one of a process that has mapped it. -/
def StartsExchange (before after : SystemState) : Prop :=
  ∃ process, before.ue = some process ∧ process.call = none ∧
    process.usim.fpgaInitialized = false ∧ process.usim.sharedData = .mapped ∧
    ∃ called, after.ue = some called ∧ called.call ≠ none

/-- A step that begins no call that uses the mailbox unless the mailbox is at rest. -/
def CarefulStep (before after : SystemState) : Prop :=
  SystemStep srsran aes k before after ∧ (StartsExchange before after → Resting before)

/-! ### Runs of one process in the system -/

variable {srsran aes k}

/-- Accesses of the UE process are careful. -/
theorem carefulStep_ueAccesses {memory after : SharedData} {host : Option HostProcess}
    {usim : Usim} {call : UeCall} {access : Access Content}
    {rest : MailboxProgram (AuthResult × Outputs × Usim)}
    (hstep : Step call.rest memory access rest after) :
    CarefulStep srsran aes k ⟨memory, some ⟨usim, some call⟩, host⟩
      ⟨after, some ⟨usim, some { call with rest, trace := call.trace ++ [access] }⟩, host⟩ := by
  refine ⟨.ueAccesses memory after host usim call access rest hstep, ?_⟩
  rintro ⟨process, hue, hcall, -⟩
  obtain rfl := Option.some_inj.mp hue
  cases hcall

/-- Steps that leave the UE process alone are careful. -/
theorem carefulStep_of_ue_eq {before after : SystemState}
    (hstep : SystemStep srsran aes k before after) (hue : after.ue = before.ue) :
    CarefulStep srsran aes k before after := by
  refine ⟨hstep, ?_⟩
  rintro ⟨process, hbefore, hcall, -, -, called, hafter, hcalled⟩
  rw [hue, hbefore] at hafter
  obtain rfl := Option.some_inj.mp hafter
  exact absurd hcall hcalled

/-- Steps of the code of a call are steps of the system. -/
theorem reaches_ue {usim : Usim} {rand autnEnb : Block} {host : Option HostProcess}
    {program rest : MailboxProgram (AuthResult × Outputs × Usim)} {memory after : SharedData}
    {trace : List (Access Content)} (hsteps : Steps program memory trace rest after)
    (earlier : List (Access Content)) :
    ReflTransGen (CarefulStep srsran aes k)
      ⟨memory, some ⟨usim, some ⟨rand, autnEnb, program, earlier⟩⟩, host⟩
      ⟨after, some ⟨usim, some ⟨rand, autnEnb, rest, earlier ++ trace⟩⟩, host⟩ := by
  induction hsteps generalizing earlier with
  | refl program memory => rw [List.append_nil]
  | @head _ _ _ _ _ _ access trace hstep _ ih =>
    have hrest := ih (earlier ++ [access])
    rw [List.append_assoc, List.singleton_append] at hrest
    exact .head (carefulStep_ueAccesses hstep) hrest

/-- Steps of a phase that is under way to the end of it are steps of the system to the beginning of
the next phase. -/
theorem reaches_host {ue : Option UeProcess} {world : Enclave.World}
    {program : MailboxProgram Phase} {phase : Phase} {memory after : SharedData}
    {trace : List (Access Content)} (hsteps : Steps program memory trace (.done phase) after)
    (hmore : trace ≠ []) :
    ReflTransGen (CarefulStep srsran aes k) ⟨memory, ue, some ⟨world, program⟩⟩
      ⟨after, ue, some ⟨world, phase.program aes k world⟩⟩ := by
  generalize hend : (Program.done phase : MailboxProgram Phase) = final at hsteps
  induction hsteps with
  | refl program memory => exact absurd rfl hmore
  | @head first second third before between after access trace hstep hrest ih =>
    have hfirst : CarefulStep srsran aes k ⟨before, ue, some ⟨world, first⟩⟩
        ⟨between, ue, some ⟨world, resume aes k world second⟩⟩ :=
      carefulStep_of_ue_eq (.hostAccesses before between ue ⟨world, first⟩ access second hstep) rfl
    subst hend
    cases hrest with
    | refl => exact .single hfirst
    | head hnext hlater =>
      refine .head hfirst ?_
      have hresume : resume aes k world second = second := by
        cases hnext <;> rfl
      rw [hresume]
      exact ih (List.cons_ne_nil _ _) rfl

end Steps

end Disguise.Mailbox
