import Disguise.Mailbox.Objects

/-!
# Recovery of the mailbox

A UE that has lost its host cannot be helped while its process lives. If both processes are ended
and started again, the host first, the mailbox works: whatever the objects hold, whether or not one
of them has the name, and whatever the processes were doing, the first request of the new UE can be
answered by the new enclave (`restart_recovers`).
-/

set_option autoImplicit false
set_option relaxedAutoImplicit false

namespace Disguise.Mailbox

open Authentication Authentication.Ue Memory Milenage Process Process.Program Relation

section Runs

variable (srsran : Srsran) (aes : Block → Block → Block) (k : Block)

/-! ### Processes that share an object -/

/-- The object that has the name has some contents, and the processes map it. -/
def sharing (base : ObjectState) (object : ℕ) (memory : SharedData) (ue : Option UeProcess)
    (host : Option HostProcess) : ObjectState where
  named := some object
  contents := Function.update base.contents object memory
  created := base.created
  ue := ue.map fun process ↦ (process, some object)
  host := host.map fun process ↦ (process, object)

theorem sharing_contents (base : ObjectState) (object : ℕ) (memory : SharedData)
    (ue : Option UeProcess) (host : Option HostProcess) :
    (sharing base object memory ue host).contents object = memory :=
  Function.update_self ..

theorem sharing_ueAccess {base : ObjectState} {object : ℕ} {memory after : SharedData}
    {host : Option HostProcess} {usim : Usim} {call : UeCall} {access : Access Content}
    {rest : MailboxProgram (AuthResult × Outputs × Usim)}
    (hstep : Step call.rest memory access rest after) :
    ObjectStep srsran aes k (sharing base object memory (some ⟨usim, some call⟩) host)
      (sharing base object after
        (some ⟨usim, some { call with rest, trace := call.trace ++ [access] }⟩) host) := by
  rw [← sharing_contents base object memory (some ⟨usim, some call⟩) host] at hstep
  have haccess : ObjectStep srsran aes k
      (sharing base object memory (some ⟨usim, some call⟩) host) _ :=
    .ueAccesses _ usim call object after access rest rfl hstep
  simpa only [sharing, Function.update_idem, Option.map_some] using haccess

theorem sharing_hostAccess {base : ObjectState} {object : ℕ} {memory after : SharedData}
    {ue : Option UeProcess} {world : Enclave.World} {program rest : MailboxProgram Phase}
    {access : Access Content} (hstep : Step program memory access rest after) :
    ObjectStep srsran aes k (sharing base object memory ue (some ⟨world, program⟩))
      (sharing base object after ue (some ⟨world, resume aes k world rest⟩)) := by
  rw [← sharing_contents base object memory ue (some ⟨world, program⟩)] at hstep
  have haccess : ObjectStep srsran aes k
      (sharing base object memory ue (some ⟨world, program⟩)) _ :=
    .hostAccesses _ ⟨world, program⟩ object after access rest rfl hstep
  simpa only [sharing, Function.update_idem, Option.map_some] using haccess

/-- Steps of the code of a call. -/
theorem reaches_sharing_ue {base : ObjectState} {object : ℕ} {host : Option HostProcess}
    {usim : Usim} {rand autnEnb : Block}
    {program rest : MailboxProgram (AuthResult × Outputs × Usim)} {memory after : SharedData}
    {trace : List (Access Content)} (hsteps : Steps program memory trace rest after)
    (earlier : List (Access Content)) :
    ReflTransGen (ObjectStep srsran aes k)
      (sharing base object memory (some ⟨usim, some ⟨rand, autnEnb, program, earlier⟩⟩) host)
      (sharing base object after (some ⟨usim, some ⟨rand, autnEnb, rest, earlier ++ trace⟩⟩)
        host) :=
  hsteps.reaches (fun program memory earlier ↦ sharing base object memory
    (some ⟨usim, some ⟨rand, autnEnb, program, earlier⟩⟩) host)
    (fun _ _ _ _ _ _ hstep ↦ sharing_ueAccess srsran aes k hstep) earlier

/-- Steps of a phase of the host. -/
theorem reaches_sharing_host {base : ObjectState} {object : ℕ} {ue : Option UeProcess}
    {world : Enclave.World} {program rest : MailboxProgram Phase} {memory after : SharedData}
    {trace : List (Access Content)} (hsteps : Steps program memory trace rest after) :
    ReflTransGen (ObjectStep srsran aes k)
      (sharing base object memory ue (some ⟨world, resume aes k world program⟩))
      (sharing base object after ue (some ⟨world, resume aes k world rest⟩)) := by
  refine hsteps.reaches (fun program memory _ ↦
    sharing base object memory ue (some ⟨world, resume aes k world program⟩)) ?_ []
  intro program rest memory after access _ hstep
  have hresume : resume aes k world program = program := by
    cases hstep <;> rfl
  rw [hresume]
  exact sharing_hostAccess srsran aes k hstep

/-! ### Restarting both processes -/

/-- Whatever the processes were doing, a new host can be started on an object that has the name. -/
theorem reaches_host_started (state : ObjectState) (world : Enclave.World) :
    ∃ base object memory, ReflTransGen (ObjectStep srsran aes k) state
      (sharing base object memory none (some ⟨world, resetFlags⟩)) := by
  have hended : ReflTransGen (ObjectStep srsran aes k) state
      { state with ue := none, host := none } :=
    .head (.ueEnds state) (.single (.hostEnds _))
  cases hnamed : state.named with
  | none =>
    refine ⟨{ state with created := state.created + 1 }, state.created, newObject, hended.tail ?_⟩
    exact .hostCreates _ world rfl hnamed
  | some object =>
    refine ⟨state, object, state.contents object, hended.tail ?_⟩
    have hopens : ObjectStep srsran aes k { state with ue := none, host := none } _ :=
      .hostOpens _ object world rfl hnamed
    simpa only [sharing, Function.update_eq_self, hnamed, Option.map_none, Option.map_some] using
      hopens

/-- A new host resets the flags and polls, and a new UE maps its object and is called. -/
theorem reaches_called (state : ObjectState) {usim : Usim} (hfirst : usim.fpgaInitialized = false)
    (world : Enclave.World) (outputs : Outputs) (rand autnEnb : Block) :
    ∃ base object memory, ReflTransGen (ObjectStep srsran aes k) state
      (sharing base object memory
        (some ⟨Usim.mapping usim (some object), some ⟨rand, autnEnb, genAuthResMilenageVsim srsran
          (Usim.mapping usim (some object)) outputs rand autnEnb, []⟩⟩)
        (some ⟨world, sendChallengeToVsim⟩)) := by
  obtain ⟨base, object, memory, hstarted⟩ := reaches_host_started srsran aes k state world
  have hreset : ReflTransGen (ObjectStep srsran aes k)
      (sharing base object memory none (some ⟨world, resetFlags⟩))
      (sharing base object (run (alone fun _ ↦ true) resetFlags 0 memory).memory none
        (some ⟨world, sendChallengeToVsim⟩)) :=
    reaches_sharing_host srsran aes k (run_alone_steps (fun _ ↦ true) resetFlags 0 memory)
  have hmapped (reset : SharedData) (host : Option HostProcess) : ObjectStep srsran aes k
      (sharing base object reset none host)
      (sharing base object reset (some ⟨Usim.mapping usim (some object), none⟩) host) :=
    .ueStarts (sharing base object reset none host) usim rfl hfirst
  have hcalled (reset : SharedData) (host : Option HostProcess) : ObjectStep srsran aes k
      (sharing base object reset (some ⟨Usim.mapping usim (some object), none⟩) host)
      (sharing base object reset (some ⟨Usim.mapping usim (some object), some ⟨rand, autnEnb,
        genAuthResMilenageVsim srsran (Usim.mapping usim (some object)) outputs rand autnEnb,
        []⟩⟩) host) :=
    .ueCalls (sharing base object reset (some ⟨Usim.mapping usim (some object), none⟩) host) _ _
      outputs rand autnEnb rfl
  exact ⟨base, object, _, ((hstarted.trans hreset).tail (hmapped _ _)).tail (hcalled _ _)⟩

/-- A host that polls serves a request that is posted. -/
theorem reaches_sharing_served {base : ObjectState} {object : ℕ} {ue : Option UeProcess}
    {memory : SharedData} {rand opc autn : Block} (hposted : Posted memory rand opc autn)
    (world : Enclave.World) :
    ReflTransGen (ObjectStep srsran aes k)
      (sharing base object memory ue (some ⟨world, sendChallengeToVsim⟩))
      (sharing base object (hostTurn aes k world memory) ue (some ⟨world, .done .exited⟩)) := by
  have hpolled := run_alone_steps (fun _ ↦ true) sendChallengeToVsim 0 memory
  rw [poll_posted hposted] at hpolled
  have hanswered := run_alone_steps (fun _ ↦ true)
    (sendChallengeResponse (respond (aes k) opc rand autn)) 0
    (run (alone fun _ ↦ true) sendChallengeToVsim 0 memory).memory
  rw [hostTurn_eq aes k world hposted]
  refine (reaches_sharing_host srsran aes k hpolled).trans ?_
  show ReflTransGen _ (sharing base object _ ue (some ⟨world, answer aes k world _⟩)) _
  rw [answer_eq]
  exact reaches_sharing_host srsran aes k hanswered

/-- From every state, a new host and a new UE can be started so that the first request of the UE is
answered with the response of the enclave to this request. What the objects hold, which of them has
the name and what the processes were doing makes no difference. -/
theorem restart_recovers (state : ObjectState) {usim : Usim} (hfirst : usim.fpgaInitialized = false)
    (world : Enclave.World) (outputs : Outputs) (rand autnEnb : Block) :
    ∃ after object call, ReflTransGen (ObjectStep srsran aes k) state after ∧
      after.ue = some (⟨Usim.mapping usim (some object), some call⟩, some object) ∧
      call.rand = rand ∧ call.autnEnb = autnEnb ∧
      call.rest = .done (takenFrom (Usim.mapping usim (some object))
        (respond (aes k) usim.opc rand autnEnb)) := by
  obtain ⟨base, object, memory, hcalled⟩ :=
    reaches_called srsran aes k state hfirst world outputs rand autnEnb
  have hprogram : genAuthResMilenageVsim srsran (Usim.mapping usim (some object)) outputs rand
      autnEnb = exchange rand usim.opc autnEnb >>= fun response ↦
        .done (takenFrom (Usim.mapping usim (some object)) response) := by
    have hunused : (Usim.mapping usim (some object)).fpgaInitialized = false := hfirst
    have hmapped : (Usim.mapping usim (some object)).sharedData = .mapped := rfl
    rw [genAuthResMilenageVsim, if_pos hunused, if_neg (not_not.mpr hmapped)]
    rfl
  rw [hprogram] at hcalled
  have hposted := posted_requested memory rand usim.opc autnEnb
  obtain ⟨hholds, hraised⟩ := hostTurn_posted aes k world hposted
  have hrequested := hcalled.trans (reaches_sharing_ue srsran aes k
    ((steps_requested memory rand usim.opc autnEnb).bind _) [])
  have hserved := hrequested.trans (reaches_sharing_served srsran aes k hposted world)
  have hcopied := hserved.trans (reaches_sharing_ue srsran aes k ((steps_copied hraised).bind _) _)
  refine ⟨_, object, _, hcopied, rfl, rfl, rfl, ?_⟩
  have hresponse : (⟨_, _, _, _⟩ : Response) = respond (aes k) usim.opc rand autnEnb :=
    (Response.mk.injEq ..).mpr ⟨hholds.res, hholds.akXorSqn, hholds.ck, hholds.ik⟩
  rw [← hresponse]
  rfl

end Runs

/-- A UE whose host was ended by a signal, and whose object has lost its name, is replaced by one
that is answered. -/
theorem restart_recovers_stranded :
    ∃ (before after : ObjectState) (object : ℕ) (call : UeCall),
      before.ue ≠ none ∧ before.host = none ∧ before.named = none ∧
      ReflTransGen (ObjectStep (enclaveSrsran Aes.encrypt) Aes.encrypt Enclave.builtInKey) before
        after ∧
      call.rest = .done (takenFrom (Usim.mapping (freshUsim Enclave.builtInKey) (some object))
        (respond (Aes.encrypt Enclave.builtInKey) (freshUsim Enclave.builtInKey).opc zeroBlock
          zeroBlock)) := by
  obtain ⟨shared, process, host, -, hue, -⟩ :=
    shared_object_reached Aes.encrypt Enclave.builtInKey (enclaveSrsran Aes.encrypt)
  have hfirst : (freshUsim Enclave.builtInKey).fpgaInitialized = false := rfl
  obtain ⟨after, object, call, hrun, -, -, -, hrest⟩ :=
    restart_recovers (enclaveSrsran Aes.encrypt) Aes.encrypt Enclave.builtInKey
      { shared with host := none, named := none } hfirst ⟨0, 0, List.Vector.replicate 92 0⟩
      zeroCall.locals zeroBlock zeroBlock
  refine ⟨_, after, object, call, ?_, rfl, rfl, hrun, hrest⟩
  rw [hue]
  exact Option.some_ne_none _

end Disguise.Mailbox
