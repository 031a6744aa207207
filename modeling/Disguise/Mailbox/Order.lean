import Disguise.Mailbox.Served

/-!
# The order of what is served

In runs that write no request into a mailbox that is not at rest, the host takes requests whole, as
one UE posted them, and in the order in which they were posted, none of them twice. Between the
moment a request is posted and the moment it is taken, nobody writes into its cells (`Unread`).
-/

set_option autoImplicit false
set_option relaxedAutoImplicit false

namespace Disguise.Mailbox

open Authentication Authentication.Ue Memory Milenage Process Process.Program Relation

/-! ### Requests that wait to be taken -/

/-- The request was posted last, it is in the mailbox, and it has not been taken. -/
structure Unread (history : List Event) (memory : SharedData) (taken : List Request)
    (request : Request) : Prop where
  last : ∃ earlier, posts history = earlier ++ [request] ∧ taken.Sublist earlier
  randBytes : memory .randBytes = request.rand
  opcBytes : memory .opcBytes = request.opc
  autenbBytes : memory .autenbBytes = request.autn

/-- What a host process has in hand: nothing, a request that waits to be taken, or a response to one
it has taken. -/
inductive InHand (history : List Event) (memory : SharedData) (taken : List Request) :
    MailboxProgram Phase → Prop where
  | nothing {program : MailboxProgram Phase} (hidle : Idle program) :
      InHand history memory taken program
  | request {program : MailboxProgram Phase} (request : Request) (response : Response)
      (hcommand : memory .commandReady = true) (hunread : Unread history memory taken request)
      (hworking : Working request.rand request.opc request.autn memory response program) :
      InHand history memory taken program
  | response {program : MailboxProgram Phase} (response : Response)
      (hcommand : memory .commandReady = false) (hanswering : Answering memory response program) :
      InHand history memory taken program

/-- The requests are taken in their order, and a command that is announced belongs to a request that
waits to be taken, unless a host process is about to reset it. -/
structure Orderly (history : List Event) (memory : SharedData) (host : Option HostProcess)
    (taken : List Request) : Prop where
  challenges : challenges history = taken.map Request.bytes
  sublist : taken.Sublist (posts history)
  command : memory .commandReady = true → (∃ request, Unread history memory taken request) ∨
    ∀ process, host = some process → process.rest = resetFlags
  host : ∀ process, host = some process → InHand history memory taken process.rest

/-! ### Steps -/

section Steps

variable {aes : Block → Block → Block} {k : Block} {history later : List Event}
  {memory after : SharedData} {taken : List Request} {host : Option HostProcess}

theorem Unread.of_eq {request : Request} (hunread : Unread history memory taken request)
    (hposts : posts later = posts history) (hrand : after .randBytes = memory .randBytes)
    (hopc : after .opcBytes = memory .opcBytes)
    (hautn : after .autenbBytes = memory .autenbBytes) : Unread later after taken request where
  last := hposts ▸ hunread.last
  randBytes := hrand.trans hunread.randBytes
  opcBytes := hopc.trans hunread.opcBytes
  autenbBytes := hautn.trans hunread.autenbBytes

/-- The order does not depend on events that are no requests and no challenges. -/
theorem Orderly.of_eq (horderly : Orderly history memory host taken)
    (hchallenges : Mailbox.challenges later = Mailbox.challenges history)
    (hposts : posts later = posts history) : Orderly later memory host taken where
  challenges := hchallenges.trans horderly.challenges
  sublist := hposts ▸ horderly.sublist
  command := by
    intro hcommand
    refine (horderly.command hcommand).imp_left ?_
    rintro ⟨request, hunread⟩
    exact ⟨request, hunread.of_eq hposts rfl rfl rfl⟩
  host := by
    intro process hprocess
    cases horderly.host process hprocess with
    | nothing hidle => exact .nothing hidle
    | request request response hcommand hunread hworking =>
      exact .request request response hcommand (hunread.of_eq hposts rfl rfl rfl) hworking
    | response response hcommand hanswering => exact .response response hcommand hanswering

/-- An access of a host with nothing in hand. -/
theorem Orderly.idle_step {world : Enclave.World} {program rest : MailboxProgram Phase}
    {access : Access Content} (horderly : Orderly history memory (some ⟨world, program⟩) taken)
    (hidle : Idle program) (hstep : Step program memory access rest after) :
    Orderly (history ++ hostEvents memory access rest) after
      (some ⟨world, resume aes k world rest⟩) taken := by
  obtain ⟨hchallenges, hsublist, hcommand, -⟩ := horderly
  have hmove {next : MailboxProgram Phase} {changed : SharedData}
      (hannounced : changed .commandReady = true → ∃ request, Unread history changed taken request)
      (hnext : InHand history changed taken next) :
      Orderly (history ++ []) changed (some ⟨world, next⟩) taken := by
    rw [List.append_nil]
    refine ⟨hchallenges, hsublist, fun hraised ↦ Or.inl (hannounced hraised), ?_⟩
    rintro _ ⟨⟩
    exact hnext
  have hunread (hreset : program ≠ resetFlags) (hraised : memory .commandReady = true) :
      ∃ request, Unread history memory taken request :=
    (hcommand hraised).resolve_right fun hall ↦ hreset (hall _ rfl)
  cases hidle with
  | reset =>
    cases hstep
    exact hmove (fun hraised ↦ nomatch hraised) (.nothing .resetResponse)
  | resetResponse =>
    cases hstep
    refine hmove (fun hraised ↦ ?_) (.nothing .resetAuthResponse)
    obtain ⟨request, hwaits⟩ := hunread (fun hequal ↦ nomatch hequal) hraised
    exact ⟨request, hwaits.of_eq rfl rfl rfl rfl⟩
  | resetAuthResponse =>
    cases hstep
    refine hmove (fun hraised ↦ ?_) (.nothing .polling)
    obtain ⟨request, hwaits⟩ := hunread (fun hequal ↦ nomatch hequal) hraised
    exact ⟨request, hwaits.of_eq rfl rfl rfl rfl⟩
  | polling =>
    cases hstep
    have hpolls : sendChallengeToVsim ≠ resetFlags := fun hequal ↦ nomatch hequal
    cases hraised : memory .commandReady with
    | true =>
      obtain ⟨request, hwaits⟩ := hunread hpolls hraised
      exact hmove (fun _ ↦ ⟨request, hwaits⟩)
        (.request request (request.response aes k) hraised hwaits .switch)
    | false => exact hmove (hunread hpolls) (.nothing .polling)
  | exited => cases hstep

/-- An access of a host with a request in hand that waits to be taken. -/
theorem Orderly.request_step {world : Enclave.World} {program rest : MailboxProgram Phase}
    {access : Access Content} {request : Request} {response : Response}
    (horderly : Orderly history memory (some ⟨world, program⟩) taken)
    (hcommand : memory .commandReady = true) (hunread : Unread history memory taken request)
    (hworking : Working request.rand request.opc request.autn memory response program)
    (hstep : Step program memory access rest after) :
    ∃ taken', Orderly (history ++ hostEvents memory access rest) after
      (some ⟨world, resume aes k world rest⟩) taken' := by
  have hmove {next : MailboxProgram Phase} {changed : SharedData}
      (hwaits : Unread history changed taken request) (hnext : InHand history changed taken next) :
      ∃ taken', Orderly (history ++ []) changed (some ⟨world, next⟩) taken' := by
    rw [List.append_nil]
    refine ⟨taken, horderly.challenges, horderly.sublist, fun _ ↦ Or.inl ⟨request, hwaits⟩, ?_⟩
    rintro _ ⟨⟩
    exact hnext
  have hstill {next : MailboxProgram Phase}
      (hnext : Working request.rand request.opc request.autn memory response next) :=
    hmove hunread (.request request response hcommand hunread hnext)
  cases hworking with
  | switch =>
    cases hstep
    cases memory .commandType with
    | cmdAuthenticate => exact hstill .clear
    | cmdNone | cmdSwitch | cmdExit => exact hmove hunread (.nothing .polling)
  | clear =>
    cases hstep
    have hwaits : Unread history (Function.update memory .authResponseReady false) taken request :=
      hunread.of_eq rfl rfl rfl rfl
    exact hmove hwaits (.request request response hcommand hwaits .readRand)
  | readRand =>
    cases hstep
    rw [hunread.randBytes]
    exact hstill .readOpc
  | readOpc =>
    cases hstep
    rw [hunread.opcBytes]
    exact hstill .readAutn
  | readAutn =>
    cases hstep
    rw [hunread.autenbBytes]
    exact hstill .allocate
  | allocate =>
    cases hstep with
    | choose _ allocated _ =>
      cases allocated with
      | true => exact hstill .take
      | false => exact hmove hunread (.nothing .polling)
  | take =>
    cases hstep
    obtain ⟨⟨earlier, hposts, htaken⟩, -, -, -⟩ := hunread
    have hanswer : resume aes k world (.done (.answering request.bytes)) =
        sendChallengeResponse (request.response aes k) :=
      answer_eq aes k world request.rand request.opc request.autn
    refine ⟨taken ++ [request], ⟨?_, ?_, (nomatch ·), ?_⟩⟩
    · rw [challenges_append, horderly.challenges, List.map_append]
      rfl
    · rw [posts_append, hposts]
      exact (htaken.append (List.Sublist.refl _)).trans (List.sublist_append_left _ _)
    · rintro _ ⟨⟩
      show InHand _ _ _ (resume aes k world (.done (.answering request.bytes)))
      rw [hanswer]
      exact .response _ rfl .res
  | writeRes htaken | writeAkXorSqn htaken | writeCk htaken | writeIk htaken | raise htaken =>
    rw [hcommand] at htaken
    cases htaken

/-- An access of a host with a response in hand. -/
theorem Orderly.response_step {world : Enclave.World} {program rest : MailboxProgram Phase}
    {access : Access Content} {response : Response}
    (horderly : Orderly history memory (some ⟨world, program⟩) taken)
    (hcommand : memory .commandReady = false) (hanswering : Answering memory response program)
    (hstep : Step program memory access rest after) :
    Orderly (history ++ hostEvents memory access rest) after
      (some ⟨world, resume aes k world rest⟩) taken := by
  have hmove {next : MailboxProgram Phase} {events : List Event} {changed : SharedData}
      (hunset : changed .commandReady = false) (hchallenges : Mailbox.challenges events = [])
      (hposts : posts events = [])
      (hnext : InHand (history ++ events) changed taken next) :
      Orderly (history ++ events) changed (some ⟨world, next⟩) taken := by
    refine ⟨?_, ?_, fun hraised ↦ ?_, ?_⟩
    · rw [challenges_append, hchallenges, List.append_nil]
      exact horderly.challenges
    · rw [posts_append, hposts, List.append_nil]
      exact horderly.sublist
    · rw [hunset] at hraised
      cases hraised
    · rintro _ ⟨⟩
      exact hnext
  cases hanswering with
  | res =>
    cases hstep
    exact hmove hcommand rfl rfl (.response response hcommand (.akXorSqn rfl))
  | akXorSqn hres =>
    cases hstep
    exact hmove hcommand rfl rfl (.response response hcommand (.ck hres rfl))
  | ck hres hakXorSqn =>
    cases hstep
    exact hmove hcommand rfl rfl (.response response hcommand (.ik hres hakXorSqn rfl))
  | ik hres hakXorSqn hck =>
    cases hstep
    refine hmove hcommand rfl rfl (.response response hcommand (.raise ?_))
    show (⟨memory .res, memory .akXorSqn, memory .ck, response.ik⟩ : Response) = _
    rw [hres, hakXorSqn, hck]
  | raise hresponse =>
    cases hstep
    exact hmove hcommand rfl rfl (.nothing .exited)

/-- An access of the UE during a call that makes progress: it leaves everything alone, it writes a
part of its request into a quiet mailbox, or it posts the request that it has written. -/
theorem Progress.ueEvents {usim : Usim} {call : UeCall} {access : Access Content}
    {rest : MailboxProgram (AuthResult × Outputs × Usim)}
    (hprogress : Progress aes k call.rand usim.opc call.autnEnb memory host call.rest call.trace)
    (hstep : Step call.rest memory access rest after) :
    Mailbox.ueEvents usim call access = [] ∧ after = memory ∨
      (∀ process, host = some process → Idle process.rest) ∧
        (Mailbox.ueEvents usim call access = [] ∧ after .commandReady = false ∨
          Mailbox.ueEvents usim call access = [.posted ⟨call.rand, usim.opc, call.autnEnb⟩] ∧
            Pending aes k call.rand usim.opc call.autnEnb after host) := by
  have hloading {program next : MailboxProgram (AuthResult × Outputs × Usim)}
      {allowed : Member → Prop} (hloads : OnlyLoads allowed program)
      (haccess : Step program memory access next after) :
      Mailbox.ueEvents usim call access = [] ∧ after = memory := by
    cases haccess with
    | load cell next memory => exact ⟨rfl, rfl⟩
    | store cell value next memory => exact absurd hloads id
    | choose next answer memory => exact ⟨rfl, rfl⟩
  generalize call.rest = program at hprogress hstep
  generalize call.trace = trace at hprogress
  cases hprogress with
  | writing finish hwriting hquiet hunanswered =>
    refine Or.inr ⟨hquiet.host, ?_⟩
    rcases step_bind hstep with ⟨result, rfl⟩ | ⟨next, hnext, rfl⟩
    · nomatch hwriting
    obtain ⟨-, ⟨hgoing, hstill⟩ | ⟨rfl, hpending⟩⟩ := hwriting.step aes k hquiet hnext
    · obtain ⟨-, ⟨hevents, -⟩ | ⟨-, rfl⟩⟩ := hwriting.asking.step hnext
      · exact Or.inl ⟨hevents, hstill.commandReady⟩
      · nomatch hgoing
    · obtain ⟨-, ⟨-, -, hasking⟩ | ⟨hevents, -⟩⟩ := hwriting.asking.step hnext
      · nomatch hasking
      · exact Or.inr ⟨hevents, hpending⟩
  | waiting finish remaining hposted hunanswered =>
    rcases step_bind hstep with ⟨result, hdone⟩ | ⟨next, hnext, rfl⟩
    · cases remaining <;> cases hdone
    · obtain ⟨rfl, -, -⟩ := (awaitResponse_onlyLoads remaining).step hnext
      exact Or.inl ⟨ueEvents_of_onlyLoads (awaitResponse_onlyLoads remaining) hnext, rfl⟩
  | answered hanswered hloads hcopied => exact Or.inl (hloading hloads hstep)
  | unannounced hloads hnone => exact Or.inl (hloading hloads hstep)

/-- An access of the UE keeps the order. -/
theorem Orderly.ueAccess {usim : Usim} {call : UeCall} {access : Access Content}
    {rest : MailboxProgram (AuthResult × Outputs × Usim)}
    (horderly : Orderly history memory host taken)
    (hprogress : Progress aes k call.rand usim.opc call.autnEnb memory host call.rest call.trace)
    (hstep : Step call.rest memory access rest after) :
    Orderly (history ++ ueEvents usim call access) after host taken := by
  have hnothing {next : List Event} {changed : SharedData}
      (hidle : ∀ process, host = some process → Idle process.rest) :
      ∀ process, host = some process → InHand next changed taken process.rest :=
    fun process hprocess ↦ .nothing (hidle process hprocess)
  rcases hprogress.ueEvents hstep with
    ⟨hevents, rfl⟩ | ⟨hidle, ⟨hevents, hunset⟩ | ⟨hevents, hposted⟩⟩
  · rw [hevents, List.append_nil]
    exact horderly
  · rw [hevents, List.append_nil]
    refine ⟨horderly.challenges, horderly.sublist, fun hraised ↦ ?_, hnothing hidle⟩
    rw [hunset] at hraised
    cases hraised
  · have hposts : posts (history ++ ueEvents usim call access) =
        posts history ++ [⟨call.rand, usim.opc, call.autnEnb⟩] := by
      rw [hevents, posts_append]
      rfl
    refine ⟨?_, ?_, fun _ ↦ Or.inl ⟨⟨call.rand, usim.opc, call.autnEnb⟩, ?_⟩, hnothing hidle⟩
    · rw [hevents, challenges_append]
      exact (List.append_nil _).trans horderly.challenges
    · rw [hposts]
      exact horderly.sublist.trans (List.sublist_append_left _ _)
    · exact ⟨⟨posts history, hposts, horderly.sublist⟩, hposted.randBytes, hposted.opcBytes,
        hposted.autenbBytes⟩

end Steps

/-! ### Careful runs -/

section Runs

variable {srsran : Srsran} {aes : Block → Block → Block} {k : Block}

/-- A careful step keeps the order. -/
theorem Orderly.step {history events : List Event} {before after : SystemState}
    {taken : List Request} (horderly : Orderly history before.memory before.host taken)
    (hprogress : Progressing aes k before) (hstep : EventStep srsran aes k before events after) :
    ∃ taken', Orderly (history ++ events) after.memory after.host taken' := by
  cases hstep with
  | ueStarts memory host usim hfirst =>
    refine ⟨taken, horderly.of_eq ?_ ?_⟩
    · exact (challenges_append _ _).trans (List.append_nil _)
    · exact (posts_append _ _).trans (List.append_nil _)
  | ueCalls memory host usim outputs rand autnEnb =>
    rw [List.append_nil]
    exact ⟨taken, horderly⟩
  | ueAccesses memory changed host usim call access rest hstep =>
    exact ⟨taken, horderly.ueAccess (hprogress _ _ rfl rfl) hstep⟩
  | ueReturns memory host usim call result hdone =>
    rw [List.append_nil]
    exact ⟨taken, horderly⟩
  | ueEnds memory host ue =>
    rw [List.append_nil]
    exact ⟨taken, horderly⟩
  | hostStarts memory ue world =>
    have hsame : Orderly (history ++ [.hostStarted]) memory none taken :=
      horderly.of_eq ((challenges_append _ _).trans (List.append_nil _))
        ((posts_append _ _).trans (List.append_nil _))
    refine ⟨taken, { hsame with command := fun _ ↦ Or.inr ?_, host := ?_ }⟩
    · rintro _ ⟨⟩
      rfl
    · rintro _ ⟨⟩
      exact .nothing .reset
  | hostAccesses memory changed ue host access rest hstep =>
    cases horderly.host host rfl with
    | nothing hidle => exact ⟨taken, horderly.idle_step hidle hstep⟩
    | request request response hcommand hunread hworking =>
      exact horderly.request_step hcommand hunread hworking hstep
    | response response hcommand hanswering =>
      exact ⟨taken, horderly.response_step hcommand hanswering hstep⟩
  | hostEnds memory ue host =>
    rw [List.append_nil]
    refine ⟨taken, { horderly with command := fun _ ↦ Or.inr ?_, host := ?_ }⟩
    · intro process hprocess
      cases hprocess
    · intro process hprocess
      cases hprocess

/-- It holds after every careful run that starts without processes. -/
theorem orderly_of_run {memory : SharedData} {history : List Event} {state : SystemState}
    (hrun : Recorded (CarefulEventStep srsran aes k) ⟨memory, none, none⟩ history state) :
    Progressing aes k state ∧ ∃ taken, Orderly history state.memory state.host taken := by
  let holds (history : List Event) (state : SystemState) : Prop :=
    Progressing aes k state ∧ ∃ taken, Orderly history state.memory state.host taken
  have hstart : holds [] ⟨memory, none, none⟩ := by
    refine ⟨?_, [], rfl, List.Sublist.refl _, fun _ ↦ Or.inr ?_, ?_⟩
    · intro process call hprocess
      cases hprocess
    · intro process hprocess
      cases hprocess
    · intro process hprocess
      cases hprocess
  have hkept : ∀ history events before after, holds history before →
      CarefulEventStep srsran aes k before events after → holds (history ++ events) after := by
    rintro history events before after ⟨hprogress, taken, horderly⟩ hstep
    exact ⟨hprogress.step (carefulEventStep_iff.mp ⟨events, hstep⟩),
      horderly.step hprogress hstep.1⟩
  exact hrun.invariant hstart hkept

/-- The bytes of a request determine it. -/
theorem request_bytes_injective : Function.Injective Request.bytes := by
  rintro ⟨rand, opc, autn⟩ ⟨rand', opc', autn'⟩ hequal
  simp only [Request.bytes, List.append_assoc] at hequal
  have hlength (first second : Block) : first.toList.length = second.toList.length :=
    first.toList_length.trans second.toList_length.symm
  obtain ⟨hrand, hrest⟩ := List.append_inj hequal (hlength _ _)
  obtain ⟨hopc, hautn⟩ := List.append_inj hrest (hlength _ _)
  rw [List.Vector.eq _ _ hrand, List.Vector.eq _ _ hopc, List.Vector.eq _ _ hautn]

/-- In every run in which requests are posted only into a mailbox at rest, the challenges handed to
the enclave are requests that were posted, whole, in their order and none of them twice, and so are
the responses that are announced. -/
theorem careful_runs_serve_in_order (memory : SharedData) (history : List Event)
    (state : SystemState)
    (hrun : Recorded (CarefulEventStep srsran aes k) ⟨memory, none, none⟩ history state) :
    ∃ taken : List Request, taken.Sublist (posts history) ∧
      challenges history = taken.map Request.bytes ∧
      (answers history).Sublist (taken.map (Request.response aes k)) := by
  obtain ⟨-, taken, horderly⟩ := orderly_of_run hrun
  obtain ⟨⟨taken', hserved⟩, -, -⟩ := tallied_of_run (hrun.mono fun _ _ _ hstep ↦ hstep.1)
  have hsame : taken' = taken :=
    List.map_injective_iff.mpr request_bytes_injective
      (hserved.challenges.symm.trans horderly.challenges)
  exact ⟨taken, horderly.sublist, horderly.challenges, hsame ▸ hserved.answers⟩

end Runs

/-- A request of zeros that is served is the first one. -/
theorem careful_runs_serve_in_order_zero :
    ∃ (history : List Event) (taken : List Request), taken.Sublist (posts history) ∧
      challenges history = taken.map Request.bytes ∧
      (answers history).Sublist (taken.map (Request.response Aes.encrypt Enclave.builtInKey)) ∧
      0 < (answers history).length := by
  obtain ⟨history, state, hrun, hanswered⟩ := answered_history
  obtain ⟨taken, hsublist, hchallenges, hanswers⟩ :=
    careful_runs_serve_in_order newObject history state hrun
  exact ⟨history, taken, hsublist, hchallenges, hanswers, hanswered⟩

end Disguise.Mailbox
