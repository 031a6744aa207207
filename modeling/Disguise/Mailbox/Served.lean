import Disguise.Mailbox.History

/-!
# What is served in any run

No order of the accesses and no crash makes the host answer twice, or announce anything but an
answer of its enclave. `Served` says so of a history and a state, with the list of the requests that
the hosts have taken. It is kept by every step because a host process goes through stages, of which
each is passed once (`HostStage`), and because a UE process posts at most one request (`UeStage`).
-/

set_option autoImplicit false
set_option relaxedAutoImplicit false

namespace Disguise.Mailbox

open Authentication Authentication.Ue Memory Milenage Process Process.Program Relation

/-! ### The UE -/

/-- A UE has not posted its request yet. -/
inductive Asking (rand opc autn : Block) : MailboxProgram Response → Prop where
  | rand : Asking rand opc autn (exchange rand opc autn)
  | opc : Asking rand opc autn (.store .opcBytes opc (.store .autenbBytes autn
      (.store .commandType .cmdAuthenticate
        (.store .commandReady true (awaitResponse timeoutSeconds)))))
  | autn : Asking rand opc autn (.store .autenbBytes autn (.store .commandType .cmdAuthenticate
      (.store .commandReady true (awaitResponse timeoutSeconds))))
  | commandType : Asking rand opc autn (.store .commandType .cmdAuthenticate
      (.store .commandReady true (awaitResponse timeoutSeconds)))
  | commandReady : Asking rand opc autn
      (.store .commandReady true (awaitResponse timeoutSeconds))

/-- The number of requests a UE process can still post. -/
def credit (usim : Usim) : ℕ := if usim.fpgaInitialized then 0 else 1

/-- How far a call has come, with the number of requests the process can still post. -/
inductive UeStage (usim : Usim) (rand autnEnb : Block) :
    ℕ → MailboxProgram (AuthResult × Outputs × Usim) → Prop where
  | asking {program : MailboxProgram Response} (hasking : Asking rand usim.opc autnEnb program) :
      UeStage usim rand autnEnb 1 (program >>= fun response ↦ .done (takenFrom usim response))
  | loading {program : MailboxProgram Response} (hloads : OnlyLoads (fun _ ↦ True) program) :
      UeStage usim rand autnEnb 0 (program >>= fun response ↦ .done (takenFrom usim response))
  | returning {result : AuthResult × Outputs × Usim} (hsame : credit result.2.2 = credit usim) :
      UeStage usim rand autnEnb (credit usim) (.done result)

/-- The UE process of a state can still post that many requests. -/
inductive UeCredit : Option UeProcess → ℕ → Prop where
  | none : UeCredit none 0
  | waiting (usim : Usim) : UeCredit (some ⟨usim, none⟩) (credit usim)
  | calling {usim : Usim} {call : UeCall} {left : ℕ}
      (hstage : UeStage usim call.rand call.autnEnb left call.rest) :
      UeCredit (some ⟨usim, some call⟩) left

/-- The cells that a UE never writes. -/
structure SameAnswer (memory after : SharedData) : Prop where
  authResponseReady : after .authResponseReady = memory .authResponseReady
  response : responseIn after = responseIn memory

theorem awaitResponse_onlyLoads (remaining : ℕ) :
    OnlyLoads (fun _ ↦ True) (awaitResponse remaining) := by
  have hcopy : OnlyLoads (fun _ ↦ True) copyResponse :=
    ⟨trivial, fun _ ↦ ⟨trivial, fun _ ↦ ⟨trivial, fun _ ↦ ⟨trivial, fun _ ↦ trivial⟩⟩⟩⟩
  induction remaining with
  | zero => exact ⟨trivial, fun _ ↦ hcopy⟩
  | succ remaining ih =>
    refine ⟨trivial, fun announced ↦ ?_⟩
    cases announced with
    | true => exact hcopy
    | false => exact ih

/-- A call begins with the credit of its process. -/
theorem ueStage_start (srsran : Srsran) (usim : Usim) (outputs : Outputs) (rand autnEnb : Block) :
    UeStage usim rand autnEnb (credit usim)
      (genAuthResMilenageVsim srsran usim outputs rand autnEnb) := by
  unfold genAuthResMilenageVsim
  split_ifs with hfirst hunmapped
  · exact .returning rfl
  · have hcredit : credit usim = 1 := by
      rw [credit, hfirst]
      rfl
    rw [hcredit]
    exact .asking .rand
  · exact .returning rfl

/-- A UE that is writing its request has not posted it. -/
theorem Writing.asking {rand opc autn : Block} {memory : SharedData}
    {program : MailboxProgram Response} (hwriting : Writing rand opc autn memory program) :
    Asking rand opc autn program := by
  cases hwriting with
  | rand => exact .rand
  | opc => exact .opc
  | autn => exact .autn
  | commandType => exact .commandType
  | commandReady => exact .commandReady

/-- A UE that has not posted its request writes another part of it, or posts it. -/
theorem Asking.step {usim : Usim} {call : UeCall} {program next : MailboxProgram Response}
    {memory after : SharedData} {access : Access Content}
    (hasking : Asking call.rand usim.opc call.autnEnb program)
    (hstep : Step program memory access next after) :
    SameAnswer memory after ∧
      (ueEvents usim call access = [] ∧ after .commandReady = memory .commandReady ∧
        Asking call.rand usim.opc call.autnEnb next ∨
      ueEvents usim call access = [.posted ⟨call.rand, usim.opc, call.autnEnb⟩] ∧
        next = awaitResponse timeoutSeconds) := by
  cases hasking with
  | rand =>
    cases hstep
    exact ⟨⟨rfl, rfl⟩, Or.inl ⟨rfl, rfl, .opc⟩⟩
  | opc =>
    cases hstep
    exact ⟨⟨rfl, rfl⟩, Or.inl ⟨rfl, rfl, .autn⟩⟩
  | autn =>
    cases hstep
    exact ⟨⟨rfl, rfl⟩, Or.inl ⟨rfl, rfl, .commandType⟩⟩
  | commandType =>
    cases hstep
    exact ⟨⟨rfl, rfl⟩, Or.inl ⟨rfl, rfl, .commandReady⟩⟩
  | commandReady =>
    cases hstep
    exact ⟨⟨rfl, rfl⟩, Or.inr ⟨rfl, rfl⟩⟩

/-- A step of a program that only loads is no event. -/
theorem ueEvents_of_onlyLoads {usim : Usim} {call : UeCall} {program next : MailboxProgram Response}
    {memory after : SharedData} {access : Access Content}
    (hloads : OnlyLoads (fun _ ↦ True) program) (hstep : Step program memory access next after) :
    ueEvents usim call access = [] := by
  cases hstep with
  | load cell next memory => rfl
  | store cell value next memory => exact absurd hloads id
  | choose next answer memory => rfl

/-- An access of a UE: it writes no part of a response, and it either posts nothing and leaves the
flag of the command alone, or posts the request of its call and can post no more. -/
theorem UeStage.step {usim : Usim} {call : UeCall} {left : ℕ}
    {program rest : MailboxProgram (AuthResult × Outputs × Usim)} {memory after : SharedData}
    {access : Access Content} (hstage : UeStage usim call.rand call.autnEnb left program)
    (hstep : Step program memory access rest after) :
    SameAnswer memory after ∧ ∃ left', UeStage usim call.rand call.autnEnb left' rest ∧
      (ueEvents usim call access = [] ∧ after .commandReady = memory .commandReady ∧ left' = left ∨
      ueEvents usim call access = [.posted ⟨call.rand, usim.opc, call.autnEnb⟩] ∧
        left = left' + 1) := by
  cases hstage with
  | asking hasking =>
    rcases step_bind hstep with ⟨result, rfl⟩ | ⟨next, hnext, rfl⟩
    · nomatch hasking
    obtain ⟨hsame, ⟨hevents, hcommand, hgoing⟩ | ⟨hevents, rfl⟩⟩ := hasking.step hnext
    · exact ⟨hsame, 1, .asking hgoing, Or.inl ⟨hevents, hcommand, rfl⟩⟩
    · exact ⟨hsame, 0, .loading (awaitResponse_onlyLoads timeoutSeconds), Or.inr ⟨hevents, rfl⟩⟩
  | loading hloads =>
    rcases step_bind hstep with ⟨result, rfl⟩ | ⟨next, hnext, rfl⟩
    · cases hstep
    obtain ⟨rfl, hrest, -⟩ := hloads.step hnext
    exact ⟨⟨rfl, rfl⟩, 0, .loading hrest, Or.inl ⟨ueEvents_of_onlyLoads hloads hnext, rfl, rfl⟩⟩
  | returning hsame => cases hstep

/-- A call that returns leaves the credit its process had at the end of it. -/
theorem UeStage.returns {usim : Usim} {rand autnEnb : Block} {left : ℕ}
    {result : AuthResult × Outputs × Usim}
    (hstage : UeStage usim rand autnEnb left (.done result)) : credit result.2.2 = left := by
  generalize hprogram : (Program.done result : MailboxProgram (AuthResult × Outputs × Usim)) =
    program at hstage
  cases hstage with
  | asking hasking => cases hasking <;> cases hprogram
  | @loading program hloads =>
    cases program with
    | done response =>
      cases hprogram
      rfl
    | load cell next => cases hprogram
    | store cell value next => exact absurd hloads id
    | choose next => cases hprogram
  | returning hsame =>
    cases hprogram
    exact hsame

/-! ### The host -/

section Host

variable (aes : Block → Block → Block) (k : Block)

/-- A host process that has cleared the flag of the response picks a request up. -/
inductive Picking : MailboxProgram Phase → Prop where
  | readRand : Picking (.load Member.randBytes fun randBytes ↦
      .load Member.opcBytes fun opcBytes ↦ .load Member.autenbBytes fun autenbBytes ↦
        .choose fun allocated ↦ if allocated then .store .commandReady false
          (.done (.answering (randBytes.toList ++ opcBytes.toList ++ autenbBytes.toList)))
        else .done .polling)
  | readOpc (rand : Block) : Picking (.load Member.opcBytes fun opcBytes ↦
      .load Member.autenbBytes fun autenbBytes ↦
        .choose fun allocated ↦ if allocated then .store .commandReady false
          (.done (.answering (rand.toList ++ opcBytes.toList ++ autenbBytes.toList)))
        else .done .polling)
  | readAutn (rand opc : Block) : Picking (.load Member.autenbBytes fun autenbBytes ↦
      .choose fun allocated ↦ if allocated then .store .commandReady false
        (.done (.answering (rand.toList ++ opc.toList ++ autenbBytes.toList)))
      else .done .polling)
  | allocate (request : Request) : Picking (.choose fun allocated ↦ if allocated then
      .store .commandReady false (.done (.answering request.bytes))
      else .done .polling)
  | take (request : Request) : Picking
      (.store .commandReady false (.done (.answering request.bytes)))

/-- A host process writes a response into the mailbox, which holds what it has written. -/
inductive Answering (memory : SharedData) (response : Response) : MailboxProgram Phase → Prop where
  | res : Answering memory response (sendChallengeResponse response)
  | akXorSqn (hres : memory .res = response.res) : Answering memory response
      (.store .akXorSqn response.akXorSqn (.store .ck response.ck
        (.store .ik response.ik (.store .authResponseReady true (.done .exited)))))
  | ck (hres : memory .res = response.res) (hakXorSqn : memory .akXorSqn = response.akXorSqn) :
      Answering memory response (.store .ck response.ck
        (.store .ik response.ik (.store .authResponseReady true (.done .exited))))
  | ik (hres : memory .res = response.res) (hakXorSqn : memory .akXorSqn = response.akXorSqn)
      (hck : memory .ck = response.ck) : Answering memory response
      (.store .ik response.ik (.store .authResponseReady true (.done .exited)))
  | raise (hresponse : responseIn memory = response) : Answering memory response
      (.store .authResponseReady true (.done .exited))

/-- The program of a host process that has reset the flag of the command and has no request in
hand. -/
inductive Ready : MailboxProgram Phase → Prop where
  | resetResponse : Ready (.store .responseReady false (.store .authResponseReady false
      (.done .polling)))
  | resetAuthResponse : Ready (.store .authResponseReady false (.done .polling))
  | polling : Ready sendChallengeToVsim

/-- How far a host process has come, when the hosts have taken the given requests. A process that
can still take one is not counted among those that have. -/
inductive HostStage (history : List Event) (memory : SharedData) (taken : List Request) :
    MailboxProgram Phase → Prop where
  | resetting (hstarts : taken.length < hostStarts history) :
      HostStage history memory taken resetFlags
  | ready {program : MailboxProgram Phase} (hready : Ready program)
      (hposts : memory .commandReady = true → taken.length < (posts history).length)
      (hstarts : taken.length < hostStarts history) : HostStage history memory taken program
  /-- The process has seen the command. -/
  | seen {program : MailboxProgram Phase} (hprogram : program = pickUp ∨
        program = .load .commandType fun commandType ↦
          match commandType with
          | .cmdAuthenticate => pickUp
          | .cmdNone | .cmdSwitch | .cmdExit => return .polling)
      (hposts : taken.length < (posts history).length)
      (hstarts : taken.length < hostStarts history) : HostStage history memory taken program
  | picking {program : MailboxProgram Phase} (hpicking : Picking program)
      (hflag : memory .authResponseReady = false)
      (hposts : taken.length < (posts history).length)
      (hstarts : taken.length < hostStarts history) : HostStage history memory taken program
  | answering {program : MailboxProgram Phase} {earlier : List Request} {last : Request}
      (htaken : taken = earlier ++ [last])
      (hanswers : (answers history).Sublist (earlier.map (Request.response aes k)))
      (hflag : memory .authResponseReady = false)
      (hanswering : Answering memory (last.response aes k) program) :
      HostStage history memory taken program
  | exited : HostStage history memory taken (.done .exited)

/-- What the hosts have done in a history that ends in a state: the requests they have taken. -/
structure Served (history : List Event) (memory : SharedData) (host : Option HostProcess)
    (taken : List Request) : Prop where
  challenges : challenges history = taken.map Request.bytes
  answers : (answers history).Sublist (taken.map (Request.response aes k))
  posts : taken.length ≤ (posts history).length
  starts : taken.length ≤ hostStarts history
  host : ∀ process, host = some process → HostStage aes k history memory taken process.rest

/-- If the flag of the response is raised, the mailbox holds the response announced last. -/
def Shown (history : List Event) (memory : SharedData) : Prop :=
  memory .authResponseReady = true → (answers history).getLast? = some (responseIn memory)

variable {aes k} {history later : List Event} {memory after : SharedData} {taken : List Request}
  {program rest : MailboxProgram Phase} {access : Access Content} {world : Enclave.World}

theorem answers_append_nil (history : List Event) : answers (history ++ []) = answers history := by
  rw [List.append_nil]

theorem shown_of_unset (hflag : after .authResponseReady = false) : Shown history after := by
  intro hraised
  rw [hflag] at hraised
  cases hraised

/-- What is shown stays shown while nothing is announced and the answer is left alone. -/
theorem Shown.of_same (hshown : Shown history memory) (hanswers : answers later = answers history)
    (hsame : SameAnswer memory after) : Shown later after := by
  intro hraised
  rw [hanswers, hsame.response]
  exact hshown (hsame.authResponseReady ▸ hraised)

/-- A stage does not depend on what others do: requests are posted, processes are started, and the
cells of the request are written. -/
theorem HostStage.of_same (hstage : HostStage aes k history memory taken program)
    (hanswers : answers later = answers history)
    (hposts : (posts history).length ≤ (posts later).length)
    (hstarts : hostStarts history ≤ hostStarts later) (hsame : SameAnswer memory after)
    (hcommand : after .commandReady = true →
      memory .commandReady = true ∨ taken.length < (posts later).length) :
    HostStage aes k later after taken program := by
  cases hstage with
  | resetting hbefore => exact .resetting (hbefore.trans_le hstarts)
  | ready hready hannounced hbefore =>
    refine .ready hready (fun hcommandAfter ↦ ?_) (hbefore.trans_le hstarts)
    rcases hcommand hcommandAfter with hcommandBefore | hposted
    · exact (hannounced hcommandBefore).trans_le hposts
    · exact hposted
  | seen hprogram hposted hbefore =>
    exact .seen hprogram (hposted.trans_le hposts) (hbefore.trans_le hstarts)
  | picking hpicking hflag hposted hbefore =>
    exact .picking hpicking (hsame.authResponseReady.trans hflag) (hposted.trans_le hposts)
      (hbefore.trans_le hstarts)
  | answering htaken hearlier hflag hanswering =>
    refine .answering htaken (hanswers ▸ hearlier) (hsame.authResponseReady.trans hflag) ?_
    have hres : after .res = memory .res := congrArg Response.res hsame.response
    have hakXorSqn : after .akXorSqn = memory .akXorSqn := congrArg Response.akXorSqn hsame.response
    have hck : after .ck = memory .ck := congrArg Response.ck hsame.response
    cases hanswering with
    | res => exact .res
    | akXorSqn hresBefore => exact .akXorSqn (hres.trans hresBefore)
    | ck hresBefore hakBefore => exact .ck (hres.trans hresBefore) (hakXorSqn.trans hakBefore)
    | ik hresBefore hakBefore hckBefore =>
      exact .ik (hres.trans hresBefore) (hakXorSqn.trans hakBefore) (hck.trans hckBefore)
    | raise hresponse => exact .raise (hsame.response.trans hresponse)
  | exited => exact .exited

/-- Nothing happens, but the host comes to another stage. -/
theorem Served.move (hserved : Served aes k history memory (some ⟨world, program⟩) taken)
    (hstage : HostStage aes k history after taken rest) :
    Served aes k (history ++ []) after (some ⟨world, rest⟩) taken := by
  rw [List.append_nil]
  refine { hserved with host := ?_ }
  rintro _ ⟨⟩
  exact hstage

/-- An access of a host that has not taken its request yet. -/
theorem Picking.step (hpicking : Picking program)
    (hserved : Served aes k history memory (some ⟨world, program⟩) taken)
    (hflag : memory .authResponseReady = false) (hposts : taken.length < (posts history).length)
    (hstarts : taken.length < hostStarts history) (hstep : Step program memory access rest after) :
    after .authResponseReady = false ∧ ∃ taken', Served aes k
      (history ++ hostEvents memory access rest) after (some ⟨world, resume aes k world rest⟩)
        taken' := by
  cases hpicking with
  | readRand =>
    cases hstep
    exact ⟨hflag, taken, hserved.move (.picking (.readOpc _) hflag hposts hstarts)⟩
  | readOpc rand =>
    cases hstep
    exact ⟨hflag, taken, hserved.move (.picking (.readAutn rand _) hflag hposts hstarts)⟩
  | readAutn rand opc =>
    cases hstep
    exact ⟨hflag, taken, hserved.move (.picking (.allocate ⟨rand, opc, _⟩) hflag hposts hstarts)⟩
  | allocate request =>
    cases hstep with
    | choose _ allocated _ =>
      cases allocated with
      | true => exact ⟨hflag, taken, hserved.move (.picking (.take request) hflag hposts hstarts)⟩
      | false => exact ⟨hflag, taken, hserved.move (.ready .polling (fun _ ↦ hposts) hstarts)⟩
  | take request =>
    cases hstep
    have hanswer : resume aes k world (.done (.answering request.bytes)) =
        sendChallengeResponse (request.response aes k) :=
      answer_eq aes k world request.rand request.opc request.autn
    refine ⟨hflag, taken ++ [request], ?_⟩
    rw [hanswer]
    refine ⟨?_, ?_, ?_, ?_, ?_⟩
    · rw [challenges_append, hserved.challenges, List.map_append]
      rfl
    · rw [answers_append, List.map_append]
      exact hserved.answers.append (List.nil_sublist _)
    · rw [posts_append, List.length_append, List.length_append]
      exact hposts.trans_le (Nat.le_add_right _ _)
    · rw [hostStarts_append, List.length_append]
      exact hstarts.trans_le (Nat.le_add_right _ _)
    · rintro _ ⟨⟩
      refine .answering rfl ?_ hflag .res
      rw [answers_append]
      exact (List.append_nil _).symm ▸ hserved.answers

/-- An access of a host that writes a response. -/
theorem Answering.step {earlier : List Request} {last : Request}
    (hanswering : Answering memory (last.response aes k) program)
    (hserved : Served aes k history memory (some ⟨world, program⟩) taken)
    (htaken : taken = earlier ++ [last])
    (hanswers : (answers history).Sublist (earlier.map (Request.response aes k)))
    (hflag : memory .authResponseReady = false) (hstep : Step program memory access rest after) :
    Shown (history ++ hostEvents memory access rest) after ∧ Served aes k
      (history ++ hostEvents memory access rest) after (some ⟨world, resume aes k world rest⟩)
        taken := by
  cases hanswering with
  | res =>
    cases hstep
    exact ⟨shown_of_unset hflag, hserved.move (.answering htaken hanswers hflag (.akXorSqn rfl))⟩
  | akXorSqn hres =>
    cases hstep
    exact ⟨shown_of_unset hflag, hserved.move (.answering htaken hanswers hflag (.ck hres rfl))⟩
  | ck hres hakXorSqn =>
    cases hstep
    exact ⟨shown_of_unset hflag,
      hserved.move (.answering htaken hanswers hflag (.ik hres hakXorSqn rfl))⟩
  | ik hres hakXorSqn hck =>
    cases hstep
    refine ⟨shown_of_unset hflag, hserved.move (.answering htaken hanswers hflag (.raise ?_))⟩
    have hparts : responseIn memory = ⟨memory .res, memory .akXorSqn, memory .ck, memory .ik⟩ := rfl
    show (⟨memory .res, memory .akXorSqn, memory .ck, (last.response aes k).ik⟩ : Response) = _
    rw [hres, hakXorSqn, hck]
  | raise hresponse =>
    cases hstep
    have hannounced : hostEvents memory (.stored .authResponseReady true)
        (.done .exited : MailboxProgram Phase) = [.announced (responseIn memory)] := rfl
    rw [hannounced]
    refine ⟨fun _ ↦ ?_, ?_, ?_, ?_, ?_, ?_⟩
    · rw [answers_append]
      exact List.getLast?_concat
    · rw [challenges_append, hserved.challenges]
      exact List.append_nil _
    · rw [answers_append, htaken, List.map_append, hresponse]
      exact hanswers.append (List.Sublist.refl _)
    · rw [posts_append, List.length_append]
      exact hserved.posts.trans (Nat.le_add_right _ _)
    · rw [hostStarts_append]
      exact hserved.starts.trans (Nat.le_add_right _ _)
    · rintro _ ⟨⟩
      exact .exited

/-- An access of a host. -/
theorem Served.hostStep (hserved : Served aes k history memory (some ⟨world, program⟩) taken)
    (hstep : Step program memory access rest after) :
    (Shown history memory → Shown (history ++ hostEvents memory access rest) after) ∧
      ∃ taken', Served aes k (history ++ hostEvents memory access rest) after
        (some ⟨world, resume aes k world rest⟩) taken' := by
  have hnothing := answers_append_nil history
  have hstage := hserved.host _ rfl
  cases hstage with
  | resetting hstarts =>
    cases hstep
    refine ⟨fun hshown ↦ hshown.of_same hnothing ⟨rfl, rfl⟩, taken, hserved.move ?_⟩
    exact .ready .resetResponse (fun hcommand ↦ nomatch hcommand) hstarts
  | ready hready hposts hstarts =>
    cases hready with
    | resetResponse =>
      cases hstep
      exact ⟨fun hshown ↦ hshown.of_same hnothing ⟨rfl, rfl⟩, taken,
        hserved.move (.ready .resetAuthResponse hposts hstarts)⟩
    | resetAuthResponse =>
      cases hstep
      exact ⟨fun _ ↦ shown_of_unset rfl, taken, hserved.move (.ready .polling hposts hstarts)⟩
    | polling =>
      cases hstep
      cases hcommand : memory .commandReady with
      | true =>
        exact ⟨fun hshown ↦ hshown.of_same hnothing ⟨rfl, rfl⟩, taken,
          hserved.move (.seen (Or.inr rfl) (hposts hcommand) hstarts)⟩
      | false =>
        exact ⟨fun hshown ↦ hshown.of_same hnothing ⟨rfl, rfl⟩, taken,
          hserved.move (.ready .polling hposts hstarts)⟩
  | seen hprogram hposts hstarts =>
    rcases hprogram with rfl | rfl
    · cases hstep
      exact ⟨fun _ ↦ shown_of_unset rfl, taken,
        hserved.move (.picking .readRand rfl hposts hstarts)⟩
    · cases hstep
      cases memory .commandType with
      | cmdAuthenticate =>
        exact ⟨fun hshown ↦ hshown.of_same hnothing ⟨rfl, rfl⟩, taken,
          hserved.move (.seen (Or.inl rfl) hposts hstarts)⟩
      | cmdNone | cmdSwitch | cmdExit =>
        exact ⟨fun hshown ↦ hshown.of_same hnothing ⟨rfl, rfl⟩, taken,
          hserved.move (.ready .polling (fun _ ↦ hposts) hstarts)⟩
  | picking hpicking hflag hposts hstarts =>
    obtain ⟨hunset, hgoing⟩ := hpicking.step hserved hflag hposts hstarts hstep
    exact ⟨fun _ ↦ shown_of_unset hunset, hgoing⟩
  | answering htaken hanswers hflag hanswering =>
    obtain ⟨hshown, hgoing⟩ := hanswering.step hserved htaken hanswers hflag hstep
    exact ⟨fun _ ↦ hshown, taken, hgoing⟩
  | exited => cases hstep

/-- What the hosts have done does not depend on what others do. -/
theorem Served.of_same {host : Option HostProcess}
    (hserved : Served aes k history memory host taken)
    (hchallenges : Mailbox.challenges later = Mailbox.challenges history)
    (hanswers : Mailbox.answers later = Mailbox.answers history)
    (hposts : (Mailbox.posts history).length ≤ (Mailbox.posts later).length)
    (hstarts : hostStarts history ≤ hostStarts later) (hsame : SameAnswer memory after)
    (hcommand : after .commandReady = true →
      memory .commandReady = true ∨ taken.length < (Mailbox.posts later).length) :
    Served aes k later after host taken where
  challenges := hchallenges.trans hserved.challenges
  answers := hanswers ▸ hserved.answers
  posts := hserved.posts.trans hposts
  starts := hserved.starts.trans hstarts
  host process hprocess := (hserved.host process hprocess).of_same hanswers hposts hstarts hsame
    hcommand

end Host

/-! ### Runs -/

section Runs

variable {srsran : Srsran} {aes : Block → Block → Block} {k : Block} {unset : Prop}
  {history events : List Event} {before after : SystemState}

/-- What holds after every run. The parameter is a condition on the start, under which the flag of
the response belongs to a response that was announced. -/
structure Tallied (aes : Block → Block → Block) (k : Block) (unset : Prop) (history : List Event)
    (state : SystemState) : Prop where
  served : ∃ taken, Served aes k history state.memory state.host taken
  shown : unset → Shown history state.memory
  posting : ∃ left, UeCredit state.ue left ∧ (posts history).length + left ≤ ueStarts history

/-- An access of the UE. -/
theorem Tallied.ueAccess {memory changed : SharedData} {host : Option HostProcess} {usim : Usim}
    {call : UeCall} {access : Access Content} {rest : MailboxProgram (AuthResult × Outputs × Usim)}
    (htallied : Tallied aes k unset history ⟨memory, some ⟨usim, some call⟩, host⟩)
    (hstep : Step call.rest memory access rest changed) :
    Tallied aes k unset (history ++ ueEvents usim call access)
      ⟨changed, some ⟨usim, some { call with rest, trace := call.trace ++ [access] }⟩, host⟩ := by
  obtain ⟨⟨taken, hserved⟩, hshown, left, hcredit, hbound⟩ := htallied
  cases hcredit with
  | calling hstage =>
    obtain ⟨hsame, left', hnext, ⟨hevents, hcommand, rfl⟩ | ⟨hevents, rfl⟩⟩ := hstage.step hstep
    · rw [hevents, List.append_nil]
      refine ⟨⟨taken, hserved.of_same rfl rfl le_rfl le_rfl hsame fun hraised ↦ ?_⟩,
        fun hunset ↦ (hshown hunset).of_same rfl hsame, left', .calling hnext, hbound⟩
      exact Or.inl (hcommand.symm.trans hraised)
    · rw [hevents]
      have hposts : (posts (history ++ [.posted ⟨call.rand, usim.opc, call.autnEnb⟩])).length =
          (posts history).length + 1 := by
        rw [posts_append, List.length_append]
        rfl
      have hanswers : answers (history ++ [.posted ⟨call.rand, usim.opc, call.autnEnb⟩]) =
          answers history := by
        rw [answers_append]
        exact List.append_nil _
      have hchallenges : challenges (history ++ [.posted ⟨call.rand, usim.opc, call.autnEnb⟩]) =
          challenges history := by
        rw [challenges_append]
        exact List.append_nil _
      have hmore := Nat.le_succ (posts history).length
      rw [← Nat.succ_eq_add_one] at hposts
      refine ⟨⟨taken, hserved.of_same hchallenges hanswers (hposts ▸ hmore) ?_ hsame fun _ ↦ ?_⟩,
        fun hunset ↦ (hshown hunset).of_same hanswers hsame, left', .calling hnext, ?_⟩
      · rw [hostStarts_append]
        exact Nat.le_add_right _ _
      · exact Or.inr (hposts ▸ Nat.lt_succ_of_le hserved.posts)
      · rw [ueStarts_append, hposts]
        omega

/-- A step keeps it. -/
theorem Tallied.step (htallied : Tallied aes k unset history before)
    (hstep : EventStep srsran aes k before events after) :
    Tallied aes k unset (history ++ events) after := by
  cases hstep with
  | ueStarts memory host usim hfirst =>
    obtain ⟨⟨taken, hserved⟩, hshown, left, hcredit, hbound⟩ := htallied
    have hanswers : answers (history ++ [.ueStarted]) = answers history := by
      rw [answers_append]
      exact List.append_nil _
    have hposts : posts (history ++ [.ueStarted]) = posts history := by
      rw [posts_append]
      exact List.append_nil _
    have hchallenges : challenges (history ++ [.ueStarted]) = challenges history := by
      rw [challenges_append]
      exact List.append_nil _
    refine ⟨⟨taken, hserved.of_same hchallenges hanswers (hposts ▸ le_rfl) ?_ ⟨rfl, rfl⟩ Or.inl⟩,
      fun hunset ↦ (hshown hunset).of_same hanswers ⟨rfl, rfl⟩, _, .waiting usim, ?_⟩
    · rw [hostStarts_append]
      exact Nat.le_add_right _ _
    · have hone : ueStarts [.ueStarted] = 1 := rfl
      have hcreditOne : credit usim ≤ 1 := by
        rw [credit]
        split <;> omega
      rw [hposts, ueStarts_append, hone]
      omega
  | ueCalls memory host usim outputs rand autnEnb =>
    rw [List.append_nil]
    obtain ⟨hserved, hshown, left, hcredit, hbound⟩ := htallied
    cases hcredit with
    | waiting usim =>
      exact ⟨hserved, hshown, _, .calling (ueStage_start srsran usim outputs rand autnEnb), hbound⟩
  | ueAccesses memory changed host usim call access rest hstep => exact htallied.ueAccess hstep
  | ueReturns memory host usim call result hdone =>
    rw [List.append_nil]
    obtain ⟨hserved, hshown, left, hcredit, hbound⟩ := htallied
    cases hcredit with
    | calling hstage =>
      rw [hdone] at hstage
      rw [← hstage.returns] at hbound
      exact ⟨hserved, hshown, _, .waiting result.2.2, hbound⟩
  | ueEnds memory host ue =>
    rw [List.append_nil]
    obtain ⟨hserved, hshown, left, hcredit, hbound⟩ := htallied
    exact ⟨hserved, hshown, 0, .none, (Nat.le_add_right _ _).trans hbound⟩
  | hostStarts memory ue world =>
    obtain ⟨⟨taken, hserved⟩, hshown, left, hcredit, hbound⟩ := htallied
    have hanswers : answers (history ++ [.hostStarted]) = answers history := by
      rw [answers_append]
      exact List.append_nil _
    have hposts : posts (history ++ [.hostStarted]) = posts history := by
      rw [posts_append]
      exact List.append_nil _
    have hchallenges : challenges (history ++ [.hostStarted]) = challenges history := by
      rw [challenges_append]
      exact List.append_nil _
    have hstarts : hostStarts (history ++ [.hostStarted]) = hostStarts history + 1 :=
      hostStarts_append _ _
    refine ⟨⟨taken, ?_⟩, fun hunset ↦ (hshown hunset).of_same hanswers ⟨rfl, rfl⟩, left, hcredit,
      ?_⟩
    · have hsame : Served aes k (history ++ [.hostStarted]) memory none taken :=
        hserved.of_same hchallenges hanswers (hposts ▸ le_rfl) (hstarts ▸ Nat.le_succ _) ⟨rfl, rfl⟩
          Or.inl
      refine { hsame with host := ?_ }
      rintro _ ⟨⟩
      exact .resetting (hstarts ▸ Nat.lt_succ_of_le hserved.starts)
    · rw [hposts, ueStarts_append]
      exact hbound.trans (Nat.le_add_right _ _)
  | hostAccesses memory changed ue host access rest hstep =>
    obtain ⟨⟨taken, hserved⟩, hshown, left, hcredit, hbound⟩ := htallied
    obtain ⟨hstill, hnext⟩ := hserved.hostStep hstep
    have hevents : posts (hostEvents memory access rest) = [] := by
      unfold hostEvents
      split <;> rfl
    refine ⟨hnext, fun hunset ↦ hstill (hshown hunset), left, hcredit, ?_⟩
    rw [posts_append, hevents, List.append_nil, ueStarts_append]
    exact hbound.trans (Nat.le_add_right _ _)
  | hostEnds memory ue host =>
    rw [List.append_nil]
    obtain ⟨⟨taken, hserved⟩, hshown, hcredit⟩ := htallied
    refine ⟨⟨taken, { hserved with host := ?_ }⟩, hshown, hcredit⟩
    intro process hprocess
    cases hprocess

/-- It holds after every run that starts without processes. -/
theorem tallied_of_run {memory : SharedData} {state : SystemState}
    (hrun : Recorded (EventStep srsran aes k) ⟨memory, none, none⟩ history state) :
    Tallied aes k (memory .authResponseReady = false) history state := by
  refine hrun.invariant ⟨⟨[], ⟨rfl, List.Sublist.refl _, le_rfl, le_rfl, ?_⟩⟩, shown_of_unset,
    0, .none, le_rfl⟩ fun _ _ _ _ htallied hstep ↦ htallied.step hstep
  intro process hprocess
  cases hprocess

end Runs

/-- There is a run in which a response is announced: a request of zeros is served. -/
theorem answered_history :
    ∃ history state, Recorded
      (CarefulEventStep (enclaveSrsran Aes.encrypt) Aes.encrypt Enclave.builtInKey)
      ⟨newObject, none, none⟩ history state ∧ 0 < (answers history).length := by
  have hfirst : (freshUsim Enclave.builtInKey).fpgaInitialized = false := rfl
  obtain ⟨answered, -, hraised, trace, hreaches⟩ := reaches_answered (enclaveSrsran Aes.encrypt)
    Aes.encrypt Enclave.builtInKey hfirst rfl newObject ⟨0, 0, List.Vector.replicate 92 0⟩
    zeroCall.locals zeroBlock zeroBlock
  have hsteps := ReflTransGen.mono (fun _ _ hstep ↦ carefulEventStep_iff.mpr hstep) _ _ hreaches
  obtain ⟨history, hrun⟩ := reaches_iff_recorded.mp hsteps
  have htallied := tallied_of_run (hrun.mono fun _ _ _ hstep ↦ hstep.1)
  have hlast := htallied.shown rfl hraised
  refine ⟨history, _, hrun, List.length_pos_of_ne_nil fun hnone ↦ ?_⟩
  rw [hnone] at hlast
  cases hlast

section Results

variable {srsran : Srsran} {aes : Block → Block → Block} {k : Block}

/-- In every run there are at most as many announcements as challenges, at most as many challenges
as host processes and as requests posted, and at most as many requests as UE processes. -/
theorem exchanges_counted (memory : SharedData) (history : List Event) (state : SystemState)
    (hrun : Recorded (EventStep srsran aes k) ⟨memory, none, none⟩ history state) :
    (answers history).length ≤ (challenges history).length ∧
      (challenges history).length ≤ hostStarts history ∧
      (challenges history).length ≤ (posts history).length ∧
      (posts history).length ≤ ueStarts history := by
  obtain ⟨⟨taken, hserved⟩, -, left, -, hbound⟩ := tallied_of_run hrun
  have htaken : (challenges history).length = taken.length := by
    rw [hserved.challenges, List.length_map]
  have hanswers := hserved.answers.length_le
  rw [List.length_map] at hanswers
  rw [htaken]
  exact ⟨hanswers, hserved.starts, hserved.posts, (Nat.le_add_right _ _).trans hbound⟩

theorem exchanges_counted_zero :
    ∃ history : List Event, 0 < (answers history).length ∧
      (answers history).length ≤ (challenges history).length ∧
      (challenges history).length ≤ hostStarts history ∧
      (challenges history).length ≤ (posts history).length ∧
      (posts history).length ≤ ueStarts history := by
  obtain ⟨history, state, hrun, hanswered⟩ := answered_history
  exact ⟨history, hanswered,
    exchanges_counted newObject history state (hrun.mono fun _ _ _ hstep ↦ hstep.1)⟩

end Results

end Disguise.Mailbox
