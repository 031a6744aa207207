import Disguise.Mailbox.System

/-!
# Freshness of the mailbox

A UE that leaves its wait loop because it read the flag as set is meant to copy the response the
enclave computed for the request of this very call (`FreshCopies`). The flag is cleared only by the
host, when it picks a command up or is started. In runs that write no request into a mailbox that
is not at rest this suffices (`careful_runs_fresh`): from the moment the request is written until
the call ends, the mailbox goes through three states, in which nothing is announced (`Quiet`), the
request is posted or in the hands of the host (`Pending`), and the response of this request is
there and stays (`Answered`). Without the condition a restarted UE takes the response of an earlier
request for its own (`stale_response_copied`).
-/

set_option autoImplicit false
set_option relaxedAutoImplicit false

namespace Disguise.Mailbox

open Authentication Authentication.Ue Memory Milenage Process Process.Program Relation

/-! ### What a call has copied -/

/-- What a call has loaded from the response in the mailbox is a given response. -/
structure Copied (response : Response) (trace : List (Access Content)) : Prop where
  res : ∀ value, .loaded .res value ∈ trace → value = response.res
  akXorSqn : ∀ value, .loaded .akXorSqn value ∈ trace → value = response.akXorSqn
  ck : ∀ value, .loaded .ck value ∈ trace → value = response.ck
  ik : ∀ value, .loaded .ik value ∈ trace → value = response.ik

/-- If the present call of the UE has read the flag as set, then what it copies is what the enclave
computes for the RAND, OPc and AUTN of this call. -/
def FreshCopies (aes : Block → Block → Block) (k : Block) (state : SystemState) : Prop :=
  ∀ process call, state.ue = some process → process.call = some call →
    .loaded .authResponseReady true ∈ call.trace →
      Copied (Enclave.genAuthResMilenage aes k process.usim.opc call.rand call.autnEnb).response
        call.trace

/-! ### The states of the mailbox during a call -/

section States

variable (aes : Block → Block → Block) (k : Block) (rand opc autn : Block) (memory : SharedData)
  (host : Option HostProcess)

/-- Nothing is announced, and the host has nothing in hand. -/
structure Quiet : Prop where
  commandReady : memory .commandReady = false
  authResponseReady : memory .authResponseReady = false
  host : ∀ process, host = some process → Idle process.rest

/-- The host is at work on the request: it has seen the command, it has picked up a part of the
request, or it has written a part of the response. -/
inductive Working (response : Response) : MailboxProgram Phase → Prop where
  | switch : Working response (.load .commandType fun commandType ↦
      match commandType with
      | .cmdAuthenticate => pickUp
      | .cmdNone | .cmdSwitch | .cmdExit => return .polling)
  | clear : Working response pickUp
  | readRand : Working response (.load Member.randBytes fun randBytes ↦
      .load Member.opcBytes fun opcBytes ↦ .load Member.autenbBytes fun autenbBytes ↦
        .choose fun allocated ↦ if allocated then .store .commandReady false
          (.done (.answering (randBytes.toList ++ opcBytes.toList ++ autenbBytes.toList)))
        else .done .polling)
  | readOpc : Working response (.load Member.opcBytes fun opcBytes ↦
      .load Member.autenbBytes fun autenbBytes ↦
        .choose fun allocated ↦ if allocated then .store .commandReady false
          (.done (.answering (rand.toList ++ opcBytes.toList ++ autenbBytes.toList)))
        else .done .polling)
  | readAutn : Working response (.load Member.autenbBytes fun autenbBytes ↦
      .choose fun allocated ↦ if allocated then .store .commandReady false
        (.done (.answering (rand.toList ++ opc.toList ++ autenbBytes.toList)))
      else .done .polling)
  | allocate : Working response (.choose fun allocated ↦ if allocated then
      .store .commandReady false
        (.done (.answering (rand.toList ++ opc.toList ++ autn.toList)))
      else .done .polling)
  | take : Working response (.store .commandReady false
      (.done (.answering (rand.toList ++ opc.toList ++ autn.toList))))
  | writeRes (htaken : memory .commandReady = false) :
      Working response (sendChallengeResponse response)
  | writeAkXorSqn (htaken : memory .commandReady = false) (hres : memory .res = response.res) :
      Working response (.store .akXorSqn response.akXorSqn (.store .ck response.ck
        (.store .ik response.ik (.store .authResponseReady true (.done .exited)))))
  | writeCk (htaken : memory .commandReady = false) (hres : memory .res = response.res)
      (hakXorSqn : memory .akXorSqn = response.akXorSqn) :
      Working response (.store .ck response.ck
        (.store .ik response.ik (.store .authResponseReady true (.done .exited))))
  | writeIk (htaken : memory .commandReady = false) (hres : memory .res = response.res)
      (hakXorSqn : memory .akXorSqn = response.akXorSqn) (hck : memory .ck = response.ck) :
      Working response (.store .ik response.ik (.store .authResponseReady true (.done .exited)))
  | raise (htaken : memory .commandReady = false) (hholds : Holds memory response) :
      Working response (.store .authResponseReady true (.done .exited))

/-- The request is in the mailbox, no answer is announced, and the host is idle or at work on this
request. -/
structure Pending : Prop where
  randBytes : memory .randBytes = rand
  opcBytes : memory .opcBytes = opc
  autenbBytes : memory .autenbBytes = autn
  authResponseReady : memory .authResponseReady = false
  host : ∀ process, host = some process →
    Idle process.rest ∨ Working rand opc autn memory (respond (aes k) opc rand autn) process.rest

/-- The response to the request is in the mailbox, no command is announced, and the host has nothing
in hand. -/
structure Answered : Prop where
  holds : Holds memory (respond (aes k) opc rand autn)
  commandReady : memory .commandReady = false
  host : ∀ process, host = some process → Idle process.rest

end States

/-! ### Steps of the host -/

section HostSteps

variable {aes : Block → Block → Block} {k rand opc autn : Block} {memory after : SharedData}
  {world : Enclave.World} {program rest : MailboxProgram Phase} {access : Access Content}

/-- What an idle host does while no command is announced: it stays idle, it changes flags only, and
it raises none. -/
theorem idle_step (aes : Block → Block → Block) (k : Block) (world : Enclave.World)
    (hidle : Idle program) (hcommand : memory .commandReady = false)
    (hstep : Step program memory access rest after) :
    Idle (resume aes k world rest) ∧ after .commandReady = false ∧
      (memory .authResponseReady = false → after .authResponseReady = false) ∧
      ∀ cell, cell ≠ .commandReady → cell ≠ .responseReady → cell ≠ .authResponseReady →
        after cell = memory cell := by
  cases hidle with
  | reset =>
    cases hstep
    exact ⟨.resetResponse, rfl, id, fun cell hcell _ _ ↦ Function.update_of_ne hcell _ _⟩
  | resetResponse =>
    cases hstep
    exact ⟨.resetAuthResponse, hcommand, id, fun cell _ hcell _ ↦ Function.update_of_ne hcell _ _⟩
  | resetAuthResponse =>
    cases hstep
    exact ⟨.polling, hcommand, fun _ ↦ rfl, fun cell _ _ hcell ↦ Function.update_of_ne hcell _ _⟩
  | polling =>
    cases hstep
    rw [hcommand]
    exact ⟨.polling, rfl, id, fun _ _ _ _ ↦ rfl⟩
  | exited => cases hstep

/-- A request is posted while its parts are in the mailbox, no answer is announced, and the host is
idle or at work on it. -/
theorem pending_of_program (hrand : memory .randBytes = rand) (hopc : memory .opcBytes = opc)
    (hautn : memory .autenbBytes = autn) (hflag : memory .authResponseReady = false)
    (hprogram : Idle program ∨
      Working rand opc autn memory (respond (aes k) opc rand autn) program) :
    Pending aes k rand opc autn memory (some ⟨world, program⟩) := by
  refine ⟨hrand, hopc, hautn, hflag, ?_⟩
  rintro _ ⟨⟩
  exact hprogram

/-- What an idle host does while a request is posted: it stays idle, or it sees the command. -/
theorem pending_idle_step (hidle : Idle program)
    (hpending : Pending aes k rand opc autn memory (some ⟨world, program⟩))
    (hstep : Step program memory access rest after) :
    Pending aes k rand opc autn after (some ⟨world, resume aes k world rest⟩) := by
  obtain ⟨hrand, hopc, hautn, hflag, -⟩ := hpending
  cases hidle with
  | reset =>
    cases hstep
    exact pending_of_program hrand hopc hautn hflag (Or.inl .resetResponse)
  | resetResponse =>
    cases hstep
    exact pending_of_program hrand hopc hautn hflag (Or.inl .resetAuthResponse)
  | resetAuthResponse =>
    cases hstep
    exact pending_of_program hrand hopc hautn rfl (Or.inl .polling)
  | polling =>
    cases hstep
    refine pending_of_program hrand hopc hautn hflag ?_
    cases hcommand : memory .commandReady with
    | true => exact Or.inr .switch
    | false => exact Or.inl .polling
  | exited => cases hstep

/-- What a host at work on the request does: it goes on with the work, gives it up, or announces the
response. -/
theorem pending_working_step
    (hworking : Working rand opc autn memory (respond (aes k) opc rand autn) program)
    (hpending : Pending aes k rand opc autn memory (some ⟨world, program⟩))
    (hstep : Step program memory access rest after) :
    Pending aes k rand opc autn after (some ⟨world, resume aes k world rest⟩) ∨
      Answered aes k rand opc autn after (some ⟨world, resume aes k world rest⟩) := by
  obtain ⟨hrand, hopc, hautn, hflag, -⟩ := hpending
  cases hworking with
  | switch =>
    cases hstep
    refine Or.inl (pending_of_program hrand hopc hautn hflag ?_)
    cases memory .commandType with
    | cmdAuthenticate => exact Or.inr .clear
    | cmdNone => exact Or.inl .polling
    | cmdSwitch => exact Or.inl .polling
    | cmdExit => exact Or.inl .polling
  | clear =>
    cases hstep
    exact Or.inl (pending_of_program hrand hopc hautn rfl (Or.inr .readRand))
  | readRand =>
    cases hstep
    refine Or.inl (pending_of_program hrand hopc hautn hflag (Or.inr ?_))
    rw [hrand]
    exact .readOpc
  | readOpc =>
    cases hstep
    refine Or.inl (pending_of_program hrand hopc hautn hflag (Or.inr ?_))
    rw [hopc]
    exact .readAutn
  | readAutn =>
    cases hstep
    refine Or.inl (pending_of_program hrand hopc hautn hflag (Or.inr ?_))
    rw [hautn]
    exact .allocate
  | allocate =>
    cases hstep with
    | choose _ allocated _ =>
      refine Or.inl (pending_of_program hrand hopc hautn hflag ?_)
      cases allocated with
      | true => exact Or.inr .take
      | false => exact Or.inl .polling
  | take =>
    cases hstep
    refine Or.inl (pending_of_program hrand hopc hautn hflag (Or.inr ?_))
    show Working _ _ _ _ _ (answer aes k world (rand.toList ++ opc.toList ++ autn.toList))
    rw [answer_eq]
    exact .writeRes rfl
  | writeRes htaken =>
    cases hstep
    exact Or.inl (pending_of_program hrand hopc hautn hflag (Or.inr (.writeAkXorSqn htaken rfl)))
  | writeAkXorSqn htaken hres =>
    cases hstep
    exact Or.inl (pending_of_program hrand hopc hautn hflag (Or.inr (.writeCk htaken hres rfl)))
  | writeCk htaken hres hakXorSqn =>
    cases hstep
    refine Or.inl (pending_of_program hrand hopc hautn hflag (Or.inr ?_))
    exact .writeIk htaken hres hakXorSqn rfl
  | writeIk htaken hres hakXorSqn hck =>
    cases hstep
    refine Or.inl (pending_of_program hrand hopc hautn hflag (Or.inr ?_))
    exact .raise htaken ⟨hres, hakXorSqn, hck, rfl⟩
  | raise htaken hholds =>
    cases hstep
    refine Or.inr ⟨⟨hholds.res, hholds.akXorSqn, hholds.ck, hholds.ik⟩, htaken, ?_⟩
    rintro _ ⟨⟩
    exact .exited

end HostSteps

/-! ### Progress of a call -/

/-- The part of the exchange that copies the response. -/
def copyResponse : MailboxProgram Response := do
  let res ← loadCell .res
  let akXorSqn ← loadCell .akXorSqn
  let ck ← loadCell .ck
  let ik ← loadCell .ik
  return { res, akXorSqn, ck, ik }

/-- The wait loop and what follows it. -/
def awaitResponse (remaining : ℕ) : MailboxProgram Response := do
  waitForResponse remaining
  copyResponse

/-- A UE is writing its request, and the mailbox holds what it has written. -/
inductive Writing (rand opc autn : Block) (memory : SharedData) :
    MailboxProgram Response → Prop where
  | rand : Writing rand opc autn memory (exchange rand opc autn)
  | opc (hrand : memory .randBytes = rand) : Writing rand opc autn memory
      (.store .opcBytes opc (.store .autenbBytes autn (.store .commandType .cmdAuthenticate
        (.store .commandReady true (awaitResponse timeoutSeconds)))))
  | autn (hrand : memory .randBytes = rand) (hopc : memory .opcBytes = opc) :
      Writing rand opc autn memory (.store .autenbBytes autn
        (.store .commandType .cmdAuthenticate
          (.store .commandReady true (awaitResponse timeoutSeconds))))
  | commandType (hrand : memory .randBytes = rand) (hopc : memory .opcBytes = opc)
      (hautn : memory .autenbBytes = autn) : Writing rand opc autn memory
        (.store .commandType .cmdAuthenticate
          (.store .commandReady true (awaitResponse timeoutSeconds)))
  | commandReady (hrand : memory .randBytes = rand) (hopc : memory .opcBytes = opc)
      (hautn : memory .autenbBytes = autn) : Writing rand opc autn memory
        (.store .commandReady true (awaitResponse timeoutSeconds))

/-- All a call has loaded so far is the flag, which was not set. -/
def Unanswered (trace : List (Access Content)) : Prop :=
  ∀ access ∈ trace, access = .loaded .authResponseReady false ∨
    ∃ cell value, access = .stored cell value

/-- How far a call has come, with the state of the mailbox that goes with it. -/
inductive Progress (aes : Block → Block → Block) (k rand opc autn : Block) (memory : SharedData)
    (host : Option HostProcess) {α : Type} :
    MailboxProgram α → List (Access Content) → Prop where
  | writing {program : MailboxProgram Response} {trace : List (Access Content)}
      (finish : Response → α) (hwriting : Writing rand opc autn memory program)
      (hquiet : Quiet memory host) (hunanswered : Unanswered trace) :
      Progress aes k rand opc autn memory host (program >>= fun response ↦ .done (finish response))
        trace
  | waiting {trace : List (Access Content)} (finish : Response → α) (remaining : ℕ)
      (hposted : Pending aes k rand opc autn memory host ∨ Answered aes k rand opc autn memory host)
      (hunanswered : Unanswered trace) :
      Progress aes k rand opc autn memory host
        (awaitResponse remaining >>= fun response ↦ .done (finish response)) trace
  /-- The call copies the response it was announced. -/
  | answered {rest : MailboxProgram α} {trace : List (Access Content)}
      (hanswered : Answered aes k rand opc autn memory host)
      (hloads : OnlyLoads (fun cell ↦ cell ≠ .authResponseReady) rest)
      (hcopied : Copied (respond (aes k) opc rand autn) trace) :
      Progress aes k rand opc autn memory host rest trace
  /-- The call has timed out, or does not use the mailbox. -/
  | unannounced {rest : MailboxProgram α} {trace : List (Access Content)}
      (hloads : OnlyLoads (fun cell ↦ cell ≠ .authResponseReady) rest)
      (hnone : .loaded .authResponseReady true ∉ trace) :
      Progress aes k rand opc autn memory host rest trace

/-! ### Steps of the call -/

section CallSteps

variable {aes : Block → Block → Block} {k rand opc autn : Block} {memory after : SharedData}
  {host : Option HostProcess} {α : Type} {program rest : MailboxProgram α}
  {access : Access Content} {trace : List (Access Content)}

/-- A store keeps a trace unanswered. -/
theorem Unanswered.append_stored (hunanswered : Unanswered trace) (cell : Member)
    (value : Content cell) : Unanswered (trace ++ [.stored cell value]) := by
  intro access hmem
  rcases List.mem_append.mp hmem with hearlier | hlast
  · exact hunanswered access hearlier
  · exact Or.inr ⟨cell, value, List.mem_singleton.mp hlast⟩

/-- A poll that fails keeps a trace unanswered. -/
theorem Unanswered.append_polled (hunanswered : Unanswered trace) :
    Unanswered (trace ++ [.loaded .authResponseReady false]) := by
  intro access hmem
  rcases List.mem_append.mp hmem with hearlier | hlast
  · exact hunanswered access hearlier
  · exact Or.inl (List.mem_singleton.mp hlast)

theorem Unanswered.not_announced (hunanswered : Unanswered trace) :
    .loaded .authResponseReady true ∉ trace := by
  intro hmem
  rcases hunanswered _ hmem with hpoll | ⟨cell, value, hstored⟩
  · cases hpoll
  · cases hstored

/-- An unanswered call that reads the flag as set has copied nothing yet. -/
theorem Unanswered.copied (hunanswered : Unanswered trace) (response : Response) :
    Copied response (trace ++ [.loaded .authResponseReady true]) := by
  have hnothing : ∀ cell (value : Content cell), cell ≠ .authResponseReady →
      .loaded cell value ∉ trace ++ [.loaded .authResponseReady true] := by
    intro cell value hcell hmem
    rcases List.mem_append.mp hmem with hearlier | hlast
    · rcases hunanswered _ hearlier with hpoll | ⟨_, _, hstored⟩
      · cases hpoll
        exact hcell rfl
      · cases hstored
    · cases List.mem_singleton.mp hlast
      exact hcell rfl
  exact ⟨fun value hmem ↦ absurd hmem (hnothing .res value Member.noConfusion),
    fun value hmem ↦ absurd hmem (hnothing .akXorSqn value Member.noConfusion),
    fun value hmem ↦ absurd hmem (hnothing .ck value Member.noConfusion),
    fun value hmem ↦ absurd hmem (hnothing .ik value Member.noConfusion)⟩

/-- One more load from a mailbox that holds the response. -/
theorem Copied.append {response : Response} (hcopied : Copied response trace)
    (hholds : Holds memory response)
    (hload : ∀ cell value, access = .loaded cell value → value = memory cell) :
    Copied response (trace ++ [access]) := by
  have hlast : ∀ cell (value : Content cell), .loaded cell value ∈ trace ++ [access] →
      .loaded cell value ∈ trace ∨ value = memory cell := by
    intro cell value hmem
    rcases List.mem_append.mp hmem with hearlier | hlast
    · exact Or.inl hearlier
    · exact Or.inr (hload cell value (List.mem_singleton.mp hlast).symm)
  exact ⟨fun value hmem ↦ (hlast _ value hmem).elim (hcopied.res value) (·.trans hholds.res),
    fun value hmem ↦ (hlast _ value hmem).elim (hcopied.akXorSqn value) (·.trans hholds.akXorSqn),
    fun value hmem ↦ (hlast _ value hmem).elim (hcopied.ck value) (·.trans hholds.ck),
    fun value hmem ↦ (hlast _ value hmem).elim (hcopied.ik value) (·.trans hholds.ik)⟩

/-- What is left to do after the wait loop reads neither flag. -/
theorem copyResponse_onlyLoads (finish : Response → α) :
    OnlyLoads (fun cell ↦ cell ≠ .authResponseReady)
      (copyResponse >>= fun response ↦ .done (finish response)) :=
  ⟨Member.noConfusion, fun _ ↦ ⟨Member.noConfusion, fun _ ↦ ⟨Member.noConfusion, fun _ ↦
    ⟨Member.noConfusion, fun _ ↦ trivial⟩⟩⟩⟩

/-- Only the cells of the request matter to a UE that is writing it. -/
theorem Writing.of_eq {program : MailboxProgram Response}
    (hwriting : Writing rand opc autn memory program)
    (hrandEq : after .randBytes = memory .randBytes) (hopcEq : after .opcBytes = memory .opcBytes)
    (hautnEq : after .autenbBytes = memory .autenbBytes) :
    Writing rand opc autn after program := by
  cases hwriting with
  | rand => exact .rand
  | opc hrand => exact .opc (hrandEq.trans hrand)
  | autn hrand hopc => exact .autn (hrandEq.trans hrand) (hopcEq.trans hopc)
  | commandType hrand hopc hautn =>
    exact .commandType (hrandEq.trans hrand) (hopcEq.trans hopc) (hautnEq.trans hautn)
  | commandReady hrand hopc hautn =>
    exact .commandReady (hrandEq.trans hrand) (hopcEq.trans hopc) (hautnEq.trans hautn)

/-- A UE that is writing its request goes on writing into a mailbox in which nothing is announced,
or has posted the request. -/
theorem Writing.step (aes : Block → Block → Block) (k : Block)
    {program next : MailboxProgram Response} (hwriting : Writing rand opc autn memory program)
    (hquiet : Quiet memory host) (hstep : Step program memory access next after) :
    (∃ cell value, access = .stored cell value) ∧
      (Writing rand opc autn after next ∧ Quiet after host ∨
        next = awaitResponse timeoutSeconds ∧ Pending aes k rand opc autn after host) := by
  obtain ⟨hcommand, hflag, hidle⟩ := hquiet
  cases hwriting with
  | rand =>
    cases hstep
    exact ⟨⟨_, _, rfl⟩, Or.inl ⟨.opc rfl, hcommand, hflag, hidle⟩⟩
  | opc hrand =>
    cases hstep
    exact ⟨⟨_, _, rfl⟩, Or.inl ⟨.autn hrand rfl, hcommand, hflag, hidle⟩⟩
  | autn hrand hopc =>
    cases hstep
    exact ⟨⟨_, _, rfl⟩, Or.inl ⟨.commandType hrand hopc rfl, hcommand, hflag, hidle⟩⟩
  | commandType hrand hopc hautn =>
    cases hstep
    exact ⟨⟨_, _, rfl⟩, Or.inl ⟨.commandReady hrand hopc hautn, hcommand, hflag, hidle⟩⟩
  | commandReady hrand hopc hautn =>
    cases hstep
    exact ⟨⟨_, _, rfl⟩, Or.inr ⟨rfl, hrand, hopc, hautn, hflag, fun process hprocess ↦
      Or.inl (hidle process hprocess)⟩⟩

/-- An access of the UE. -/
theorem Progress.ueAccess (hprogress : Progress aes k rand opc autn memory host program trace)
    (hstep : Step program memory access rest after) :
    Progress aes k rand opc autn after host rest (trace ++ [access]) := by
  cases hprogress with
  | @writing written _ finish hwriting hquiet hunanswered =>
    rcases step_bind hstep with ⟨result, rfl⟩ | ⟨next, hnext, rfl⟩
    · nomatch hwriting
    obtain ⟨⟨cell, value, rfl⟩, hgoing | ⟨rfl, hpending⟩⟩ :=
      hwriting.step aes k hquiet hnext
    · exact .writing finish hgoing.1 hgoing.2 (hunanswered.append_stored cell value)
    · exact .waiting finish timeoutSeconds (Or.inl hpending) (hunanswered.append_stored cell value)
  | waiting finish remaining hposted hunanswered =>
    cases hflag : memory .authResponseReady with
    | true =>
      -- only an answered request is announced
      have hanswered : Answered aes k rand opc autn memory host := by
        rcases hposted with hpending | hanswered
        · rw [hpending.authResponseReady] at hflag
          cases hflag
        · exact hanswered
      cases remaining with
      | zero =>
        cases hstep
        rw [hflag]
        exact .answered hanswered (copyResponse_onlyLoads finish) (hunanswered.copied _)
      | succ remaining =>
        cases hstep
        rw [hflag]
        exact .answered hanswered (copyResponse_onlyLoads finish) (hunanswered.copied _)
    | false =>
      cases remaining with
      | zero =>
        cases hstep
        rw [hflag]
        exact .unannounced (copyResponse_onlyLoads finish)
          hunanswered.append_polled.not_announced
      | succ remaining =>
        cases hstep
        rw [hflag]
        exact .waiting finish remaining hposted hunanswered.append_polled
  | answered hanswered hloads hcopied =>
    obtain ⟨rfl, hrest, hload⟩ := hloads.step hstep
    exact .answered hanswered hrest
      (hcopied.append hanswered.holds fun cell value haccess ↦ (hload cell value haccess).2)
  | unannounced hloads hnone =>
    obtain ⟨rfl, hrest, hload⟩ := hloads.step hstep
    refine .unannounced hrest fun hmem ↦ ?_
    rcases List.mem_append.mp hmem with hearlier | hlast
    · exact hnone hearlier
    · exact (hload _ _ (List.mem_singleton.mp hlast).symm).1 rfl

/-- A change of the host process that leaves no request in the hands of a host. -/
theorem Progress.hostIdle {other : Option HostProcess}
    (hprogress : Progress aes k rand opc autn memory host program trace)
    (hidle : ∀ process, other = some process → Idle process.rest) :
    Progress aes k rand opc autn memory other program trace := by
  cases hprogress with
  | writing finish hwriting hquiet hunanswered =>
    exact .writing finish hwriting { hquiet with host := hidle } hunanswered
  | waiting finish remaining hposted hunanswered =>
    refine .waiting finish remaining ?_ hunanswered
    rcases hposted with hpending | hanswered
    · exact Or.inl { hpending with host := fun process hprocess ↦ Or.inl (hidle process hprocess) }
    · exact Or.inr { hanswered with host := hidle }
  | answered hanswered hloads hcopied =>
    exact .answered { hanswered with host := hidle } hloads hcopied
  | unannounced hloads hnone => exact .unannounced hloads hnone

/-- A call that has read the flag as set copies the response to its request. -/
theorem Progress.copied (hprogress : Progress aes k rand opc autn memory host program trace)
    (hannounced : .loaded .authResponseReady true ∈ trace) :
    Copied (respond (aes k) opc rand autn) trace := by
  cases hprogress with
  | writing finish hwriting hquiet hunanswered =>
    exact absurd hannounced hunanswered.not_announced
  | waiting finish remaining hposted hunanswered =>
    exact absurd hannounced hunanswered.not_announced
  | answered hanswered hloads hcopied => exact hcopied
  | unannounced hloads hnone => exact absurd hannounced hnone

end CallSteps

/-! ### Accesses of the host during a call -/

section HostAccess

variable {aes : Block → Block → Block} {k rand opc autn : Block} {memory after : SharedData}
  {process : HostProcess} {next : MailboxProgram Phase} {access : Access Content}

/-- The host process after an access. -/
def HostProcess.accessed (aes : Block → Block → Block) (k : Block) (process : HostProcess)
    (next : MailboxProgram Phase) : HostProcess :=
  { process with rest := resume aes k process.world next }

theorem Quiet.hostAccess (hquiet : Quiet memory (some process))
    (hstep : Step process.rest memory access next after) :
    Quiet after (some (process.accessed aes k next)) ∧
      after .randBytes = memory .randBytes ∧ after .opcBytes = memory .opcBytes ∧
      after .autenbBytes = memory .autenbBytes := by
  obtain ⟨hidle, hcommand, hflag, hkeeps⟩ := idle_step aes k process.world
    (hquiet.host process rfl) hquiet.commandReady hstep
  refine ⟨⟨hcommand, hflag hquiet.authResponseReady, ?_⟩, ?_, ?_, ?_⟩
  · rintro _ ⟨⟩
    exact hidle
  all_goals exact hkeeps _ Member.noConfusion Member.noConfusion Member.noConfusion

theorem Answered.hostAccess (hanswered : Answered aes k rand opc autn memory (some process))
    (hstep : Step process.rest memory access next after) :
    Answered aes k rand opc autn after (some (process.accessed aes k next)) := by
  obtain ⟨hidle, hcommand, -, hkeeps⟩ := idle_step aes k process.world
    (hanswered.host process rfl) hanswered.commandReady hstep
  obtain ⟨hres, hakXorSqn, hck, hik⟩ := hanswered.holds
  refine ⟨⟨?_, ?_, ?_, ?_⟩, hcommand, ?_⟩
  · exact (hkeeps .res Member.noConfusion Member.noConfusion Member.noConfusion).trans hres
  · exact (hkeeps .akXorSqn Member.noConfusion Member.noConfusion Member.noConfusion).trans
      hakXorSqn
  · exact (hkeeps .ck Member.noConfusion Member.noConfusion Member.noConfusion).trans hck
  · exact (hkeeps .ik Member.noConfusion Member.noConfusion Member.noConfusion).trans hik
  · rintro _ ⟨⟩
    exact hidle

theorem Pending.hostAccess (hpending : Pending aes k rand opc autn memory (some process))
    (hstep : Step process.rest memory access next after) :
    Pending aes k rand opc autn after (some (process.accessed aes k next)) ∨
      Answered aes k rand opc autn after (some (process.accessed aes k next)) := by
  rcases hpending.host process rfl with hidle | hworking
  · exact Or.inl (pending_idle_step hidle hpending hstep)
  · exact pending_working_step hworking hpending hstep

/-- An access of the host. -/
theorem Progress.hostAccess {α : Type} {program : MailboxProgram α} {trace : List (Access Content)}
    (hprogress : Progress aes k rand opc autn memory (some process) program trace)
    (hstep : Step process.rest memory access next after) :
    Progress aes k rand opc autn after (some (process.accessed aes k next)) program trace := by
  cases hprogress with
  | writing finish hwriting hquiet hunanswered =>
    obtain ⟨hstill, hrand, hopc, hautn⟩ := hquiet.hostAccess hstep
    exact .writing finish (hwriting.of_eq hrand hopc hautn) hstill hunanswered
  | waiting finish remaining hposted hunanswered =>
    refine .waiting finish remaining ?_ hunanswered
    rcases hposted with hpending | hanswered
    · exact hpending.hostAccess hstep
    · exact Or.inr (hanswered.hostAccess hstep)
  | answered hanswered hloads hcopied =>
    exact .answered (hanswered.hostAccess hstep) hloads hcopied
  | unannounced hloads hnone => exact .unannounced hloads hnone

end HostAccess

/-! ### Runs that write only into a mailbox at rest -/

section Runs

variable {srsran : Srsran} {aes : Block → Block → Block} {k : Block}

/-- The call of a state, if there is one, makes progress. -/
def Progressing (aes : Block → Block → Block) (k : Block) (state : SystemState) : Prop :=
  ∀ process call, state.ue = some process → process.call = some call →
    Progress aes k call.rand process.usim.opc call.autnEnb state.memory state.host call.rest
      call.trace

/-- A call that begins. One that uses the mailbox begins to write its request. -/
theorem progress_start {memory : SharedData} {host : Option HostProcess} (usim : Usim)
    (outputs : Outputs) (rand autnEnb : Block)
    (hrest : usim.fpgaInitialized = false → usim.sharedData = .mapped → Quiet memory host) :
    Progress aes k rand usim.opc autnEnb memory host
      (genAuthResMilenageVsim srsran usim outputs rand autnEnb) [] := by
  have hnone : (.loaded .authResponseReady true : Access Content) ∉ [] := List.not_mem_nil
  unfold genAuthResMilenageVsim
  split_ifs with hfirst hunmapped
  · exact .unannounced trivial hnone
  · have hquiet := hrest hfirst (not_not.mp hunmapped)
    exact .writing _ .rand hquiet fun access hmem ↦ absurd hmem List.not_mem_nil
  · exact .unannounced trivial hnone

/-- A careful step keeps the call making progress. -/
theorem Progressing.step {before after : SystemState} (hprogress : Progressing aes k before)
    (hstep : CarefulStep srsran aes k before after) : Progressing aes k after := by
  obtain ⟨hstep, hcareful⟩ := hstep
  intro process call hprocess hcall
  cases hstep with
  | ueStarts memory host usim hfirst =>
    obtain rfl := Option.some_inj.mp hprocess
    cases hcall
  | ueCalls memory host usim outputs rand autnEnb =>
    obtain rfl := Option.some_inj.mp hprocess
    obtain rfl := Option.some_inj.mp hcall
    refine progress_start usim outputs rand autnEnb fun hfirst hmapped ↦ ?_
    have hresting := hcareful ⟨_, rfl, rfl, hfirst, hmapped, _, rfl, Option.some_ne_none _⟩
    exact ⟨hresting.commandReady, hresting.authResponseReady, hresting.host⟩
  | ueAccesses memory _ host usim earlier access rest haccess =>
    obtain rfl := Option.some_inj.mp hprocess
    obtain rfl := Option.some_inj.mp hcall
    exact (hprogress _ _ rfl rfl).ueAccess haccess
  | ueReturns memory host usim earlier result hdone =>
    obtain rfl := Option.some_inj.mp hprocess
    cases hcall
  | ueEnds memory host ue => cases hprocess
  | hostStarts memory ue world =>
    refine (hprogress process call hprocess hcall).hostIdle ?_
    rintro _ ⟨⟩
    exact .reset
  | hostAccesses memory _ ue host access rest haccess =>
    exact (hprogress process call hprocess hcall).hostAccess haccess
  | hostEnds memory ue host =>
    refine (hprogress process call hprocess hcall).hostIdle ?_
    rintro _ ⟨⟩

/-- A call that makes progress copies its own response. -/
theorem Progressing.freshCopies {state : SystemState} (hprogress : Progressing aes k state) :
    FreshCopies aes k state := by
  intro process call hprocess hcall hannounced
  rw [Enclave.genAuthResMilenage_eq]
  exact (hprogress process call hprocess hcall).copied hannounced

/-- In every run in which requests are written only into a mailbox at rest, a UE that leaves its
wait loop because the flag is set copies what the enclave computes for the request of this call.
The object may hold anything at the start, and both processes may be killed and started again at any
moment. -/
theorem careful_runs_fresh (memory : SharedData) (state : SystemState)
    (hrun : ReflTransGen (CarefulStep srsran aes k) ⟨memory, none, none⟩ state) :
    FreshCopies aes k state := by
  have hprogress : Progressing aes k state := by
    induction hrun with
    | refl =>
      intro process call hprocess
      cases hprocess
    | tail _ hstep ih => exact ih.step hstep
  exact hprogress.freshCopies

end Runs

/-! ### Requests one after the other -/

section Requests

variable (srsran : Srsran) (aes : Block → Block → Block) (k : Block)

/-- A call in which the UE has loaded the flag and the response of the mailbox. -/
def loadedResponse (memory : SharedData) : List (Access Content) :=
  [.loaded .authResponseReady (memory .authResponseReady), .loaded .res (memory .res),
    .loaded .akXorSqn (memory .akXorSqn), .loaded .ck (memory .ck), .loaded .ik (memory .ik)]

/-- A host that is started resets the flags and polls. -/
theorem reaches_polling (memory : SharedData) (ue : Option UeProcess) (world : Enclave.World) :
    ReflTransGen (CarefulStep srsran aes k) ⟨memory, ue, none⟩
      ⟨(run (alone fun _ ↦ true) resetFlags 0 memory).memory, ue,
        some ⟨world, sendChallengeToVsim⟩⟩ := by
  refine .head (carefulStep_of_ue_eq (.hostStarts memory ue world) rfl) ?_
  exact reaches_host (run_alone_steps (fun _ ↦ true) resetFlags 0 memory) (List.cons_ne_nil _ _)

/-- A host that polls serves a request that is posted. -/
theorem reaches_served {memory : SharedData} {rand opc autn : Block}
    (hposted : Posted memory rand opc autn) (ue : Option UeProcess) (world : Enclave.World) :
    ReflTransGen (CarefulStep srsran aes k) ⟨memory, ue, some ⟨world, sendChallengeToVsim⟩⟩
      ⟨hostTurn aes k world memory, ue, some ⟨world, .done .exited⟩⟩ := by
  have hpolled := run_alone_steps (fun _ ↦ true) sendChallengeToVsim 0 memory
  rw [poll_posted hposted] at hpolled
  refine (reaches_host hpolled (List.cons_ne_nil _ _)).trans ?_
  rw [hostTurn_eq aes k world hposted]
  show ReflTransGen _ (⟨_, ue, some ⟨world, answer aes k world _⟩⟩ : SystemState) _
  rw [answer_eq]
  exact reaches_host (run_alone_steps (fun _ ↦ true)
    (sendChallengeResponse (respond (aes k) opc rand autn)) 0 _) (List.cons_ne_nil _ _)

/-- The first steps of the mailbox part of a call write the request. -/
theorem steps_requested (memory : SharedData) (rand opc autn : Block) :
    Steps (exchange rand opc autn) memory
      [.stored .randBytes rand, .stored .opcBytes opc, .stored .autenbBytes autn,
        .stored .commandType .cmdAuthenticate, .stored .commandReady true]
      (awaitResponse timeoutSeconds) (requested memory rand opc autn) :=
  .head (.store _ _ _ _) (.head (.store _ _ _ _) (.head (.store _ _ _ _)
    (.head (.store _ _ _ _) (.head (.store _ _ _ _) (.refl _ _)))))

/-- If the flag is set, the next steps copy what the mailbox holds. -/
theorem steps_copied {memory : SharedData} (hflag : memory .authResponseReady = true) :
    Steps (awaitResponse timeoutSeconds) memory (loadedResponse memory)
      (.done ⟨memory .res, memory .akXorSqn, memory .ck, memory .ik⟩) memory := by
  refine .head (.load _ _ _) ?_
  rw [hflag]
  exact .head (.load _ _ _) (.head (.load _ _ _) (.head (.load _ _ _) (.head (.load _ _ _)
    (.refl _ _))))

/-- A call that uses the mailbox writes its request. -/
theorem reaches_requested {memory : SharedData} {host : Option HostProcess} {usim : Usim}
    (hfirst : usim.fpgaInitialized = false) (hmapped : usim.sharedData = .mapped)
    (outputs : Outputs) (rand autnEnb : Block) :
    ReflTransGen (CarefulStep srsran aes k)
      ⟨memory, some ⟨usim, some ⟨rand, autnEnb,
        genAuthResMilenageVsim srsran usim outputs rand autnEnb, []⟩⟩, host⟩
      ⟨requested memory rand usim.opc autnEnb, some ⟨usim, some ⟨rand, autnEnb,
        awaitResponse timeoutSeconds >>= fun response ↦ .done (takenFrom usim response),
        [.stored .randBytes rand, .stored .opcBytes usim.opc, .stored .autenbBytes autnEnb,
          .stored .commandType .cmdAuthenticate, .stored .commandReady true]⟩⟩, host⟩ := by
  have hprogram : genAuthResMilenageVsim srsran usim outputs rand autnEnb =
      exchange rand usim.opc autnEnb >>= fun response ↦ .done (takenFrom usim response) := by
    rw [genAuthResMilenageVsim, if_pos hfirst, if_neg (not_not.mpr hmapped)]
    rfl
  rw [hprogram]
  exact reaches_ue ((steps_requested memory rand usim.opc autnEnb).bind _) []

/-- From any object, a host and a UE can be started, and the first request of the UE is served. -/
theorem reaches_answered {usim : Usim} (hfirst : usim.fpgaInitialized = false)
    (hmapped : usim.sharedData = .mapped) (memory : SharedData) (world : Enclave.World)
    (outputs : Outputs) (rand autnEnb : Block) :
    ∃ answered, Holds answered (respond (aes k) usim.opc rand autnEnb) ∧
      answered .authResponseReady = true ∧
      ∃ trace, ReflTransGen (CarefulStep srsran aes k) ⟨memory, none, none⟩
        ⟨answered, some ⟨usim, some ⟨rand, autnEnb,
          awaitResponse timeoutSeconds >>= fun response ↦ .done (takenFrom usim response), trace⟩⟩,
          some ⟨world, .done .exited⟩⟩ := by
  have hposted := posted_requested (run (alone fun _ ↦ true) resetFlags 0 memory).memory rand
    usim.opc autnEnb
  obtain ⟨hholds, hraised⟩ := hostTurn_posted aes k world hposted
  have hserved := (reaches_requested srsran aes k hfirst hmapped outputs rand autnEnb).trans
    (reaches_served srsran aes k hposted _ world)
  refine ⟨_, hholds, hraised, _, (reaches_polling srsran aes k memory none world).trans
    (.head ⟨.ueStarts _ _ usim hfirst, ?_⟩
      (.head ⟨.ueCalls _ _ usim outputs rand autnEnb, fun _ ↦ ⟨rfl, rfl, ?_⟩⟩ hserved))⟩
  · rintro ⟨process, hue, -⟩
    cases hue
  · rintro _ ⟨⟩
    exact .polling

/-- A UE that is restarted after its request was served takes the response of that request for the
response to its next one: nothing has cleared the flag. -/
theorem reaches_stale {usim : Usim} (hfirst : usim.fpgaInitialized = false)
    (hmapped : usim.sharedData = .mapped) (memory : SharedData) (world : Enclave.World)
    (outputs : Outputs) (rand autnEnb laterRand laterAutnEnb : Block) :
    ∃ state process call, ReflTransGen (SystemStep srsran aes k) ⟨memory, none, none⟩ state ∧
      state.ue = some process ∧ process.usim = usim ∧ process.call = some call ∧
      call.rand = laterRand ∧ call.autnEnb = laterAutnEnb ∧
      .loaded .authResponseReady true ∈ call.trace ∧
      .loaded .akXorSqn (slice autnEnb 0 6) ∈ call.trace := by
  obtain ⟨answered, hholds, hraised, _, hanswered⟩ :=
    reaches_answered srsran aes k hfirst hmapped memory world outputs rand autnEnb
  have hflag : requested answered laterRand usim.opc laterAutnEnb .authResponseReady = true :=
    hraised
  have hstale : requested answered laterRand usim.opc laterAutnEnb .akXorSqn = slice autnEnb 0 6 :=
    hholds.akXorSqn
  have hcopied := (steps_copied hflag).bind fun response ↦
    (.done (takenFrom usim response) : MailboxProgram (AuthResult × Outputs × Usim))
  have hcareful : ∀ before after : SystemState,
      ReflTransGen (CarefulStep srsran aes k) before after →
        ReflTransGen (SystemStep srsran aes k) before after :=
    ReflTransGen.mono fun _ _ hstep ↦ hstep.1
  have hrun := (hcareful _ _ hanswered).trans (.head (.ueEnds _ _ _)
    (.head (.ueStarts _ _ usim hfirst)
      (.head (.ueCalls _ _ usim outputs laterRand laterAutnEnb) (hcareful _ _
      ((reaches_requested srsran aes k hfirst hmapped outputs laterRand laterAutnEnb).trans
        (reaches_ue hcopied _))))))
  refine ⟨_, _, _, hrun, rfl, rfl, rfl, rfl, rfl, ?_, ?_⟩
  · rw [← hflag]
    exact List.mem_append_right _ List.mem_cons_self
  · rw [← hstale]
    exact List.mem_append_right _
      (List.mem_cons_of_mem _ (List.mem_cons_of_mem _ List.mem_cons_self))

end Requests

/-! ### Concrete runs -/

/-- An object that has just been created. -/
def newObject : SharedData := Function.update restingMailbox .commandType .cmdNone

/-- A token of ones. -/
def onesToken : Block := List.Vector.replicate 16 1

/-- A request of zeros that is served, over the AES of the enclave. -/
theorem careful_runs_fresh_zero :
    ∃ state, FreshCopies Aes.encrypt Enclave.builtInKey state ∧
      ∃ process call, state.ue = some process ∧ process.call = some call ∧
        .loaded .authResponseReady true ∈ call.trace := by
  have hfirst : (freshUsim Enclave.builtInKey).fpgaInitialized = false := rfl
  obtain ⟨answered, -, hraised, trace, hrun⟩ := reaches_answered (enclaveSrsran Aes.encrypt)
    Aes.encrypt Enclave.builtInKey hfirst rfl newObject ⟨0, 0, List.Vector.replicate 92 0⟩
    zeroCall.locals zeroBlock zeroBlock
  have hcopied := hrun.trans (reaches_ue
    ((steps_copied hraised).bind fun response ↦ .done (takenFrom _ response)) trace)
  refine ⟨_, careful_runs_fresh newObject _ hcopied, _, _, rfl, rfl, ?_⟩
  rw [← hraised]
  exact List.mem_append_right _ List.mem_cons_self

/-- A UE whose call with a token of zeros was served is restarted and called with a token of ones:
it copies the masked sequence number of the first token. -/
theorem stale_response_copied :
    ¬ ∀ state, ReflTransGen (SystemStep (enclaveSrsran Aes.encrypt) Aes.encrypt Enclave.builtInKey)
      ⟨newObject, none, none⟩ state → FreshCopies Aes.encrypt Enclave.builtInKey state := by
  intro hfresh
  have hfirst : (freshUsim Enclave.builtInKey).fpgaInitialized = false := rfl
  obtain ⟨state, process, call, hrun, hue, husim, hcall, hrand, hautnEnb, hannounced, hstale⟩ :=
    reaches_stale (enclaveSrsran Aes.encrypt) Aes.encrypt Enclave.builtInKey hfirst rfl newObject
      ⟨0, 0, List.Vector.replicate 92 0⟩ zeroCall.locals zeroBlock zeroBlock zeroBlock onesToken
  have hcopied := (hfresh state hrun process call hue hcall hannounced).akXorSqn _ hstale
  rw [Enclave.genAuthResMilenage_eq, hautnEnb] at hcopied
  exact absurd hcopied (by decide : (slice zeroBlock 0 6 : Octets 6) ≠ slice onesToken 0 6)

end Disguise.Mailbox
