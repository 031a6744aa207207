import Disguise.Mailbox.Pipeline

/-!
# Agreement with the home network

The home network builds a token for a sequence number with the key of the subscriber, and derives
the expected response and K_AMF from the same challenge. A UE that was given the key, the OPc and
the IMSI of the subscriber derives the same values, on the standard path
(`standard_path_agrees`) and in whole runs with the virtual SIM, where the first response comes
from the enclave through the mailbox (`vsim_runs_agree`). So the network accepts the response, and
both sides go on with the same key.
-/

set_option autoImplicit false
set_option relaxedAutoImplicit false

namespace Disguise.Authentication.Ue

open Mailbox Memory Milenage Process Process.Program

/-! ### The home network -/

/-- What the home network knows of a subscriber. -/
structure Subscriber where
  k : Block
  opc : Block
  imsi : String

section Network

variable (srsran : Srsran) (aes : Block → Block → Block) (subscriber : Subscriber)

/-- The token of the home network for a challenge. -/
def networkToken (rand : Block) (sqn : Octets 6) (amf : Octets 2) : Block :=
  token (aes subscriber.k) subscriber.opc rand sqn amf

/-- XRES*, which the network compares with RES*. -/
def networkResStar (rand : Block) (servingNetworkName : String) : Octets 16 :=
  let vector := f2345 (aes subscriber.k) subscriber.opc rand
  srsran.securityGenerateResStar vector.ck vector.ik servingNetworkName rand vector.res 8

/-- K_AMF. -/
def networkKAmf (rand : Block) (sqn : Octets 6) (servingNetworkName : String)
    (abba : List UInt8) : Octets 32 :=
  let vector := f2345 (aes subscriber.k) subscriber.opc rand
  let kAusf := srsran.securityGenerateKAusf vector.ck vector.ik (xorOctets sqn vector.ak)
    servingNetworkName
  let kSeaf := srsran.securityGenerateKSeaf kAusf servingNetworkName
  srsran.securityGenerateKAmf kSeaf subscriber.imsi abba

/-- A call was made with a token of the home network. -/
def FromNetwork (call : Call5g) (sqn : Octets 6) : Prop :=
  ∃ amf, call.autnEnb = networkToken aes subscriber call.rand sqn amf

/-- A call succeeds with the response and the key the network expects. -/
structure Agrees (call : Call5g) (sqn : Octets 6) (response : Response5g) : Prop where
  authResult : response.authResult = .authOk
  resStar : response.resStar =
    networkResStar srsran aes subscriber call.rand call.servingNetworkName
  kAmf : response.kAmf =
    networkKAmf srsran aes subscriber call.rand sqn call.servingNetworkName call.abba

/-- A UE has the data of the subscriber, and uses Milenage. -/
structure Provisioned (usim : Usim) : Prop where
  authAlgo : usim.authAlgo = .milenage
  k : usim.k = subscriber.k
  opc : usim.opc = subscriber.opc
  imsiStr : usim.imsiStr = subscriber.imsi

variable {srsran aes subscriber}

/-! ### One call -/

/-- From the response of the standard to a token of the network, a UE derives what the network
derives. -/
theorem deriveKeys_agrees {call : Call5g} {sqn : Octets 6} {outputs : Outputs} {usim : Usim}
    (hnetwork : FromNetwork aes subscriber call sqn)
    (hleaves : leaves (.authOk, outputs, usim) =
      respond (aes subscriber.k) subscriber.opc call.rand call.autnEnb)
    (hlength : outputs.resLen = 8) (himsi : usim.imsiStr = subscriber.imsi) :
    Agrees srsran aes subscriber call sqn
      (deriveKeys srsran call (.authOk, outputs, usim)).1 := by
  obtain ⟨amf, htoken⟩ := hnetwork
  obtain ⟨hsqn, -, -⟩ := (block_eq_append_iff _ _ _ _).mp htoken
  have hres : outputs.res = f2 (aes subscriber.k) subscriber.opc call.rand :=
    congrArg Response.res hleaves
  have hck : usim.ck = f3 (aes subscriber.k) subscriber.opc call.rand :=
    congrArg Response.ck hleaves
  have hik : usim.ik = f4 (aes subscriber.k) subscriber.opc call.rand :=
    congrArg Response.ik hleaves
  have hmasked : outputs.akXorSqn =
      xorOctets sqn (f5 (aes subscriber.k) subscriber.opc call.rand) :=
    (congrArg Response.akXorSqn hleaves).trans hsqn
  refine ⟨rfl, ?_, ?_⟩
  · simp only [deriveKeys, if_true, hres, hck, hik, hlength]
    rfl
  · simp only [deriveKeys, if_true, hck, hik, hmasked, himsi]
    rfl

/-- A UE that computes the response itself derives what the network derives, whether it heeds its
own verdict or not. -/
theorem local_agrees (hmilenage : ComputesMilenage srsran aes) {usim : Usim}
    (hprovisioned : Provisioned subscriber usim) {call : Call5g} {sqn : Octets 6}
    (hnetwork : FromNetwork aes subscriber call sqn) :
    Agrees srsran aes subscriber call sqn (deriveKeys srsran call
      (.authOk, (genAuthResMilenage srsran usim call.rand call.autnEnb).2)).1 := by
  have hleaves := leaves_genAuthResMilenage hmilenage usim call.rand call.autnEnb
  rw [hprovisioned.k, hprovisioned.opc] at hleaves
  exact deriveKeys_agrees hnetwork hleaves rfl hprovisioned.imsiStr

/-- On the standard path a call succeeds exactly for the tokens of the network, and then agrees with
it. For the others it leaves RES* and K_AMF as they are.

Assumes: the Milenage functions of srsRAN compute those of the standard, `USE_VSIM` is not set, and
the UE has the data of the subscriber. -/
theorem standard_path_agrees (hmilenage : ComputesMilenage srsran aes) {useVsimEnv : Option String}
    (hstandard : ¬ usesVsim useVsimEnv) {usim : Usim} (hprovisioned : Provisioned subscriber usim)
    (call : Call5g) :
    ∃ response after,
      generateAuthenticationResponse5g srsran useVsimEnv usim call = .done (response, after) ∧
      Provisioned subscriber after ∧
      (response.authResult = .authOk ↔ ∃ sqn, FromNetwork aes subscriber call sqn) ∧
      (∀ sqn, FromNetwork aes subscriber call sqn →
        Agrees srsran aes subscriber call sqn response) ∧
      (response.authResult ≠ .authOk →
        response.resStar = call.resStar ∧ response.kAmf = call.kAmf) := by
  have hgenuine := genAuthResMilenage_authOk_iff hmilenage usim call.rand call.autnEnb
  rw [← genuine_iff_verifies, hprovisioned.k, hprovisioned.opc] at hgenuine
  have hxor : ¬ usim.authAlgo = .xor := by
    rw [hprovisioned.authAlgo]
    exact AuthAlgo.noConfusion
  have hlocal {sqn : Octets 6} (hnetwork : FromNetwork aes subscriber call sqn) :=
    local_agrees hmilenage hprovisioned hnetwork
  have hprogram : generateAuthenticationResponse5g srsran useVsimEnv usim call = .done
      (deriveKeys srsran call (genAuthResMilenage srsran usim call.rand call.autnEnb)) := by
    rw [generateAuthenticationResponse5g, authenticate5g, if_neg hxor, if_neg hstandard]
    rfl
  have hafter : Provisioned subscriber
      (genAuthResMilenage srsran usim call.rand call.autnEnb).2.2 := { hprovisioned with }
  rcases hcomputed : genAuthResMilenage srsran usim call.rand call.autnEnb with
    ⟨verdict, outputs, usim'⟩
  rw [hcomputed] at hgenuine hprogram hafter
  simp only [hcomputed] at hlocal
  cases verdict with
  | authOk =>
    refine ⟨_, _, hprogram, hafter, iff_of_true rfl (hgenuine.mp rfl), fun sqn hnetwork ↦ ?_, ?_⟩
    · exact hlocal hnetwork
    · intro hfailed
      exact absurd rfl hfailed
  | authFailed =>
    have hforeign : ∀ sqn, ¬ FromNetwork aes subscriber call sqn :=
      fun sqn hnetwork ↦ AuthResult.noConfusion (hgenuine.mpr ⟨sqn, hnetwork⟩)
    refine ⟨_, _, hprogram, hafter, iff_of_false AuthResult.noConfusion ?_,
      fun sqn hnetwork ↦ ?_, ?_⟩
    · rintro ⟨sqn, hnetwork⟩
      exact hforeign sqn hnetwork
    · exact absurd hnetwork (hforeign sqn)
    · intro _
      exact ⟨rfl, rfl⟩

/-! ### Runs with the virtual SIM -/

/-- A later call keeps the data of the subscriber, and the process keeps computing locally. -/
theorem Provisioned.local {usim : Usim} (hprovisioned : Provisioned subscriber usim)
    (rand autnEnb : Block) :
    Provisioned subscriber (genAuthResMilenage srsran usim rand autnEnb).2.2 :=
  { hprovisioned with }

/-- Every call of a process that has used the mailbox agrees with the network, if its token is one
of the network. -/
theorem local_runs_agree (hmilenage : ComputesMilenage srsran aes)
    (surroundings : Surroundings Content) (calls : List Call5g) {usim : Usim} (moment : ℕ)
    (memory : SharedData) (hprovisioned : Provisioned subscriber usim)
    (hlater : usim.fpgaInitialized = true) :
    ∀ record ∈ records srsran surroundings (calls.map .call) usim moment memory,
      ∀ sqn, FromNetwork aes subscriber record.call sqn →
        Agrees srsran aes subscriber record.call sqn record.response := by
  induction calls generalizing usim moment memory with
  | nil =>
    intro record hmem
    exact absurd hmem List.not_mem_nil
  | cons call calls ih =>
    intro record hmem sqn hnetwork
    have hcall := call_local srsran surroundings usim call moment memory hprovisioned.authAlgo
      hlater
    rw [List.map_cons, records, hcall] at hmem
    rcases List.mem_cons.mp hmem with rfl | hrest
    · exact local_agrees hmilenage hprovisioned hnetwork
    · dsimp only at hrest
      rw [(deriveKeys_verdict srsran call _).2] at hrest
      exact ih _ _ (hprovisioned.local _ _) hlater record hrest sqn hnetwork

/-- In every run of calls with the virtual SIM, each call with a token of the network succeeds with
the response and the key that the network expects, the first one through the mailbox, the host and
the enclave, and the others locally.

Assumes: the Milenage functions of srsRAN compute those of the standard over the cipher of the
enclave, the UE has the data of the subscriber and the enclave its key, the process has made no call
yet, the mailbox is mapped and holds no answer yet, and the host takes its turn before the timeout.
-/
theorem vsim_runs_agree (hmilenage : ComputesMilenage srsran aes) (world : Enclave.World)
    (calls : List Call5g) (usim : Usim) (memory : SharedData) (poll : ℕ)
    (hprovisioned : Provisioned subscriber usim) (hfirst : usim.fpgaInitialized = false)
    (hmapped : usim.sharedData = .mapped) (hflag : memory .authResponseReady = false)
    (hpoll : poll ≤ timeoutSeconds) :
    ∀ record ∈ records srsran (servedAt aes subscriber.k world poll) (calls.map .call) usim 0
        memory,
      ∀ sqn, FromNetwork aes subscriber record.call sqn →
        Agrees srsran aes subscriber record.call sqn record.response := by
  cases calls with
  | nil =>
    intro record hmem
    exact absurd hmem List.not_mem_nil
  | cons call calls =>
    intro record hmem sqn hnetwork
    have hcall := call_mailbox srsran (servedAt aes subscriber.k world poll) usim call 0 memory
      hprovisioned.authAlgo hfirst hmapped
    have hexchange := exchange_served aes subscriber.k world hflag hpoll call.rand usim.opc
      call.autnEnb
    rw [List.map_cons, records, hcall] at hmem
    dsimp only [exchangeRun] at hmem
    rw [hexchange] at hmem
    rcases List.mem_cons.mp hmem with rfl | hrest
    · refine deriveKeys_agrees hnetwork ?_ rfl hprovisioned.imsiStr
      rw [hprovisioned.opc]
      rfl
    · have htaken (response : Response) : Provisioned subscriber (takenFrom usim response).2.2 :=
        { hprovisioned with }
      rw [(deriveKeys_verdict srsran call _).2] at hrest
      exact local_runs_agree hmilenage _ calls _ _ (htaken _) rfl record hrest sqn hnetwork

end Network

/-! ### Concrete calls -/

/-- The subscriber whose data `freshUsim` has, with the key of the enclave. -/
def zeroSubscriber : Subscriber := ⟨Enclave.builtInKey, zeroBlock, "001010123456780"⟩

theorem provisioned_freshUsim : Provisioned zeroSubscriber (freshUsim Enclave.builtInKey) :=
  ⟨rfl, rfl, rfl, rfl⟩

/-- A call with a challenge of zeros and a token of the network. -/
def networkCall : Call5g :=
  { zeroCall with
    autnEnb := networkToken Aes.encrypt zeroSubscriber zeroBlock (List.Vector.replicate 6 0)
      (List.Vector.replicate 2 0) }

theorem standard_path_agrees_zero :
    ∃ response after,
      generateAuthenticationResponse5g (enclaveSrsran Aes.encrypt) none
        (freshUsim Enclave.builtInKey) networkCall = .done (response, after) ∧
      Agrees (enclaveSrsran Aes.encrypt) Aes.encrypt zeroSubscriber networkCall
        (List.Vector.replicate 6 0) response := by
  have hstandard : ¬ usesVsim none := by
    rintro ⟨⟩
  obtain ⟨response, after, hprogram, -, -, hagrees, -⟩ :=
    standard_path_agrees (enclaveSrsran_computes Aes.encrypt) hstandard provisioned_freshUsim
      networkCall
  exact ⟨response, after, hprogram, hagrees _ ⟨List.Vector.replicate 2 0, rfl⟩⟩

/-- Two calls, the first of which is answered at the third poll. -/
theorem vsim_runs_agree_zero :
    ∃ first later, records (enclaveSrsran Aes.encrypt)
        (servedAt Aes.encrypt zeroSubscriber.k ⟨0, 0, List.Vector.replicate 92 0⟩ 2)
        ([networkCall, networkCall].map .call) (freshUsim Enclave.builtInKey) 0 restingMailbox =
          [first, later] ∧
      Agrees (enclaveSrsran Aes.encrypt) Aes.encrypt zeroSubscriber networkCall
        (List.Vector.replicate 6 0) first.response ∧
      Agrees (enclaveSrsran Aes.encrypt) Aes.encrypt zeroSubscriber networkCall
        (List.Vector.replicate 6 0) later.response := by
  have hagrees := vsim_runs_agree (enclaveSrsran_computes Aes.encrypt)
    ⟨0, 0, List.Vector.replicate 92 0⟩ [networkCall, networkCall] (freshUsim Enclave.builtInKey)
    restingMailbox 2 provisioned_freshUsim rfl rfl rfl (by decide)
  have hnetwork : FromNetwork Aes.encrypt zeroSubscriber networkCall (List.Vector.replicate 6 0) :=
    ⟨List.Vector.replicate 2 0, rfl⟩
  exact ⟨_, _, rfl, hagrees _ List.mem_cons_self _ hnetwork,
    hagrees _ (List.mem_cons_of_mem _ List.mem_cons_self) _ hnetwork⟩

end Disguise.Authentication.Ue
