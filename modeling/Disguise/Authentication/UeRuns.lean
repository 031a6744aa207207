import Disguise.Authentication.EnclaveMilenage
import Disguise.Authentication.Usim

/-!
# Runs of the UE

What a UE does over time with `USE_VSIM` set and Milenage configured: calls of
`generate_authentication_response_5g` in any number, and restarts of the process, among surroundings
that may change the mailbox at any moment. `records` lists the calls of a run with the state each
was made in and the response it gave.

A call gives its response in one of three ways (`call_unmapped`, `call_mailbox`, `call_local`): it
fails because the mailbox is not mapped, it takes what the mailbox holds, or it computes the
response itself. Only the flag of the process and the mapping decide which.

`enclaveSrsran` is an instance of the functions of srsRAN for concrete runs. Its Milenage functions
are those of the enclave, and its key derivations are constant.
-/

set_option autoImplicit false
set_option relaxedAutoImplicit false

namespace Disguise.Authentication.Ue

open Mailbox Memory Milenage Process Process.Program

/-! ### Runs -/

/-- What happens next in a UE: a call, or a restart of the process, which maps the mailbox again and
starts with whatever its arrays hold. -/
inductive UeEvent where
  | call (call : Call5g)
  | restart (sharedData : SharedPointer) (ck ik : Block)

/-- The state of a process that was just started, with the configuration of another one. -/
def Usim.restarted (usim : Usim) (sharedData : SharedPointer) (ck ik : Block) : Usim :=
  { usim with sharedData, ck, ik, fpgaInitialized := false }

/-- A call in a run: the state it was made in, what it was given and what it returned. -/
structure CallRecord where
  before : Usim
  call : Call5g
  response : Response5g

/-- A run of a call with `USE_VSIM` set. -/
def callRun (srsran : Srsran) (surroundings : Surroundings Content) (call : Call5g) (moment : ℕ)
    (memory : SharedData) (usim : Usim) : Run Content (Response5g × Usim) :=
  run surroundings (generateAuthenticationResponse5g srsran (some "true") usim call) moment memory

/-- The calls of a run. -/
def records (srsran : Srsran) (surroundings : Surroundings Content) :
    List UeEvent → Usim → ℕ → SharedData → List CallRecord
  | [], _, _, _ => []
  | .restart sharedData ck ik :: events, usim, moment, memory =>
    records srsran surroundings events (usim.restarted sharedData ck ik) moment memory
  | .call call :: events, usim, moment, memory =>
    let finished := callRun srsran surroundings call moment memory usim
    { before := usim, call, response := finished.result.1 } ::
      records srsran surroundings events finished.result.2 finished.moment finished.memory

/-! ### One call -/

section Calls

variable (srsran : Srsran) (surroundings : Surroundings Content) (usim : Usim) (call : Call5g)
  (moment : ℕ) (memory : SharedData)

/-- The run of the mailbox part of a call. -/
def exchangeRun : Run Content Response :=
  run surroundings (exchange call.rand usim.opc call.autnEnb) moment memory

/-- The result of a call that took a response from the mailbox. -/
def takenFrom (response : Response) : AuthResult × Outputs × Usim :=
  (.authOk, { res := response.res, resLen := 8, akXorSqn := response.akXorSqn },
    { usim with ck := response.ck, ik := response.ik, fpgaInitialized := true })

/-- A first call without a mailbox fails and changes nothing. -/
theorem call_unmapped (halgo : usim.authAlgo = .milenage) (hfirst : usim.fpgaInitialized = false)
    (hunmapped : usim.sharedData ≠ .mapped) :
    callRun srsran surroundings call moment memory usim =
      ⟨[], moment, memory, deriveKeys srsran call (.authFailed, call.locals, usim)⟩ := by
  rw [callRun, generateAuthenticationResponse5g, authenticate5g, if_neg (by rw [halgo]; decide),
    if_pos (by rfl), genAuthResMilenageVsim, if_pos hfirst, if_pos hunmapped]
  rfl

/-- A first call takes its response from the mailbox. -/
theorem call_mailbox (halgo : usim.authAlgo = .milenage) (hfirst : usim.fpgaInitialized = false)
    (hmapped : usim.sharedData = .mapped) :
    callRun srsran surroundings call moment memory usim =
      let exchanged := exchangeRun surroundings usim call moment memory
      ⟨exchanged.trace, exchanged.moment, exchanged.memory,
        deriveKeys srsran call (takenFrom usim exchanged.result)⟩ := by
  rw [callRun, generateAuthenticationResponse5g, authenticate5g, if_neg (by rw [halgo]; decide),
    if_pos (by rfl), genAuthResMilenageVsim, if_pos hfirst, if_neg (not_not.mpr hmapped), run_bind,
    run_bind]
  simp only [pure_def, run, List.append_nil]
  rfl

/-- A later call computes its response and drops the verdict. -/
theorem call_local (halgo : usim.authAlgo = .milenage) (hlater : usim.fpgaInitialized = true) :
    callRun srsran surroundings call moment memory usim =
      ⟨[], moment, memory, deriveKeys srsran call
        (.authOk, (genAuthResMilenage srsran usim call.rand call.autnEnb).2)⟩ := by
  rw [callRun, generateAuthenticationResponse5g, authenticate5g, if_neg (by rw [halgo]; decide),
    if_pos (by rfl), genAuthResMilenageVsim, if_neg (by rw [hlater]; decide)]
  rfl

/-- Deriving the keys leaves the verdict and the state as they are. -/
theorem deriveKeys_verdict (computed : AuthResult × Outputs × Usim) :
    (deriveKeys srsran call computed).1.authResult = computed.1 ∧
      (deriveKeys srsran call computed).2 = computed.2.2 := by
  obtain ⟨authResult, outputs, usim⟩ := computed
  dsimp only [deriveKeys]
  split_ifs with hok
  · exact ⟨hok.symm ▸ rfl, rfl⟩
  · exact ⟨rfl, rfl⟩

/-- A call succeeds unless it is a first call without a mailbox, whatever the token is. -/
theorem call_authOk_iff (halgo : usim.authAlgo = .milenage) :
    (callRun srsran surroundings call moment memory usim).result.1.authResult = .authOk ↔
      ¬ (usim.fpgaInitialized = false ∧ usim.sharedData ≠ .mapped) := by
  cases hflag : usim.fpgaInitialized with
  | true =>
    rw [call_local _ _ _ _ _ _ halgo hflag, (deriveKeys_verdict _ _ _).1]
    exact iff_of_true rfl fun hfirst ↦ Bool.noConfusion hfirst.1
  | false =>
    by_cases hmapped : usim.sharedData = .mapped
    · rw [call_mailbox _ _ _ _ _ _ halgo hflag hmapped, (deriveKeys_verdict _ _ _).1]
      exact iff_of_true rfl fun hfirst ↦ hfirst.2 hmapped
    · rw [call_unmapped _ _ _ _ _ _ halgo hflag hmapped, (deriveKeys_verdict _ _ _).1]
      exact iff_of_false AuthResult.noConfusion fun hfirst ↦ hfirst ⟨rfl, hmapped⟩

/-- A call keeps the configured algorithm. -/
theorem call_authAlgo (halgo : usim.authAlgo = .milenage) :
    (callRun srsran surroundings call moment memory usim).result.2.authAlgo = .milenage := by
  cases hflag : usim.fpgaInitialized with
  | true =>
    rw [call_local _ _ _ _ _ _ halgo hflag, (deriveKeys_verdict _ _ _).2]
    exact halgo
  | false =>
    by_cases hmapped : usim.sharedData = .mapped
    · rw [call_mailbox _ _ _ _ _ _ halgo hflag hmapped, (deriveKeys_verdict _ _ _).2]
      exact halgo
    · rw [call_unmapped _ _ _ _ _ _ halgo hflag hmapped, (deriveKeys_verdict _ _ _).2]
      exact halgo

end Calls

/-- A call of a run succeeds unless it is a first call without a mailbox.

Assumes: the algorithm is Milenage. -/
theorem records_authOk_iff (srsran : Srsran) (surroundings : Surroundings Content) :
    ∀ (events : List UeEvent) (usim : Usim) (moment : ℕ) (memory : SharedData),
      usim.authAlgo = .milenage →
        ∀ record ∈ records srsran surroundings events usim moment memory,
          record.response.authResult = .authOk ↔
            ¬ (record.before.fpgaInitialized = false ∧ record.before.sharedData ≠ .mapped)
  | [], _, _, _, _, _, hmem => absurd hmem List.not_mem_nil
  | .restart sharedData ck ik :: events, usim, moment, memory, halgo, record, hmem =>
    records_authOk_iff srsran surroundings events (usim.restarted sharedData ck ik) moment memory
      halgo record hmem
  | .call call :: events, usim, moment, memory, halgo, record, hmem => by
    rcases List.mem_cons.mp hmem with rfl | hlater
    · exact call_authOk_iff srsran surroundings usim call moment memory halgo
    · exact records_authOk_iff srsran surroundings events _ _ _
        (call_authAlgo srsran surroundings usim call moment memory halgo) record hlater

/-! ### Instances for concrete runs -/

/-- Functions of srsRAN for concrete runs. -/
def enclaveSrsran (aes : Block → Block → Block) : Srsran where
  securityMilenageF2345 := Enclave.liblteSecurityMilenageF2345 aes
  securityMilenageF1 := Enclave.liblteSecurityMilenageF1 aes
  securityXorF2345 := fun _ rand ↦
    ⟨slice rand 0 8 firstHalf_bounds, rand, rand, slice rand 0 6 sqn_bounds⟩
  securityXorF1 := fun _ rand _ _ ↦ slice rand 0 8 firstHalf_bounds
  securityGenerateKAsme := fun _ _ _ _ _ ↦ List.Vector.replicate 32 0
  securityGenerateResStar := fun _ _ _ _ _ _ ↦ zeroBlock
  securityGenerateKAusf := fun _ _ _ _ ↦ List.Vector.replicate 32 0
  securityGenerateKSeaf := fun _ _ ↦ List.Vector.replicate 32 0
  securityGenerateKAmf := fun _ _ _ ↦ List.Vector.replicate 32 0

theorem enclaveSrsran_computes (aes : Block → Block → Block) :
    ComputesMilenage (enclaveSrsran aes) aes where
  f2345_eq := Enclave.f2345_eq aes
  f1_eq := Enclave.f1_eq aes

/-- A mailbox with a response that is ready. -/
def answeredMailbox (response : Response) : SharedData
  | .commandReady | .responseReady => false
  | .authResponseReady => true
  | .commandType => .cmdAuthenticate
  | .randBytes | .opcBytes | .autenbBytes => zeroBlock
  | .res => response.res
  | .akXorSqn => response.akXorSqn
  | .ck => response.ck
  | .ik => response.ik

/-- A mailbox that holds a response of zeros. -/
def zeroMailbox : SharedData :=
  answeredMailbox ⟨List.Vector.replicate 8 0, List.Vector.replicate 6 0, zeroBlock, zeroBlock⟩

/-- A mailbox in which nothing is ready. -/
def restingMailbox : SharedData := Function.update zeroMailbox .authResponseReady false

/-- A UE with a key and an OPc of zeros that has mapped the mailbox and made no call yet. -/
def freshUsim (k : Block) : Usim where
  authAlgo := .milenage
  k
  opc := zeroBlock
  imsiStr := "001010123456780"
  sharedData := .mapped
  ck := zeroBlock
  ik := zeroBlock
  ak := List.Vector.replicate 6 0
  amf := List.Vector.replicate 2 0
  mac := List.Vector.replicate 8 0
  autn := zeroBlock
  fpgaInitialized := false

/-- A call with a challenge and a token of zeros. -/
def zeroCall : Call5g where
  rand := zeroBlock
  autnEnb := zeroBlock
  servingNetworkName := "5G:mnc001.mcc001.3gppnetwork.org"
  abba := [0, 0]
  locals := ⟨List.Vector.replicate 8 0, 0, List.Vector.replicate 6 0⟩
  resStar := zeroBlock
  kAmf := List.Vector.replicate 32 0

end Disguise.Authentication.Ue
