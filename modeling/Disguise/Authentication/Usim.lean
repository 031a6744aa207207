import Disguise.Authentication.Milenage
import Disguise.Mailbox.SharedData

/-!
# Authentication in the UE

The authentication functions of `usim.cc`. `genAuthResMilenageVsim` writes a request into the
mailbox, polls for the response and copies it, the first time it is called in a process; later calls
compute the response with the key of the UE itself. `generateAuthenticationResponse5g` chooses among
the algorithms and derives the keys. The functions are programs over the mailbox, in source order,
and return what they write through their pointers together with the members of the class.

The security functions of srsRAN are not part of the repository; they are the fields of `Srsran`.
`ComputesMilenage` is what their documentation says of two of them.

Not modelled: the log and the strings built for it, the time stamps around the calls, and exceptions
of the standard library. The array `res` of `generate_authentication_response_5g` has 16 bytes, of
which the 8 that are written and read are kept.
-/

set_option autoImplicit false
set_option relaxedAutoImplicit false

namespace Disguise.Authentication.Ue

open Mailbox Memory Milenage Process Process.Program

/-! ### Data -/

/-- The security functions of srsRAN. -/
structure Srsran where
  securityMilenageF2345 : (k opc rand : Block) → F2345
  securityMilenageF1 : (k opc rand : Block) → Octets 6 → Octets 2 → Octets 8
  securityXorF2345 : (k rand : Block) → F2345
  securityXorF1 : (k rand : Block) → Octets 6 → Octets 2 → Octets 8
  securityGenerateKAsme : (ck ik : Block) → Octets 6 → (mcc mnc : UInt16) → Octets 32
  securityGenerateResStar : (ck ik : Block) → String → Block → Octets 8 → ℤ → Octets 16
  securityGenerateKAusf : (ck ik : Block) → Octets 6 → String → Octets 32
  securityGenerateKSeaf : Octets 32 → String → Octets 32
  securityGenerateKAmf : Octets 32 → String → List UInt8 → Octets 32

/-- The Milenage functions of srsRAN compute those of the standard over a cipher. -/
structure ComputesMilenage (srsran : Srsran) (aes : Block → Block → Block) : Prop where
  f2345_eq : ∀ k opc rand, srsran.securityMilenageF2345 k opc rand = f2345 (aes k) opc rand
  f1_eq : ∀ k opc rand sqn amf,
    srsran.securityMilenageF1 k opc rand sqn amf = f1 (aes k) opc rand sqn amf

/-- `auth_algo`. -/
inductive AuthAlgo where
  | milenage
  | xor
  deriving DecidableEq, Repr

/-- `auth_result_t`. -/
inductive AuthResult where
  | authOk
  | authFailed
  deriving DecidableEq, Repr

/-- The pointer `shared_data`. -/
inductive SharedPointer where
  | null
  | mapFailed
  | mapped
  deriving DecidableEq, Repr

/-- The members of `usim` that authentication reads and writes, and the static flag. -/
structure Usim where
  authAlgo : AuthAlgo
  k : Block
  opc : Block
  imsiStr : String
  sharedData : SharedPointer
  ck : Block
  ik : Block
  ak : Octets 6
  amf : Octets 2
  mac : Octets 8
  autn : Block
  fpgaInitialized : Bool
  deriving DecidableEq

/-- What an authentication function writes through its pointers. -/
structure Outputs where
  res : Octets 8
  resLen : ℤ
  akXorSqn : Octets 6
  deriving DecidableEq

/-! ### The algorithms -/

/-- The common body of `gen_auth_res_milenage` and `gen_auth_res_xor`, for the functions of the
algorithm. -/
def checkToken (usim : Usim) (vector : F2345) (f1 : Octets 6 → Octets 2 → Octets 8)
    (autnEnb : Block) : AuthResult × Outputs × Usim :=
  -- Extract sqn and AMF from autn
  let sqn := xorOctets (slice autnEnb 0 6 sqn_bounds) vector.ak
  let amf : Octets 2 := slice autnEnb 6 2 amf_bounds
  -- Generate MAC
  let mac := f1 sqn amf
  -- Construct AUTN
  let autn : Block := xorOctets sqn vector.ak ++ amf ++ mac
  -- Compare AUTNs
  let differs := (List.finRange 16).any fun i ↦ autn.get i != autnEnb.get i
  let result := if differs then .authFailed else .authOk
  (result, { res := vector.res, resLen := 8, akXorSqn := xorOctets sqn vector.ak },
    { usim with ck := vector.ck, ik := vector.ik, ak := vector.ak, amf, mac, autn })

/-- `gen_auth_res_milenage`. -/
def genAuthResMilenage (srsran : Srsran) (usim : Usim) (rand autnEnb : Block) :
    AuthResult × Outputs × Usim :=
  checkToken usim (srsran.securityMilenageF2345 usim.k usim.opc rand)
    (srsran.securityMilenageF1 usim.k usim.opc rand) autnEnb

/-- `gen_auth_res_xor`. -/
def genAuthResXor (srsran : Srsran) (usim : Usim) (rand autnEnb : Block) :
    AuthResult × Outputs × Usim :=
  checkToken usim (srsran.securityXorF2345 usim.k rand) (srsran.securityXorF1 usim.k rand) autnEnb

/-- `TIMEOUT_SECONDS`. -/
def timeoutSeconds : ℕ := 5

/-- The wait loop, with `remaining` more rounds before the timeout: it ends when the flag is read as
set, or when it is read once more after the last round. -/
def waitForResponse : ℕ → MailboxProgram Unit
  | 0 => do
    let _ ← loadCell .authResponseReady
    return ()
  | remaining + 1 => do
    if ← loadCell .authResponseReady then
      return ()
    else
      waitForResponse remaining

/-- The part of `gen_auth_res_milenage_vsim` that uses the mailbox: it writes the request, waits and
copies the response. -/
def exchange (rand opc autnEnb : Block) : MailboxProgram Response := do
  -- Write authentication data to shared memory
  storeCell .randBytes rand
  storeCell .opcBytes opc
  storeCell .autenbBytes autnEnb
  -- Set command type and ready flag
  storeCell .commandType .cmdAuthenticate
  storeCell .commandReady true
  waitForResponse timeoutSeconds
  let res ← loadCell .res
  let akXorSqn ← loadCell .akXorSqn
  let ck ← loadCell .ck
  let ik ← loadCell .ik
  return { res, akXorSqn, ck, ik }

/-- `gen_auth_res_milenage_vsim`. -/
def genAuthResMilenageVsim (srsran : Srsran) (usim : Usim) (outputs : Outputs)
    (rand autnEnb : Block) : MailboxProgram (AuthResult × Outputs × Usim) := do
  if usim.fpgaInitialized = false then
    if usim.sharedData ≠ .mapped then
      return (.authFailed, outputs, usim)
    else
      let response ← exchange rand usim.opc autnEnb
      return (.authOk, { res := response.res, resLen := 8, akXorSqn := response.akXorSqn },
        { usim with ck := response.ck, ik := response.ik, fpgaInitialized := true })
  else
    -- the result of gen_auth_res_milenage is dropped
    let computed := genAuthResMilenage srsran usim rand autnEnb
    return (.authOk, computed.2)

/-! ### The interface of the NAS -/

/-- What a call of `generate_authentication_response_5g` is given: its arguments, and the contents
of its locals and of the buffers it writes to. -/
structure Call5g where
  rand : Block
  autnEnb : Block
  servingNetworkName : String
  abba : List UInt8
  locals : Outputs
  resStar : Octets 16
  kAmf : Octets 32

/-- What a call of `generate_authentication_response_5g` returns and leaves in its locals and
buffers. -/
structure Response5g where
  authResult : AuthResult
  outputs : Outputs
  ck : Block
  ik : Block
  resStar : Octets 16
  kAmf : Octets 32
  deriving DecidableEq

/-- The test of the environment variable `USE_VSIM`. -/
def usesVsim (useVsimEnv : Option String) : Prop := useVsimEnv = some "true"

instance (useVsimEnv : Option String) : Decidable (usesVsim useVsimEnv) :=
  inferInstanceAs (Decidable (_ = _))

/-- The choice of the algorithm in `generate_authentication_response_5g`. -/
def authenticate5g (srsran : Srsran) (useVsimEnv : Option String) (usim : Usim) (call : Call5g) :
    MailboxProgram (AuthResult × Outputs × Usim) :=
  if usim.authAlgo = .xor then
    return genAuthResXor srsran usim call.rand call.autnEnb
  else if usesVsim useVsimEnv then
    genAuthResMilenageVsim srsran usim call.locals call.rand call.autnEnb
  else
    return genAuthResMilenage srsran usim call.rand call.autnEnb

/-- The key derivation in `generate_authentication_response_5g`. -/
def deriveKeys (srsran : Srsran) (call : Call5g) (computed : AuthResult × Outputs × Usim) :
    Response5g × Usim :=
  let (authResult, outputs, usim) := computed
  if authResult = .authOk then
    let resStar := srsran.securityGenerateResStar usim.ck usim.ik call.servingNetworkName call.rand
      outputs.res outputs.resLen
    let kAusf := srsran.securityGenerateKAusf usim.ck usim.ik outputs.akXorSqn
      call.servingNetworkName
    let kSeaf := srsran.securityGenerateKSeaf kAusf call.servingNetworkName
    let kAmf := srsran.securityGenerateKAmf kSeaf usim.imsiStr call.abba
    ({ authResult, outputs, ck := usim.ck, ik := usim.ik, resStar, kAmf }, usim)
  else
    ({ authResult, outputs, ck := usim.ck, ik := usim.ik, resStar := call.resStar,
       kAmf := call.kAmf }, usim)

/-- `generate_authentication_response_5g`. -/
def generateAuthenticationResponse5g (srsran : Srsran) (useVsimEnv : Option String) (usim : Usim)
    (call : Call5g) : MailboxProgram (Response5g × Usim) := do
  let computed ← authenticate5g srsran useVsimEnv usim call
  return deriveKeys srsran call computed

/-- `generate_authentication_response`, which never uses the virtual SIM. -/
def generateAuthenticationResponse (srsran : Srsran) (usim : Usim) (rand autnEnb : Block)
    (mcc mnc : UInt16) (kAsme : Octets 32) : (AuthResult × Outputs × Octets 32) × Usim :=
  let (authResult, outputs, usim) :=
    if usim.authAlgo = .xor then genAuthResXor srsran usim rand autnEnb
    else genAuthResMilenage srsran usim rand autnEnb
  if authResult = .authOk then
    ((authResult, outputs,
      srsran.securityGenerateKAsme usim.ck usim.ik outputs.akXorSqn mcc mnc), usim)
  else
    ((authResult, outputs, kAsme), usim)

/-! ### What the token check decides -/

/-- Comparing all bytes compares the blocks. -/
theorem any_get_ne_iff (first second : Block) :
    ((List.finRange 16).any fun i ↦ first.get i != second.get i) = true ↔ first ≠ second := by
  simp only [List.any_eq_true, List.mem_finRange, true_and, bne_iff_ne]
  constructor
  · rintro ⟨i, hi⟩ rfl
    exact hi rfl
  · intro hne
    by_contra hall
    refine hne (List.Vector.ext fun i ↦ ?_)
    by_contra hi
    exact hall ⟨i, hi⟩

/-- The check succeeds exactly if the code in the token is the one computed for its sequence number
and management field. -/
theorem checkToken_authOk_iff (usim : Usim) (vector : F2345)
    (f1 : Octets 6 → Octets 2 → Octets 8) (autnEnb : Block) :
    (checkToken usim vector f1 autnEnb).1 = .authOk ↔
      slice autnEnb 8 8 = f1 (xorOctets (slice autnEnb 0 6) vector.ak) (slice autnEnb 6 2) := by
  have hautn : xorOctets (xorOctets (slice autnEnb 0 6) vector.ak) vector.ak ++
      (slice autnEnb 6 2 : Octets 2) ++
        f1 (xorOctets (slice autnEnb 0 6) vector.ak) (slice autnEnb 6 2) = autnEnb ↔
      slice autnEnb 8 8 = f1 (xorOctets (slice autnEnb 0 6) vector.ak) (slice autnEnb 6 2) := by
    rw [eq_comm, block_eq_append_iff, xorOctets_cancel]
    exact ⟨fun hparts ↦ hparts.2.2, fun hmac ↦ ⟨rfl, rfl, hmac⟩⟩
  rw [← hautn]
  dsimp only [checkToken]
  split_ifs with hdiffers
  · rw [any_get_ne_iff] at hdiffers
    exact iff_of_false id hdiffers
  · rw [any_get_ne_iff, not_not] at hdiffers
    exact iff_of_true rfl hdiffers

/-- The standard path succeeds exactly if the token verifies.

Assumes: the Milenage functions of srsRAN compute those of the standard. -/
theorem genAuthResMilenage_authOk_iff {srsran : Srsran} {aes : Block → Block → Block}
    (hmilenage : ComputesMilenage srsran aes) (usim : Usim) (rand autnEnb : Block) :
    (genAuthResMilenage srsran usim rand autnEnb).1 = .authOk ↔
      Verifies (aes usim.k) usim.opc rand autnEnb := by
  rw [genAuthResMilenage, checkToken_authOk_iff, hmilenage.f2345_eq, hmilenage.f1_eq]
  rfl

/-- The 4G caller accepts exactly the tokens that verify, and leaves K_ASME as it is for the others.

Assumes: the algorithm is Milenage, and the Milenage functions of srsRAN compute those of the
standard. -/
theorem generateAuthenticationResponse_iff {srsran : Srsran} {aes : Block → Block → Block}
    (hmilenage : ComputesMilenage srsran aes) {usim : Usim} (halgo : usim.authAlgo = .milenage)
    (rand autnEnb : Block) (mcc mnc : UInt16) (kAsme : Octets 32) :
    let response := (generateAuthenticationResponse srsran usim rand autnEnb mcc mnc kAsme).1
    (response.1 = .authOk ↔ Verifies (aes usim.k) usim.opc rand autnEnb) ∧
      (¬ Verifies (aes usim.k) usim.opc rand autnEnb → response.2.2 = kAsme) := by
  have hiff := genAuthResMilenage_authOk_iff hmilenage usim rand autnEnb
  have hnot : ¬ usim.authAlgo = .xor := by
    rw [halgo]
    exact AuthAlgo.noConfusion
  dsimp only
  rw [← hiff, generateAuthenticationResponse, if_neg hnot]
  by_cases hok : (genAuthResMilenage srsran usim rand autnEnb).1 = .authOk
  · simp [hok]
  · simp [hok]

end Disguise.Authentication.Ue
