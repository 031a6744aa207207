import Disguise.Authentication.Aes
import Disguise.Authentication.EnclaveMilenage
import Disguise.Authentication.Timing

/-!
# The authentication enclave

`eapp_entry` of `fpga-auth.c`: the enclave waits for a challenge, computes the response with
`gen_auth_res_milenage`, prints how long that took, and sends 46 bytes back to the host. A challenge
is a byte string of any length, of which the first 48 bytes are read: RAND, OPc and AUTN.

A response leaves the enclave for every challenge, since `gen_auth_res_milenage` never reports an
error. The enclave is meant to answer a token the network built and to refuse every other one;
`answersOnlyGenuine_iff` says that it does so exactly where the token is genuine, and
`forged_token_answered` is a challenge of zeros that it answers.

Not modelled: the print-only handling of a failed `malloc`.
-/

set_option autoImplicit false
set_option relaxedAutoImplicit false

namespace Disguise.Authentication.Enclave

open Memory Milenage Process Process.Proc

/-- A byte string. -/
abbrev Bytes := List UInt8

/-- Why the enclave stops before its end. -/
inductive Stop where
  /-- An access outside a block of memory. -/
  | outOfBounds
  deriving DecidableEq, Repr

instance : Fault Stop := ⟨Stop.outOfBounds⟩

/-- What a run of the enclave is given: the readings of the cycle counter before and after the
computation, and the contents of the block for the response. -/
structure World where
  startCycles : UInt64
  endCycles : UInt64
  fresh : Octets 92

/-- Prints a number with its label on a line. -/
def printNumber (label : String) (number : ℤ) : Proc Bytes String Stop Unit := do
  observe label
  observe (ltoa number)
  observe "\n"

/-- `eapp_entry`. -/
def eappEntry (aes : Block → Block → Block) (k : Block) (world : World) :
    Proc Bytes String Stop Unit := do
  let dataCopy ← receive
  let rand ← loadArray dataCopy 0 16
  let opcO ← loadArray dataCopy 16 16
  let autnEnb ← loadArray dataCopy 32 16
  let delayStart := gettimeofday world.startCycles
  let authRes := genAuthResMilenage aes k opcO rand autnEnb
  if authRes.err ≠ .success then
    observe "Error in f2345"
  let delayEnd := gettimeofday world.endCycles
  let delay := elapsed delayStart delayEnd
  printNumber "Seconds: " delay.seconds
  printNumber "Microseconds: " delay.microseconds
  printNumber "MilliSecond: " delay.milliseconds
  let sendBuffer ← store world.fresh.toList 0 authRes.response.res.toList
  let sendBuffer ← store sendBuffer 8 authRes.response.akXorSqn.toList
  let sendBuffer ← store sendBuffer (8 + 6) authRes.response.ck.toList
  let sendBuffer ← store sendBuffer (8 + 6 + 16) authRes.response.ik.toList
  let reply ← load sendBuffer 0 46
  let _ ← transmit reply

/-! ### The messages -/

/-- A challenge as the host lays it out. -/
def challengeBytes (rand opc autn : Block) : Bytes := rand.toList ++ opc.toList ++ autn.toList

/-- A response as the enclave lays it out. -/
def responseBytes (response : Response) : Bytes :=
  response.res.toList ++ response.akXorSqn.toList ++ response.ck.toList ++ response.ik.toList

/-- The three fields of a challenge are read back where the host put them. -/
theorem challenge_fields (rand opc autn : Block) :
    arrayAt? (challengeBytes rand opc autn) 0 16 = some rand ∧
      arrayAt? (challengeBytes rand opc autn) 16 16 = some opc ∧
      arrayAt? (challengeBytes rand opc autn) 32 16 = some autn := by
  have hautn : arrayAt? autn.toList 0 16 = some autn := by
    have happend := arrayAt?_append_left autn []
    rwa [List.append_nil] at happend
  rw [challengeBytes, List.append_assoc]
  refine ⟨arrayAt?_append_left _ _, ?_, ?_⟩
  · exact (arrayAt?_append_right rand _ 0).trans (arrayAt?_append_left _ _)
  · exact (arrayAt?_append_right rand _ 16).trans ((arrayAt?_append_right opc _ 0).trans hautn)

/-- The four fields of a response are read back where the enclave put them. -/
theorem response_parts (response : Response) :
    arrayAt? (responseBytes response) 0 8 = some response.res ∧
      arrayAt? (responseBytes response) 8 6 = some response.akXorSqn ∧
      arrayAt? (responseBytes response) 14 16 = some response.ck ∧
      arrayAt? (responseBytes response) 30 16 = some response.ik := by
  have hik : arrayAt? response.ik.toList 0 16 = some response.ik := by
    have happend := arrayAt?_append_left response.ik []
    rwa [List.append_nil] at happend
  rw [responseBytes, List.append_assoc, List.append_assoc]
  refine ⟨arrayAt?_append_left _ _, ?_, ?_, ?_⟩
  · exact (arrayAt?_append_right response.res _ 0).trans (arrayAt?_append_left _ _)
  · exact (arrayAt?_append_right response.res _ 6).trans
      ((arrayAt?_append_right response.akXorSqn _ 0).trans (arrayAt?_append_left _ _))
  · exact (arrayAt?_append_right response.res _ 22).trans
      ((arrayAt?_append_right response.akXorSqn _ 16).trans
        ((arrayAt?_append_right response.ck _ 0).trans hik))

/-! ### A run of the enclave -/

section Runs

variable (aes : Block → Block → Block) (k : Block) (world : World)

/-- A host that delivers one message to the enclave and takes what it sends. -/
def delivering (message : Bytes) : Environment Bytes where
  accepts := fun _ ↦ true
  delivers := fun _ ↦ message

/-- The messages the enclave sends to the host that delivers a message. -/
def replies (message : Bytes) : List Bytes :=
  (execute (delivering message) (eappEntry aes k world) 0 0).sent

/-- The four copies into the send buffer lay the response out from its start on. -/
theorem sendBuffer_eq {α : Type} (fresh : Octets 92) (response : Response)
    (continuation : Bytes → Proc Bytes String Stop α) :
    (do
      let sendBuffer ← store fresh.toList 0 response.res.toList
      let sendBuffer ← store sendBuffer 8 response.akXorSqn.toList
      let sendBuffer ← store sendBuffer (8 + 6) response.ck.toList
      let sendBuffer ← store sendBuffer (8 + 6 + 16) response.ik.toList
      let reply ← load sendBuffer 0 46
      continuation reply) = continuation (responseBytes response) := by
  have hfresh := fresh.toList_length
  have hres := response.res.toList_length
  have hakXorSqn := response.akXorSqn.toList_length
  have hck := response.ck.toList_length
  have hik := response.ik.toList_length
  have hbytes : (responseBytes response).length = 46 := by
    simp only [responseBytes, List.length_append]
    omega
  rw [← List.nil_append fresh.toList, store_append List.length_nil (by omega), done_bind,
    List.nil_append,
    store_append hres (by rw [List.length_drop]; omega), done_bind,
    store_append (by rw [List.length_append]; omega) (by simp only [List.length_drop]; omega),
    done_bind,
    store_append (by simp only [List.length_append]; omega)
      (by simp only [List.length_drop]; omega),
    done_bind]
  change load (responseBytes response ++ _) 0 46 >>= continuation = _
  rw [load_eq (by rw [List.length_append]; omega), done_bind,
    window_append_left (by omega), window_all hbytes]

/-- The enclave answers every challenge with the response of the standard, after the prints about
the time. -/
theorem replies_challengeBytes (rand opc autn : Block) :
    replies aes k world (challengeBytes rand opc autn) =
      [responseBytes (respond (aes k) opc rand autn)] := by
  obtain ⟨hrand, hopc, hautn⟩ := challenge_fields rand opc autn
  unfold replies eappEntry
  simp only [receive, recv_bind, execute, delivering, done_bind, loadArray_eq hrand,
    loadArray_eq hopc, loadArray_eq hautn, genAuthResMilenage_eq, printNumber, observe, note_bind,
    sendBuffer_eq, transmit, send_bind]
  rw [if_neg fun hfailed ↦ hfailed rfl]
  rfl

end Runs

/-! ### Genuine tokens -/

section Oracle

variable (aes : Block → Block → Block) (k : Block) (world : World) (challenge : Octets 48)

/-- What `gen_auth_res_milenage` does for the fields of a challenge. -/
def authRes : AuthRes :=
  genAuthResMilenage aes k (slice challenge 16 16) (slice challenge 0 16) (slice challenge 32 16)

/-- Success is reported and the 46 bytes with RES, CK and IK are sent to the host. -/
def Answered : Prop :=
  (authRes aes k challenge).err = .success ∧
    replies aes k world challenge.toList = [responseBytes (authRes aes k challenge).response]

/-- An error is reported and nothing is sent. -/
def Refused : Prop :=
  (authRes aes k challenge).err ≠ .success ∧ replies aes k world challenge.toList = []

/-- The token in the challenge was built with the key of the enclave. -/
def GenuineChallenge : Prop :=
  Genuine (aes k) (slice challenge 16 16) (slice challenge 0 16) (slice challenge 32 16)

/-- The enclave answers the challenge exactly if its token is genuine, and refuses it otherwise. -/
def AnswersOnlyGenuine : Prop :=
  (Answered aes k world challenge ↔ GenuineChallenge aes k challenge) ∧
    (¬ GenuineChallenge aes k challenge → Refused aes k world challenge)

/-- The 48 bytes of a challenge are its three fields in order. -/
theorem challengeBytes_slices :
    challengeBytes (slice challenge 0 16) (slice challenge 16 16) (slice challenge 32 16) =
      challenge.toList := by
  have hlength := challenge.toList_length
  rw [challengeBytes, toList_slice, toList_slice, toList_slice, window_zero, window, window,
    ← List.take_add, List.take_of_length_le (l := challenge.toList.drop 32)
      (by rw [List.length_drop]; omega), List.take_append_drop]

/-- Every challenge is answered. -/
theorem answered : Answered aes k world challenge := by
  refine ⟨rfl, ?_⟩
  rw [← challengeBytes_slices, replies_challengeBytes, authRes, genAuthResMilenage_eq]

/-- The enclave does what it is meant to do with a challenge exactly if the token in it is genuine:
it refuses nothing. -/
theorem answersOnlyGenuine_iff :
    AnswersOnlyGenuine aes k world challenge ↔ GenuineChallenge aes k challenge := by
  have hanswered := answered aes k world challenge
  constructor
  · rintro ⟨hiff, _⟩
    exact hiff.mp hanswered
  · intro hgenuine
    exact ⟨⟨fun _ ↦ hgenuine, fun _ ↦ hanswered⟩, fun hforged ↦ absurd hgenuine hforged⟩

/-- Under the key in the source and its AES, a token of zeros does not verify for a challenge and an
OPc of zeros. -/
theorem not_verifies_zero :
    ¬ Verifies (Aes.encrypt builtInKey) zeroBlock zeroBlock zeroBlock := by
  rw [← autn_eq_iff_verifies]
  decide +kernel

/-- A challenge of zeros, with the key in the source and its AES, is answered although no network
that has the key would have sent it. -/
theorem forged_token_answered :
    ¬ AnswersOnlyGenuine Aes.encrypt builtInKey ⟨0, 0, List.Vector.replicate 92 0⟩
      (List.Vector.replicate 48 0) := by
  rintro ⟨hiff, _⟩
  have hgenuine := hiff.mp (answered _ _ _ _)
  rw [GenuineChallenge, genuine_iff_verifies] at hgenuine
  exact not_verifies_zero hgenuine

end Oracle

end Disguise.Authentication.Enclave
