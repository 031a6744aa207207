import Disguise.Authentication.EnclaveEntry
import Disguise.Provisioning.TaggedSodium

/-!
# Messages of the host and the blocks they are copied to

Both enclaves copy a message of the host into a block of memory and read it at fixed offsets. The
host chooses the size of each message. The provisioning enclave allocates a block of the size of the
first message, unseals 233 bytes of it, copies the second message over it and unboxes 72 bytes; the
authentication enclave reads 48 bytes of a block that has the size of its message. Neither compares
a size with what it is going to access.

`stay_in_bounds_iff` says for which messages no access falls outside its block, once for each
enclave: the first message has 233 bytes and the second is not longer than the first, where the
provisioning enclave gets that far (`MessagesFit`), and a challenge has 48 bytes.
`host_sizes_leave_blocks` shows one host for each of the three.
-/

set_option autoImplicit false
set_option relaxedAutoImplicit false

namespace Disguise.Enclaves

open Memory Process Process.Proc
open Provisioning Provisioning.Enclave

/-! ### The provisioning enclave -/

section Provisioning

variable {α β : Type} (environment : Environment Bytes) (sends waits : ℕ)

@[simp] theorem staysInBounds_orExit (value : Option α) (message : String)
    (continuation : α → EnclaveProc β) :
    StaysInBounds environment sends waits (orExit value message >>= continuation) ↔
      ∀ found, value = some found →
        StaysInBounds environment sends waits (continuation found) := by
  cases value with
  | none => simp [orExit, sequence_assoc, Fault.outOfBounds]
  | some found => simp

@[simp] theorem staysInBounds_verify (condition : Prop) [Decidable condition]
    (success failure : String) (continuation : Unit → EnclaveProc β) :
    StaysInBounds environment sends waits (verify condition success failure >>= continuation) ↔
      (condition → StaysInBounds environment sends waits (continuation ())) := by
  by_cases hcondition : condition <;>
    simp [verify, hcondition, sequence_assoc, Fault.outOfBounds]

theorem staysInBounds_init (world : EnclaveWorld) (continuation : KeyPair → EnclaveProc β) :
    StaysInBounds environment sends waits (init world >>= continuation) ↔
      (world.sodiumReady = true → ∀ server, world.kxKeypair = some server →
        world.signReady = true → StaysInBounds environment sends waits (continuation server)) := by
  simp only [init, sequence_assoc, staysInBounds_require, staysInBounds_orFail, pure_eq, done_bind,
    Fault.outOfBounds, ne_eq, reduceCtorEq, not_false_eq_true, implies_true, true_and]

/-- `channel_unbox` makes no access outside a block that holds the frame it is given. -/
theorem staysInBounds_channelUnbox (sodium : Sodium) (rx msgBuffer : Bytes) {len : ℕ}
    (hlen : 72 ≤ len) (hbuffer : len ≤ msgBuffer.length) (hsize : len < 2 ^ 64)
    (continuation : Bytes × Option ℕ → EnclaveProc β) :
    StaysInBounds environment sends waits (channelUnbox sodium rx msgBuffer len >>= continuation) ↔
      StaysInBounds environment sends waits
        (continuation (unboxResult sodium rx msgBuffer len)) := by
  rw [channelUnbox_eq_notice sodium rx msgBuffer hlen hbuffer hsize, sequence_assoc, unboxNotice]
  split
  · rw [staysInBounds_observe, done_bind]
  · split
    · rw [staysInBounds_observe, done_bind]
    · rw [pure_eq, done_bind, done_bind]

/-- The enclave sends its request, so that it comes to read the first message. -/
structure RequestSent (sodium : Sodium) (world : EnclaveWorld) (server : KeyPair) : Prop where
  sodiumReady : world.sodiumReady = true
  kxKeypair : world.kxKeypair = some server
  signReady : world.signReady = true
  requestSealed : ∃ request,
    sodium.boxSeal world.sealSeed (world.nonce ++ server.publicKey) devPublicKey = some request

/-- The first message, if it is read, has the 233 bytes that are unsealed from it, and the second
one, if it is read, fits into the block of the first. It is read if the first one is accepted and
the report can be boxed. -/
structure MessagesFit (sodium : Sodium) (world : EnclaveWorld) (environment : Environment Bytes) :
    Prop where
  first : ∀ server, RequestSent sodium world server → 233 ≤ (environment.delivers 0).length
  second : ∀ server message, ResponseAccepted sodium world (environment.delivers 0) server message →
    ∀ boxed, sodium.secretboxEasy (world.report ++ padding 96) world.boxNonce
        (sessionKeys sodium server (window message 153 32)).tx = some boxed →
      (environment.delivers 1).length ≤ (environment.delivers 0).length

/-- The second half of the handshake stays in bounds if the second message fits.

Assumes: the block of the first message holds the 233 bytes it was unsealed from. -/
theorem staysInBounds_awaitAck (sodium : Sodium) (world : EnclaveWorld) (keys : SessionKeys)
    {response : Bytes} (message : Bytes) (hresponse : 233 ≤ response.length) :
    StaysInBounds environment 1 1 (awaitAck sodium world keys response message) ↔
      ∀ boxed, sodium.secretboxEasy (world.report ++ padding 96) world.boxNonce keys.tx =
        some boxed → (environment.delivers 1).length ≤ response.length := by
  simp only [awaitAck, staysInBounds_orExit, staysInBounds_transmit, staysInBounds_receive,
    staysInBounds_store, Nat.zero_add]
  refine forall_congr' fun boxed ↦ forall_congr' fun _ ↦ and_iff_left_of_imp fun hfits ↦ ?_
  have hblock : (overwrite response 0 (environment.delivers 1)).length = response.length :=
    length_overwrite (by omega)
  rw [staysInBounds_channelUnbox environment _ _ sodium keys.rx _ (Nat.le_refl 72) (by omega)
    (by decide), staysInBounds_load]
  have hunboxed : 72 ≤ (unboxResult sodium keys.rx
      (overwrite response 0 (environment.delivers 1)) 72).1.length := by
    rw [length_unboxResult _ _ (by omega)]
    omega
  refine ⟨by omega, ?_⟩
  split_ifs
  · rw [staysInBounds_observe, staysInBounds_fail]
    exact Stop.noConfusion
  · rw [pure_eq]
    exact staysInBounds_done _ _ _ _

/-- The provisioning enclave makes no access outside a block exactly if the messages fit. -/
theorem staysInBounds_establishSecureChannel (sodium : Sodium) (world : EnclaveWorld) :
    StaysInBounds environment 0 0 (establishSecureChannel sodium world) ↔
      MessagesFit sodium world environment := by
  rw [establishSecureChannel_eq]
  simp only [acceptResponse, sequence_assoc, staysInBounds_observe, staysInBounds_init,
    staysInBounds_orExit, staysInBounds_transmit, staysInBounds_receive, staysInBounds_load,
    staysInBounds_verify, pure_eq, done_bind, Nat.zero_add]
  constructor
  · intro hbounds
    refine ⟨?_, ?_⟩
    · rintro server ⟨hsodium, hkeypair, hsign, request, hrequest⟩
      exact (hbounds hsodium server hkeypair hsign request hrequest).1
    · intro server message haccepted
      obtain ⟨request, hrequest⟩ := haccepted.requestSealed
      exact (staysInBounds_awaitAck environment sodium world _ message
        haccepted.response_length).mp ((hbounds haccepted.sodiumReady server haccepted.kxKeypair
          haccepted.signReady request hrequest).2 message haccepted.opened haccepted.nonce_eq
            haccepted.quote_eq)
  · rintro ⟨hfirst, hsecond⟩ hsodium server hkeypair hsign request hrequest
    have hlength := hfirst server ⟨hsodium, hkeypair, hsign, request, hrequest⟩
    refine ⟨hlength, fun message hopened hnonce hquote ↦ ?_⟩
    exact (staysInBounds_awaitAck environment sodium world _ message hlength).mpr
      (hsecond server message
        ⟨hsodium, hkeypair, hsign, ⟨request, hrequest⟩, hlength, hopened, hnonce, hquote⟩)

end Provisioning

/-! ### The authentication enclave -/

section Authentication

open Milenage Authentication Authentication.Enclave

variable (aes : Block → Block → Block) (k : Block) (world : World)
  (environment : Environment Authentication.Enclave.Bytes)

/-- The authentication enclave makes no access outside a block exactly if its message has 48
bytes. -/
theorem staysInBounds_eappEntry :
    StaysInBounds environment 0 0 (eappEntry aes k world) ↔
      48 ≤ (environment.delivers 0).length := by
  unfold eappEntry
  simp only [staysInBounds_receive, staysInBounds_loadArray, genAuthResMilenage_eq, printNumber,
    sequence_assoc, sendBuffer_eq, ne_eq, not_true_eq_false, if_false, pure_eq,
    staysInBounds_observe, staysInBounds_transmit, staysInBounds_done, implies_true, and_true,
    Nat.zero_add]
  constructor
  · rintro ⟨hrand, hlater⟩
    obtain ⟨rand, hfound⟩ := exists_arrayAt? 0 16 hrand
    obtain ⟨hopc, hlast⟩ := hlater rand hfound
    obtain ⟨opc, hfound⟩ := exists_arrayAt? 16 16 hopc
    exact hlast opc hfound
  · intro hlength
    exact ⟨by omega, fun rand _ ↦ ⟨by omega, fun opc _ ↦ hlength⟩⟩

end Authentication

/-! ### Both enclaves -/

/-- Whatever its host delivers, no access of an enclave falls outside its block exactly if the
messages fit. For the provisioning enclave, the first message has 233 bytes and the second one is
not longer than the first, as far as they are read; for the authentication enclave, the message has
48 bytes. -/
theorem stay_in_bounds_iff (sodium : Sodium) (world : EnclaveWorld)
    (environment : Environment Bytes) (aes : Milenage.Block → Milenage.Block → Milenage.Block)
    (k : Milenage.Block) (authWorld : Authentication.Enclave.World)
    (authEnvironment : Environment Authentication.Enclave.Bytes) :
    (StaysInBounds environment 0 0 (establishSecureChannel sodium world) ↔
        MessagesFit sodium world environment) ∧
      (StaysInBounds authEnvironment 0 0 (Authentication.Enclave.eappEntry aes k authWorld) ↔
        48 ≤ (authEnvironment.delivers 0).length) :=
  ⟨staysInBounds_establishSecureChannel environment sodium world,
    staysInBounds_eappEntry aes k authWorld authEnvironment⟩

/-- A host whose first message is empty. -/
def emptyHost : Environment Bytes := ⟨fun _ ↦ true, fun _ ↦ []⟩

/-- A host that seals a response of its own with 233 bytes, and whose second message has one byte
more. -/
def longAckHost : Environment Bytes where
  accepts _ := true
  delivers
    | 0 => resize 0 32 [] ++ resize 0 16 devPublicKey ++
        (taggedWorld.nonce ++ providerHash ++ List.replicate 32 3)
    | _ => List.replicate 234 0

/-- Three hosts that make an enclave leave a block: with an empty first message, with a second
message longer than the first, and with an empty challenge. -/
theorem host_sizes_leave_blocks :
    ¬ StaysInBounds emptyHost 0 0 (establishSecureChannel tagged taggedWorld) ∧
      ¬ StaysInBounds longAckHost 0 0 (establishSecureChannel tagged taggedWorld) ∧
      ¬ StaysInBounds emptyHost 0 0 (Authentication.Enclave.eappEntry Authentication.Aes.encrypt
        Authentication.Enclave.builtInKey ⟨0, 0, List.Vector.replicate 92 0⟩) := by
  rw [staysInBounds_establishSecureChannel, staysInBounds_establishSecureChannel,
    staysInBounds_eappEntry]
  refine ⟨?_, ?_, by decide⟩
  · intro hfit
    have hfirst := hfit.first taggedClient ⟨rfl, rfl, rfl, _, rfl⟩
    exact absurd hfirst (by decide)
  · intro hfit
    have hkey : (List.replicate 32 3 : Bytes).length = kxPublicKeyBytes := List.length_replicate
    have hsecond := hfit.second _ _ (sealed_response_accepted hkey) _ rfl
    exact absurd hsecond (by decide +kernel)

end Disguise.Enclaves
