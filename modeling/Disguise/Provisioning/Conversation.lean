import Disguise.Process.Script
import Disguise.Provisioning.HonestRun

/-!
# The conversation of the provisioning programs

The enclave and the handler of the provider follow one script of four messages, of 104, 233, 168 and
72 bytes, whatever they are given: any implementation of libsodium, any keys, any peer. So every run
of the two against each other is half-duplex, ends, and ends because a program has stopped, never
because both wait (`handshake_never_stuck`).

What the programs do with the messages does not matter here; that an honest run comes to the end of
the script is in `Disguise.Provisioning.HonestRun`.
-/

set_option autoImplicit false
set_option relaxedAutoImplicit false

namespace Disguise.Provisioning

open Memory Process Process.Proc

/-- The messages of the handshake, with the enclave on the left side. -/
def handshakeScript : List (Turn Bytes) := [
  ⟨.left, fun request ↦ request.length = 104⟩,
  ⟨.right, fun response ↦ response.length = 233⟩,
  ⟨.left, fun report ↦ report.length = 168⟩,
  ⟨.right, fun ackMessage ↦ ackMessage.length = 72⟩]

section Blocks

variable {M O ε α β : Type} [Fault ε] {side : Side} {script : List (Turn M)}

theorem follows_load {block : List α} {offset length : ℕ}
    {continuation : List α → Proc M O ε β}
    (hnext : offset + length ≤ block.length →
      Follows side script (continuation (window block offset length))) :
    Follows side script (load block offset length >>= continuation) := by
  rw [load, sequence_assoc]
  exact follows_require hnext

theorem follows_store {block data : List α} {offset : ℕ} {continuation : List α → Proc M O ε β}
    (hnext : Follows side script (continuation (overwrite block offset data))) :
    Follows side script (store block offset data >>= continuation) := by
  rw [store, sequence_assoc]
  exact follows_require fun _ ↦ hnext

end Blocks

/-! ### The enclave -/

namespace Enclave

variable {α β : Type} {side : Side} {script : List (Turn Bytes)}

theorem follows_orExit {value : Option α} {notice : String} {continuation : α → EnclaveProc β}
    (hnext : ∀ result, value = some result → Follows side script (continuation result)) :
    Follows side script (orExit value notice >>= continuation) := by
  cases value with
  | none => exact .note (.fail script _)
  | some result => exact hnext result rfl

theorem follows_verify {condition : Prop} [Decidable condition] {success failure : String}
    {continuation : Unit → EnclaveProc β} (hnext : Follows side script (continuation ())) :
    Follows side script (verify condition success failure >>= continuation) := by
  rw [verify]
  split_ifs
  · exact follows_observe hnext
  · exact .note (.fail script _)

/-- `channel_unbox` exchanges nothing. -/
theorem follows_channelUnbox (sodium : Sodium) (rx msgBuffer : Bytes) (len : ℕ)
    {continuation : Bytes × Option ℕ → EnclaveProc β}
    (hnext : ∀ unboxed, Follows side script (continuation unboxed)) :
    Follows side script (channelUnbox sodium rx msgBuffer len >>= continuation) := by
  have hnothing : Follows side [] (channelUnbox sodium rx msgBuffer len) := by
    rw [channelUnbox]
    refine follows_load fun _ ↦ follows_load fun _ ↦ ?_
    split
    · exact .note (.done _)
    · refine follows_store (follows_load fun _ ↦ ?_)
      split
      · exact .note (.done _)
      · exact .done _
  exact hnothing.bind hnext

/-- The enclave follows the script. -/
theorem follows_establishSecureChannel (sodium : Sodium) (world : EnclaveWorld) :
    Follows .left handshakeScript (establishSecureChannel sodium world) := by
  have hnonce := world.nonce_length
  have hboxNonce := world.boxNonce_length
  have hreport := length_report world
  have hpadded := length_append_padding world.report
  simp only [aeadPublicNonceBytes, secretboxNonceBytes] at hnonce hboxNonce
  rw [hreport] at hpadded
  rw [establishSecureChannel_eq]
  simp only [acceptResponse, init, awaitAck, sequence_assoc, pure_eq, done_bind]
  refine follows_observe (follows_require fun _ ↦ follows_orFail fun server _ ↦
    follows_require fun _ ↦ follows_observe (follows_orExit fun request hrequest ↦ ?_))
  have hkey := server.publicKey_length
  simp only [kxPublicKeyBytes] at hkey
  have hrequestLength : request.length = 104 := by
    rw [sodium.boxSeal_length hrequest, List.length_append, hnonce, hkey]
    rfl
  refine follows_transmit rfl hrequestLength fun _ ↦
    follows_receive Side.noConfusion fun response ↦ ?_
  refine follows_load fun _ ↦ follows_orExit fun message _ ↦ follows_verify (follows_verify ?_)
  refine follows_orExit fun boxed hboxed ↦ ?_
  have hframeLength : (boxed ++ world.boxNonce).length = 168 := by
    rw [List.length_append, sodium.secretboxEasy_length hboxed, hboxNonce, hpadded]
    rfl
  refine follows_transmit rfl hframeLength fun _ ↦
    follows_receive Side.noConfusion fun ackMessage ↦ ?_
  refine follows_store (follows_channelUnbox sodium _ _ _ fun unboxed ↦ follows_load fun _ ↦ ?_)
  split
  · exact .note (.fail [] _)
  · exact .done _

end Enclave

/-! ### The provider -/

namespace Provider

variable {β : Type} {side : Side} {script : List (Turn Bytes)} {turn : Turn Bytes}

/-- A `send` that is not taken ends the handler. -/
theorem follows_sendBytes (server : TrustedServer) {bytes : Bytes} (notice : String)
    {continuation : Unit → ProviderProc β} (hspeaker : turn.speaker = side)
    (hallowed : turn.allowed bytes) (hnext : Follows side script (continuation ())) :
    Follows side (turn :: script) (sendBytes server bytes notice >>= continuation) := by
  rw [sendBytes, sequence_assoc]
  exact follows_transmit hspeaker hallowed fun _ ↦ follows_require fun _ ↦ hnext

theorem follows_recvBytes (server : TrustedServer) (buffer : Bytes) (notice : String)
    {continuation : Bytes × ℕ → ProviderProc β} (hspeaker : turn.speaker ≠ side)
    (hnext : ∀ received, Follows side script (continuation received)) :
    Follows side (turn :: script) (recvBytes server buffer notice >>= continuation) := by
  simp only [recvBytes, sequence_assoc, pure_eq, done_bind]
  exact follows_receive hspeaker fun _ ↦ follows_require fun _ ↦ follows_store (hnext _)

/-- The response has 233 bytes whatever the request is, since its nonce is always 24 bytes of the
buffer. -/
theorem follows_response (sodium : Sodium) (draws : HandlerDraws) (server : TrustedServer)
    {nonce : Bytes} (hnonce : nonce.length = aeadPublicNonceBytes)
    {continuation : Unit → ProviderProc β}
    (hnext : Follows .right script (continuation ())) :
    Follows .right (⟨.right, fun response ↦ response.length = 233⟩ :: script)
      (sendResponse sodium draws server nonce >>= continuation) := by
  simp only [sendResponse, sequence_assoc]
  refine follows_orFail fun hashed hhashed ↦ follows_orFail fun sealed hsealed ↦ ?_
  have hhash : hashed.length = 129 := by
    rw [hexToBytes_hash, Option.some_inj] at hhashed
    rw [← hhashed, hashBytes_eq, Enclave.length_providerHash]
  have hkey := server.server.publicKey_length
  have hlength : sealed.length = 233 := by
    rw [sodium.boxSeal_length hsealed, List.length_append, List.length_append, hnonce, hhash, hkey]
    rfl
  exact follows_sendBytes server _ rfl hlength hnext

/-- The handler follows the script on the other side. -/
theorem follows_handleConnection (sodium : Sodium) (draws : HandlerDraws)
    (server : TrustedServer) :
    Follows .right handshakeScript (handleConnection sodium draws server) := by
  simp only [handleConnection, receiveRequest, generateSessionKey, receiveAttestation, sendAck_eq,
    sequence_assoc, pure_eq, done_bind]
  refine follows_recvBytes server _ _ Side.noConfusion fun received ↦ ?_
  refine follows_observe (follows_observe (follows_require fun _ ↦ follows_load fun _ ↦
    follows_orFail fun message _ ↦ follows_store (follows_observe (follows_load fun _ ↦
    follows_observe (follows_load fun hnonce ↦ follows_observe (follows_load fun _ ↦
    follows_orFail fun keys _ ↦ ?_))))))
  refine follows_response sodium draws _ (length_window hnonce) ?_
  refine follows_recvBytes _ _ _ Side.noConfusion fun attestation ↦ ?_
  refine follows_observe (follows_load fun _ ↦ follows_load fun _ ↦ follows_orFail fun _ _ ↦
    follows_store (follows_observe (follows_load fun _ ↦ follows_orFail fun _ _ ↦
    follows_load fun _ ↦ follows_observe (follows_observe (follows_load fun _ ↦
    follows_observe (follows_orFail fun boxed hboxed ↦ ?_))))))
  have hlength : (boxed ++ draws.ackNonce).length = 72 := by
    have hack := server.ack_length
    have hpadded := length_append_padding server.ack
    rw [hack] at hpadded
    rw [List.length_append, sodium.secretboxEasy_length hboxed, hpadded, draws.ackNonce_length]
    rfl
  exact follows_sendBytes _ _ rfl hlength (.done _)

end Provider

/-! ### Both programs -/

/-- The speakers of the handshake alternate. -/
theorem handshakeScript_alternates :
    handshakeScript.IsChain fun turn turn' ↦ turn.speaker ≠ turn'.speaker := by
  decide

theorem mem_handshakeScript {turn : Turn Bytes} (hturn : turn ∈ handshakeScript) :
    turn = ⟨.left, fun request ↦ request.length = 104⟩ ∨
      turn = ⟨.right, fun response ↦ response.length = 233⟩ ∨
      turn = ⟨.left, fun report ↦ report.length = 168⟩ ∨
      turn = ⟨.right, fun ackMessage ↦ ackMessage.length = 72⟩ := by
  simpa only [handshakeScript, List.mem_cons, List.not_mem_nil, or_false] using hturn

/-- Whatever surrounds them, both programs exchange messages in the order of the handshake and with
its lengths: the enclave sends 104 bytes, waits, sends 168 bytes and waits again, the handler waits,
sends 233 bytes, waits again and sends 72 bytes. Either may stop before the end, and returns a
result only at the end. -/
theorem programs_follow_handshake (sodium : Sodium) (world : Enclave.EnclaveWorld)
    (draws : Provider.HandlerDraws) (server : Provider.TrustedServer)
    (environment : Environment Bytes) :
    (∃ taken rest, handshakeScript = taken ++ rest ∧
      List.Forall₂ (Turn.Exchanged .left) taken
        (conversation environment (Enclave.establishSecureChannel sodium world) 0 0) ∧
      ∀ channel, Completes environment (Enclave.establishSecureChannel sodium world) 0 0 channel →
        rest = []) ∧
      ∃ taken rest, handshakeScript = taken ++ rest ∧
        List.Forall₂ (Turn.Exchanged .right) taken
          (conversation environment (Provider.handleConnection sodium draws server) 0 0) ∧
        ∀ handled,
          Completes environment (Provider.handleConnection sodium draws server) 0 0 handled →
            rest = [] :=
  ⟨(Enclave.follows_establishSecureChannel sodium world).conversation_eq environment 0 0,
    (Provider.follows_handleConnection sodium draws server).conversation_eq environment 0 0⟩

/-- The handshake of the two programs is half-duplex and never gets stuck, for every implementation
of libsodium, all keys and draws, and any order of their moves: at most one message is on its way,
of 104 or 168 bytes to the provider and of 233 or 72 bytes to the enclave; and every run can be
continued until no move is left, which is the case only when a program has stopped. -/
theorem handshake_never_stuck (sodium : Sodium) (world : Enclave.EnclaveWorld)
    (draws : Provider.HandlerDraws) (server : Provider.TrustedServer)
    {state : Network Bytes String Provider.Event Enclave.Stop Provider.Stop Enclave.SecureChannel
      Provider.Handled}
    (hreaches : Reaches (Network.start (Enclave.establishSecureChannel sodium world)
      (Provider.handleConnection sodium draws server)) state) :
    state.toRight.length + state.toLeft.length ≤ 1 ∧
      (∀ message ∈ state.toRight, message.length = 104 ∨ message.length = 168) ∧
      (∀ message ∈ state.toLeft, message.length = 233 ∨ message.length = 72) ∧
      (∃ last, Reaches state last ∧ ∀ next, ¬ NetworkStep last next) ∧
      ∀ last, Reaches state last → (∀ next, ¬ NetworkStep last next) →
        Stopped last.left ∨ Stopped last.right := by
  have hleft := Enclave.follows_establishSecureChannel sodium world
  have hright := Provider.follows_handleConnection sodium draws server
  obtain ⟨hcount, htoRight, htoLeft⟩ :=
    (coherent_of_reaches hleft hright hreaches).inFlight handshakeScript_alternates
  refine ⟨hcount, fun message hmessage ↦ ?_, fun message hmessage ↦ ?_, exists_final state,
    fun last hlast hfinal ↦ ?_⟩
  · obtain ⟨turn, hturn, hspeaker, hallowed⟩ := htoRight message hmessage
    rcases mem_handshakeScript hturn with rfl | rfl | rfl | rfl
    · exact Or.inl hallowed
    · exact Side.noConfusion hspeaker
    · exact Or.inr hallowed
    · exact Side.noConfusion hspeaker
  · obtain ⟨turn, hturn, hspeaker, hallowed⟩ := htoLeft message hmessage
    rcases mem_handshakeScript hturn with rfl | rfl | rfl | rfl
    · exact Side.noConfusion hspeaker
    · exact Or.inl hallowed
    · exact Side.noConfusion hspeaker
    · exact Or.inr hallowed
  · exact (coherent_of_reaches hleft hright (hreaches.trans hlast)).stopped hfinal

/-- A run of the programs over a sealing that does not hide anything. -/
theorem handshake_never_stuck_tagged :
    ∃ last, Reaches
        (Network.start (Enclave.establishSecureChannel tagged taggedWorld)
          (Provider.handleConnection tagged taggedDraws taggedServer)) last ∧
      (∀ next, ¬ NetworkStep last next) ∧ (Stopped last.left ∨ Stopped last.right) := by
  obtain ⟨-, -, -, ⟨last, hlast, hfinal⟩, hstopped⟩ :=
    handshake_never_stuck tagged taggedWorld taggedDraws taggedServer .refl
  exact ⟨last, hlast, hfinal, hstopped last hlast hfinal⟩

end Disguise.Provisioning
