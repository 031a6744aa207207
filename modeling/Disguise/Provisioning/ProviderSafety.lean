import Disguise.Provisioning.HandlerSpec
import Disguise.Provisioning.TaggedSodium

/-!
# Memory safety of the provider

What a client can make the handler do to its buffer. `Sound` is the condition on one observation: a
difference of lengths that is used does not wrap below zero, and bytes that are given a meaning lie
in the plaintext that was decrypted last. A handler survives a client when all its observations are
sound and it does not access anything outside its buffer.

The code assumes the lengths of the honest messages. `survivesClient_iff` gives the exact lengths
that are safe: at least 40 bytes for a first message, at least 104 if it decrypts, and at least 24
for a second message, at least 168 if it decrypts. A first message of 1 to 39 bytes makes the length
of a vector wrap below zero; the constructor then throws, and nothing is accessed.
-/

set_option autoImplicit false
set_option relaxedAutoImplicit false

namespace Disguise.Provisioning.Provider

open Memory Process Process.Proc

/-- An observation is no evidence of a memory error. -/
def Sound : Event → Prop
  | .uses minuend subtrahend => subtrahend ≤ minuend
  | .interprets _ offset length plaintextLength => offset + length ≤ plaintextLength
  | .verdict _ => True

/-- The handler may throw, but not leave its buffer. -/
def Throws : Stop → Prop
  | .threw _ _ => True
  | .outOfBounds => False

theorem sound_uses (minuend subtrahend : ℕ) :
    Sound (.uses minuend subtrahend) ↔ subtrahend ≤ minuend :=
  Iff.rfl

theorem sound_interprets (meaning : Meaning) (offset length plaintextLength : ℕ) :
    Sound (.interprets meaning offset length plaintextLength) ↔
      offset + length ≤ plaintextLength :=
  Iff.rfl

theorem sound_verdict (passed : Bool) : Sound (.verdict passed) := trivial

theorem throws_threw (exception : Exception) (server : TrustedServer) :
    Throws (.threw exception server) :=
  trivial

theorem not_throws_outOfBounds : ¬ Throws .outOfBounds := id

/-- The handler survives the client of an environment: it throws or returns, and every difference
and every run of bytes it uses on the way is sound. -/
def SurvivesClient (sodium : Sodium) (draws : HandlerDraws) (server : TrustedServer)
    (environment : Environment Bytes) : Prop :=
  Respects Sound Throws (fun _ ↦ True) environment (handleConnection sodium draws server) 0 0

/-- A first message the handler can cope with: none, or at least 40 bytes, and at least 104 if they
decrypt. -/
def RequestHarmless (sodium : Sodium) (delivered : Bytes) : Prop :=
  received delivered = [] ∨ 40 ≤ (received delivered).length ∧
    (sodium.boxSealOpen (received delivered) devPublicKey devSecretKey = none ∨
      104 ≤ (received delivered).length)

/-- A second message the handler can cope with: none, or at least 24 bytes, and at least 168 if they
decrypt. -/
def ReportHarmless (sodium : Sodium) (sessionRx delivered : Bytes) : Prop :=
  received delivered = [] ∨ 24 ≤ (received delivered).length ∧
    (openReport sodium sessionRx delivered = none ∨ 168 ≤ (received delivered).length)

section Respects

variable {α : Type} (environment : Environment Bytes) (sodium : Sodium) (server : TrustedServer)
  (sends waits : ℕ)

theorem respects_receiveRequest (continuation : Request → ProviderProc α) :
    Respects Sound Throws (fun _ ↦ True) environment
        (receiveRequest sodium server >>= continuation) sends waits ↔
      RequestHarmless sodium (environment.delivers waits) ∧
        ∀ message, sodium.boxSealOpen (received (environment.delivers waits)) devPublicKey
            devSecretKey = some message →
          Respects Sound Throws (fun _ ↦ True) environment
            (continuation (decryptedRequest (received (environment.delivers waits)) message)) sends
            (waits + 1) := by
  simp only [receiveRequest_eq, sequence_assoc, respects_receive, respects_require,
    respects_observe, respects_orFail, pure_eq, done_bind, sound_uses, sound_interprets,
    throws_threw, implies_true, true_and]
  simp only [secretboxNonceBytes, secretboxMacBytes, boxSealBytes, aeadPublicNonceBytes,
    kxPublicKeyBytes]
  have hlength := length_received_le (environment.delivers waits)
  have hclen : 24 ≤ (received (environment.delivers waits)).length →
      sizeSub (received (environment.delivers waits)).length 24 =
        (received (environment.delivers waits)).length - 24 :=
    fun hlong ↦ sizeSub_eq hlong (by omega)
  constructor
  · intro hrespects
    constructor
    · by_cases hempty : received (environment.delivers waits) = []
      · exact Or.inl hempty
      · obtain ⟨hnonce, hmac, hrest⟩ := hrespects hempty
        rw [hclen hnonce] at hmac
        refine Or.inr ⟨by omega, ?_⟩
        cases hopened : sodium.boxSealOpen (received (environment.delivers waits)) devPublicKey
            devSecretKey with
        | none => exact Or.inl rfl
        | some message =>
          have hmessage := length_of_opened hopened
          have hfields := (hrest (by omega) message hopened).2.2.1
          exact Or.inr (by omega)
    · intro message hopened
      have hmessage := length_of_opened hopened
      have hne : received (environment.delivers waits) ≠ [] :=
        List.ne_nil_of_length_pos (by omega)
      exact ((hrespects hne).2.2 (by omega) message hopened).2.2.2
  · rintro ⟨hharmless, hrest⟩ hne
    obtain ⟨hlong, hopens⟩ := hharmless.resolve_left hne
    refine ⟨by omega, by rw [hclen (by omega)]; omega, fun _ message hopened ↦ ?_⟩
    have hmessage := length_of_opened hopened
    have hsealed := hopens.resolve_left (hopened ▸ Option.some_ne_none message)
    exact ⟨by omega, by omega, by omega, hrest message hopened⟩

theorem respects_receiveAttestation {buffer : Bytes} (hbuffer : buffer.length = 1024)
    (continuation : Bytes × ℕ → ProviderProc α) (hcontinuation : ∀ attested sends waits,
      Respects Sound Throws (fun _ ↦ True) environment (continuation attested) sends waits) :
    Respects Sound Throws (fun _ ↦ True) environment
        (receiveAttestation sodium server buffer >>= continuation) sends waits ↔
      ReportHarmless sodium server.sessionRx (environment.delivers waits) := by
  simp only [receiveAttestation_eq sodium server hbuffer, sequence_assoc, respects_receive,
    respects_require, respects_observe, respects_orFail, pure_eq, done_bind, sound_uses,
    sound_interprets, sound_verdict, throws_threw, not_throws_outOfBounds, implies_true, true_and,
    hcontinuation, expectedLen_eq, and_true, imp_false, not_not]
  rw [ReportHarmless, openReport]
  simp only [secretboxNonceBytes]
  have hplaintextLength : ∀ plaintext, 24 ≤ (received (environment.delivers waits)).length →
      sodium.secretboxOpenEasy
        (window (received (environment.delivers waits)) 0
          ((received (environment.delivers waits)).length - 24))
        (window (received (environment.delivers waits))
          ((received (environment.delivers waits)).length - 24) 24) server.sessionRx =
        some plaintext →
      (received (environment.delivers waits)).length = plaintext.length + 40 := by
    intro plaintext hlong hopened
    have hboxed := sodium.secretboxOpenEasy_length hopened
    rw [length_window (by omega)] at hboxed
    simp only [secretboxMacBytes] at hboxed
    omega
  constructor
  · intro hrespects
    by_cases hempty : received (environment.delivers waits) = []
    · exact Or.inl hempty
    · obtain ⟨-, hlong, hrest⟩ := hrespects hempty
      refine Or.inr ⟨hlong, ?_⟩
      cases hopened : sodium.secretboxOpenEasy
          (window (received (environment.delivers waits)) 0
            ((received (environment.delivers waits)).length - 24))
          (window (received (environment.delivers waits))
            ((received (environment.delivers waits)).length - 24) 24) server.sessionRx with
      | none => exact Or.inl rfl
      | some plaintext =>
        have hplaintext := hplaintextLength plaintext hlong hopened
        have hpadding := (hrest hlong plaintext hopened).1
        exact Or.inr (by omega)
  · intro hharmless hne
    obtain ⟨hlong, hopens⟩ := hharmless.resolve_left hne
    refine ⟨hlong, hlong, fun _ plaintext hopened ↦ ?_⟩
    have hplaintext := hplaintextLength plaintext hlong hopened
    have hboxed := hopens.resolve_left (hopened ▸ Option.some_ne_none plaintext)
    refine ⟨by omega, fun unpaddedLen hunpadded ↦ ?_⟩
    have hunpaddedLength := sodium.unpad_lt hunpadded
    have hwindow := length_window_le (attestedBuffer buffer (received (environment.delivers waits))
      plaintext) 0 128
    exact ⟨by omega, by omega⟩

theorem respects_sendAck (draws : HandlerDraws) (buffer : Bytes)
    (continuation : Unit → ProviderProc α) (hcontinuation : ∀ sends waits,
      Respects Sound Throws (fun _ ↦ True) environment (continuation ()) sends waits) :
    Respects Sound Throws (fun _ ↦ True) environment
      (sendAck sodium draws server buffer >>= continuation) sends waits := by
  simp only [sendAck_eq, sendBytes, sequence_assoc, respects_orFail, respects_transmit,
    respects_require, throws_threw, hcontinuation, implies_true, and_self]

end Respects

/-- The client of a connection is harmless: its first message is, and its second message is whenever
the handler gets to the point of receiving it. -/
def ClientHarmless (sodium : Sodium) (draws : HandlerDraws) (server : TrustedServer)
    (environment : Environment Bytes) : Prop :=
  RequestHarmless sodium (environment.delivers 0) ∧ ∀ message keys,
    RequestAccepted sodium draws server.server (environment.delivers 0) message keys →
      environment.accepts 0 = true → ReportHarmless sodium keys.1 (environment.delivers 1)

/-- The handler survives exactly the harmless clients. -/
theorem survivesClient_iff (sodium : Sodium) (draws : HandlerDraws) (server : TrustedServer)
    (environment : Environment Bytes) :
    SurvivesClient sodium draws server environment ↔
      ClientHarmless sodium draws server environment := by
  unfold SurvivesClient ClientHarmless handleConnection
  rw [respects_receiveRequest]
  refine and_congr_right fun hharmless ↦ ?_
  simp only [generateSessionKey, sendResponse, hexToBytes_hash, orFail_some, done_bind, sendBytes,
    sequence_assoc, respects_orFail, respects_transmit, respects_require, pure_eq, throws_threw,
    implies_true, true_and]
  constructor
  · intro hrespects message keys hrequest htaken
    obtain ⟨sealed, hsealed⟩ := hrequest.responseSealed
    have hrest := hrespects message hrequest.opened keys hrequest.keysDerived sealed hsealed htaken
    refine (respects_receiveAttestation environment sodium _ _ _
      (length_requestBuffer_of_opened hrequest.opened) _ fun attested sends waits ↦ ?_).mp hrest
    exact respects_sendAck environment sodium _ sends waits draws attested.1 _
      fun sends waits ↦ (respects_done _ _ _ _ _ _ _).mpr trivial
  · intro hreports message hopened keys hkeys sealed hsealed htaken
    refine (respects_receiveAttestation environment sodium _ _ _
      (length_requestBuffer_of_opened hopened) _ fun attested sends waits ↦ ?_).mpr
        (hreports message keys ⟨hopened, hkeys, ⟨sealed, hsealed⟩⟩ htaken)
    exact respects_sendAck environment sodium _ sends waits draws attested.1 _
      fun sends waits ↦ (respects_done _ _ _ _ _ _ _).mpr trivial

/-- A client that follows the protocol up to the response and then sends five bytes. -/
def shortClient : Environment Bytes where
  accepts _ := true
  delivers
    | 0 => taggedRequest
    | _ => List.replicate 5 0

/-- The handler computes the length of the second ciphertext as 5 - 24 and uses it. -/
theorem short_report_not_survived :
    ¬ SurvivesClient tagged taggedDraws taggedServer shortClient := by
  intro hsurvives
  have hwraps : Event.uses 5 24 ∈
      (execute shortClient (handleConnection tagged taggedDraws taggedServer) 0 0).notes := by
    decide +kernel
  have hsound : 24 ≤ 5 := hsurvives.notes _ hwraps
  omega

end Disguise.Provisioning.Provider
