import Disguise.Provisioning.HandlerSpec
import Disguise.Provisioning.TaggedSodium

/-!
# What the provider takes for an attested enclave

The tests of `handleConnection` that stop it are the decryption of the two messages, the key
exchange and the padding. The comparison of the measurement only chooses a line to print, and the
nonce of the request is not compared with anything. The handler therefore acknowledges exactly the
connections that pass the fatal tests (`transmits_handleConnection`), and it acknowledges nothing
but genuine reports exactly when every report that passes them is genuine.
-/

set_option autoImplicit false
set_option relaxedAutoImplicit false

namespace Disguise.Provisioning.Provider

open Memory Process Process.Proc

/-- A report passes attestation: it starts with the expected measurement, and the data embedded in
it is the nonce of the request. -/
def Attested (nonce report : Bytes) : Prop :=
  bytesToHex (report.take expectedLen) = expectedHex ∧ window report 72 aeadPublicNonceBytes = nonce

instance (nonce report : Bytes) : Decidable (Attested nonce report) :=
  inferInstanceAs (Decidable (_ ∧ _))

/-- The handler sends the acknowledgement only when the second message decrypts and unpads under the
session key to a report that passes attestation for the nonce of the first message. -/
def AcksOnlyAttested (sodium : Sodium) (draws : HandlerDraws) (server : TrustedServer)
    (environment : Environment Bytes) : Prop :=
  Transmits environment (handleConnection sodium draws server) 0 0 2 →
    ∃ message keys plaintext unpaddedLen,
      RequestAccepted sodium draws server.server (environment.delivers 0) message keys ∧
        ReportAccepted sodium keys.1 (requestBuffer (received (environment.delivers 0)) message)
          (environment.delivers 1) plaintext unpaddedLen ∧
        Attested (decryptedRequest (received (environment.delivers 0)) message).nonce
          (plaintext.take unpaddedLen)

/-- Whenever the transport takes both messages of the handler and the messages of the client pass
the fatal tests, the decrypted and unpadded report carries the expected measurement and the nonce of
the request. -/
def ReportsGenuine (sodium : Sodium) (draws : HandlerDraws) (server : TrustedServer)
    (environment : Environment Bytes) : Prop :=
  environment.accepts 0 = true → environment.accepts 1 = true →
    ∀ message keys plaintext unpaddedLen boxed,
      RequestAccepted sodium draws server.server (environment.delivers 0) message keys →
        ReportAccepted sodium keys.1 (requestBuffer (received (environment.delivers 0)) message)
          (environment.delivers 1) plaintext unpaddedLen →
        sodium.secretboxEasy (server.ack ++ padding 8) draws.ackNonce keys.2 = some boxed →
          Attested (decryptedRequest (received (environment.delivers 0)) message).nonce
            (plaintext.take unpaddedLen)

/-- The plaintext and the keys of a request are determined by the request. -/
theorem RequestAccepted.unique {sodium : Sodium} {draws draws' : HandlerDraws} {server : KeyPair}
    {delivered message message' : Bytes} {keys keys' : Bytes × Bytes}
    (hfirst : RequestAccepted sodium draws server delivered message keys)
    (hsecond : RequestAccepted sodium draws' server delivered message' keys') :
    message = message' ∧ keys = keys' := by
  have hmessage : message = message' := Option.some.inj (hfirst.opened.symm.trans hsecond.opened)
  subst hmessage
  exact ⟨rfl, Option.some.inj (hfirst.keysDerived.symm.trans hsecond.keysDerived)⟩

/-- The plaintext of a report and its unpadded length are determined by the report, the key and what
the buffer holds. -/
theorem ReportAccepted.unique {sodium : Sodium} {sessionRx buffer delivered : Bytes}
    {plaintext plaintext' : Bytes} {unpaddedLen unpaddedLen' : ℕ}
    (hfirst : ReportAccepted sodium sessionRx buffer delivered plaintext unpaddedLen)
    (hsecond : ReportAccepted sodium sessionRx buffer delivered plaintext' unpaddedLen') :
    plaintext = plaintext' ∧ unpaddedLen = unpaddedLen' := by
  have hplaintext : plaintext = plaintext' :=
    Option.some.inj (hfirst.opened.symm.trans hsecond.opened)
  subst hplaintext
  exact ⟨rfl, Option.some.inj (hfirst.unpadded.symm.trans hsecond.unpadded)⟩

/-- A client that follows the protocol with a report of 96 zero bytes. -/
def unattestedClient : Environment Bytes where
  accepts _ := true
  delivers
    | 0 => taggedRequest
    | _ => taggedReport (List.replicate 96 0)

end Disguise.Provisioning.Provider
