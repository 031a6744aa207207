import Disguise.Provisioning.Channel

/-!
# The provisioning enclave

`establish_secure_channel` of `fpga-provision.c` with `init` of `channel.c`, as a process in source
order. `EnclaveWorld` is what the run draws or is given: the outcome of the initialization calls,
the nonces and the sealing seed, the report `attest_enclave` writes, and the contents of freshly
allocated memory.

The two messages the host delivers are byte strings of any length. The first is copied into a block
of its own length, from which 233 bytes are unsealed; the second is copied over the start of the
same block, from which 72 bytes are unboxed.

An access outside the block stops the process with `outOfBounds`. The program goes on, but nothing
is described of a run past such an access, so what is proved of the runs that return says nothing
about it. A safety property of the whole function therefore asks for `StaysInBounds` beside what it
says of those runs, and a run that leaves a block does not meet it.

`ResponseAccepted` collects the tests of the first message, and `completes_establishSecureChannel`
is the specification of the whole function: it returns exactly when the first message is accepted,
the second fits into the block, and the bytes at the start of the block are the acknowledgement
after `channel_unbox` has run.

Not modelled: the print-only handling of a failed `malloc`, the array `dest` that is filled and
never read, and the two time stamps around `attest_enclave`.
-/

set_option autoImplicit false
set_option relaxedAutoImplicit false

namespace Disguise.Provisioning.Enclave

open Memory Process Process.Proc

/-- The characters of a string literal as bytes. -/
def asciiBytes (text : String) : Bytes :=
  text.toList.map fun character ↦ UInt8.ofNat character.toNat

/-- `provider_hash`: an array of 129 bytes initialized with a literal of 130 characters, of which
the last one does not fit. -/
@[irreducible] def providerHash : Bytes :=
  (asciiBytes "6d835fbffebfefbdced9c7267bcb7011dc2665e3966d" ++
    asciiBytes "820e109ab9c831f35ba01bf5d57e15581479579adee9" ++
    asciiBytes "1f1b3a1f76792e2162a64d833b717dd5ba53c7f218").take 129

theorem length_providerHash : providerHash.length = 129 := by decide +kernel

/-- What a run of the enclave draws or is given. -/
structure EnclaveWorld where
  /-- `sodium_init` succeeds. -/
  sodiumReady : Bool
  /-- The key pair of `crypto_kx_keypair`, if it returns one. -/
  kxKeypair : Option KeyPair
  /-- `crypto_sign_keypair` succeeds. -/
  signReady : Bool
  /-- The bytes `randombytes_buf` writes into `nonce`. -/
  nonce : Bytes
  /-- The seed of the ephemeral key of the sealed request. -/
  sealSeed : Bytes
  /-- The bytes `randombytes_buf` writes behind the boxed report. -/
  boxNonce : Bytes
  /-- The bytes `attest_enclave` writes for some data. -/
  attest : Bytes → Bytes
  /-- The contents of a fresh block of a given size. -/
  fresh : ℕ → Bytes
  nonce_length : nonce.length = aeadPublicNonceBytes
  boxNonce_length : boxNonce.length = secretboxNonceBytes
  attest_length : ∀ data, (attest data).length = 2048
  fresh_length : ∀ size, (fresh size).length = size

/-- The globals and locals of `establish_secure_channel` when it returns. -/
structure SecureChannel where
  receivedNonce : Bytes
  receivedHash : Bytes
  clientPk : Bytes
  keys : SessionKeys
  dataCopy : Bytes
  ackLen : Option ℕ

/-- `init`. -/
def init (world : EnclaveWorld) : EnclaveProc KeyPair := do
  require world.sodiumReady (.eappReturn 1)
  let server ← orFail world.kxKeypair (.eappReturn 1)
  require world.signReady (.eappReturn 1)
  return server

/-- `establish_secure_channel`. -/
def establishSecureChannel (sodium : Sodium) (world : EnclaveWorld) :
    EnclaveProc SecureChannel := do
  observe "Initializing vSIM channel\n"
  let server ← init world
  -- Call to send RA request
  let sendBuffer ← store (world.fresh 1024) 0 world.nonce
  let sendBuffer ← store sendBuffer aeadPublicNonceBytes server.publicKey
  let initiateBuff ← asymmetricBox sodium world.sealSeed sendBuffer 56
    (world.fresh (56 + boxSealBytes)) devPublicKey
  let request ← load initiateBuff 0 104
  let _ ← transmit request
  -- Wait for server key and report
  let dataCopy ← receive
  let responseBuff ← asymmetricUnbox sodium dataCopy 233 (world.fresh 1024)
  -- Verify Nonce
  let receivedNonce ← load responseBuff 0 aeadPublicNonceBytes
  verify (world.nonce = receivedNonce) "[C] Nonce verified\n" "[C] Error in Received Nonce\n"
  -- Verify Quote
  let receivedHash ← load responseBuff aeadPublicNonceBytes 129
  verify (receivedHash = providerHash) "[C] Provider Quote verified\n"
    "[C] Error in Received Quote\n"
  -- Generate Session Keys: the return code is dropped
  let clientPk ← load responseBuff (aeadPublicNonceBytes + 129) kxPublicKeyBytes
  let keys := (generateSessionKeys sodium server clientPk SessionKeys.zero).2
  -- Send encrypted Quote
  let replyLen := secretboxMacBytes + blockUp 96 + secretboxNonceBytes
  let report ← load (world.attest world.nonce) 0 (64 + 8 + aeadPublicNonceBytes)
  let sendBuffer ← store sendBuffer 0 report
  let replyBuffer ← channelBox sodium world.boxNonce sendBuffer 96 (world.fresh replyLen) keys.tx
  let reply ← load replyBuffer 0 168
  let _ ← transmit reply
  -- Wait for Ack: the second message goes into the block of the first one
  let ackMessage ← receive
  let dataCopy ← store dataCopy 0 ackMessage
  let unboxed ← channelUnbox sodium keys.rx dataCopy 72
  let head ← load unboxed.1 0 8
  if head ≠ ack then
    observe "[C] Provider Didn't Acknowledge.\n"
    fail (.eappReturn 1)
  else
    return { receivedNonce, receivedHash, clientPk, keys, dataCopy := unboxed.1,
             ackLen := unboxed.2 }

/-! ### The handshake without its buffers -/

/-- The session keys for a client public key, whatever the return code of the key exchange. -/
def sessionKeys (sodium : Sodium) (server : KeyPair) (clientPk : Bytes) : SessionKeys :=
  (generateSessionKeys sodium server clientPk SessionKeys.zero).2

/-- The bytes of the report the enclave sends: the measurement, the length and the nonce at the head
of what `attest_enclave` writes. -/
def EnclaveWorld.report (world : EnclaveWorld) : Bytes := window (world.attest world.nonce) 0 96

/-- The first half of the handshake, up to the accepted quote: the key pair of the enclave, the
response of the host, and the message unsealed from it. -/
def acceptResponse (sodium : Sodium) (world : EnclaveWorld) :
    EnclaveProc (KeyPair × Bytes × Bytes) := do
  observe "Initializing vSIM channel\n"
  let server ← init world
  observe "Provider Pub key: \n"
  let request ← orExit
    (sodium.boxSeal world.sealSeed (world.nonce ++ server.publicKey) devPublicKey)
    "[C] Unable to encrypt message, exiting\n"
  let _ ← transmit request
  let response ← receive
  let sealed ← load response 0 233
  let message ← orExit (sodium.boxSealOpen sealed devPublicKey devSecretKey)
    "[C] Unable to decrypt message, exiting\n"
  verify (world.nonce = window message 0 24) "[C] Nonce verified\n" "[C] Error in Received Nonce\n"
  verify (window message 24 129 = providerHash) "[C] Provider Quote verified\n"
    "[C] Error in Received Quote\n"
  return (server, response, message)

/-- The second half of the handshake: the boxed report, and the acknowledgement. -/
def awaitAck (sodium : Sodium) (world : EnclaveWorld) (keys : SessionKeys)
    (response message : Bytes) : EnclaveProc SecureChannel := do
  let boxed ← orExit (sodium.secretboxEasy (world.report ++ padding 96) world.boxNonce keys.tx)
    "[C] Unable to encrypt message, exiting\n"
  let _ ← transmit (boxed ++ world.boxNonce)
  let ackMessage ← receive
  let dataCopy ← store response 0 ackMessage
  let unboxed ← channelUnbox sodium keys.rx dataCopy 72
  let head ← load unboxed.1 0 8
  if head ≠ ack then
    observe "[C] Provider Didn't Acknowledge.\n"
    fail (.eappReturn 1)
  else
    return { receivedNonce := window message 0 24, receivedHash := window message 24 129,
             clientPk := window message 153 32, keys, dataCopy := unboxed.1,
             ackLen := unboxed.2 }

/-- The bytes of the sealed request are the nonce and the public key of the run. -/
theorem window_request (world : EnclaveWorld) (server : KeyPair) :
    window (overwrite (overwrite (world.fresh 1024) 0 world.nonce) aeadPublicNonceBytes
      server.publicKey) 0 56 = world.nonce ++ server.publicKey := by
  have hnonce := world.nonce_length
  have hkey := server.publicKey_length
  simp only [aeadPublicNonceBytes, kxPublicKeyBytes] at hnonce hkey ⊢
  have hhead : (overwrite (world.fresh 1024) 0 world.nonce).take 24 = world.nonce := by
    rw [overwrite_zero, ← hnonce, List.take_left]
  rw [overwrite, hhead, window_append_left (by rw [List.length_append]; omega)]
  exact window_all (by rw [List.length_append, hnonce, hkey])

/-- The fields of a response are read back where the enclave looks for them. -/
theorem response_fields {nonce hash publicKey : Bytes} (hnonce : nonce.length = 24)
    (hhash : hash.length = 129) (hkey : publicKey.length = 32) :
    window (nonce ++ hash ++ publicKey) 0 24 = nonce ∧
      window (nonce ++ hash ++ publicKey) 24 129 = hash ∧
      window (nonce ++ hash ++ publicKey) 153 32 = publicKey := by
  have hhead : (nonce ++ hash).length = 153 := by
    rw [List.length_append]
    omega
  refine ⟨?_, ?_, ?_⟩
  · rw [window_append_left (by omega), window_append_left (by omega), window_all hnonce]
  · rw [window_append_left (by omega), window_append_right (by omega), hnonce, Nat.sub_self,
      window_all hhash]
  · rw [window_append_right (by omega), hhead, Nat.sub_self, window_all hkey]

/-- `establish_secure_channel` is its two halves: every access of its own buffers is in bounds, and
what it reads from them is what it wrote. -/
theorem establishSecureChannel_eq (sodium : Sodium) (world : EnclaveWorld) :
    establishSecureChannel sodium world =
      (acceptResponse sodium world >>= fun accepted ↦
        awaitAck sodium world (sessionKeys sodium accepted.1 (window accepted.2.2 153 32))
          accepted.2.1 accepted.2.2) := by
  have hnonce := world.nonce_length
  unfold establishSecureChannel acceptResponse
  simp only [sequence_assoc]
  refine bind_congr fun _ ↦ ?_
  refine bind_congr fun server ↦ ?_
  have hkey := server.publicKey_length
  have hrequest := window_request world server
  simp only [aeadPublicNonceBytes, kxPublicKeyBytes, boxSealBytes, secretboxMacBytes,
    secretboxNonceBytes] at hnonce hkey hrequest ⊢
  have hfirst : (overwrite (world.fresh 1024) 0 world.nonce).length = 1024 := by
    rw [length_overwrite] <;> rw [world.fresh_length]
    omega
  have hsecond : (overwrite (overwrite (world.fresh 1024) 0 world.nonce) 24
      server.publicKey).length = 1024 := by
    rw [length_overwrite (by omega), hfirst]
  rw [store_eq (by rw [world.fresh_length]; omega), done_bind, store_eq (by omega), done_bind]
  generalize overwrite (overwrite (world.fresh 1024) 0 world.nonce) 24 server.publicKey = sendBuffer
    at hrequest hsecond ⊢
  rw [asymmetricBox_eq sodium _ _ (by omega) (world.fresh_length _), hrequest]
  simp only [sequence_assoc]
  refine bind_congr fun _ ↦ orExit_congr fun sealed hsealed ↦ ?_
  have hsealedLength := sodium.boxSeal_length hsealed
  rw [List.length_append, hnonce, hkey] at hsealedLength
  simp only [boxSealBytes] at hsealedLength
  rw [done_bind, load_eq (by omega), done_bind, window_all hsealedLength]
  refine bind_congr fun _ ↦ bind_congr fun response ↦ ?_
  rw [asymmetricUnbox_eq sodium response (by rw [world.fresh_length]; omega)]
  simp only [sequence_assoc]
  refine load_congr fun hresponse ↦ ?_
  refine orExit_congr fun message hmessage ↦ ?_
  have hmessageLength := sodium.boxSealOpen_length hmessage
  rw [length_window hresponse] at hmessageLength
  simp only [boxSealBytes] at hmessageLength
  have hresponseBuff : (overwrite (world.fresh 1024) 0 message).length = 1024 := by
    rw [length_overwrite] <;> rw [world.fresh_length]
    omega
  rw [done_bind, load_eq (by omega), done_bind, window_overwrite_zero (by omega)]
  refine bind_congr fun _ ↦ ?_
  rw [load_eq (by omega), done_bind, window_overwrite_zero (by omega)]
  refine bind_congr fun _ ↦ ?_
  rw [load_eq (by omega), done_bind, window_overwrite_zero (by omega), pure_eq, done_bind,
    awaitAck, load_eq (by rw [world.attest_length]; omega), done_bind]
  have hreport : (window (world.attest world.nonce) 0 (64 + 8 + 24)).length = 96 :=
    length_window (by rw [world.attest_length]; omega)
  have hreply : (world.fresh (16 + blockUp 96 + 24)).length = 168 := by
    rw [world.fresh_length]
    rfl
  rw [store_eq (by omega), done_bind,
    channelBox_eq sodium _ world.boxNonce_length
      (by rw [length_overwrite (by omega)]; omega) hreply,
    window_overwrite_zero (by omega), window_all hreport, sequence_assoc]
  refine orExit_congr fun boxed hboxed ↦ ?_
  have hpadded := length_append_padding (window (world.attest world.nonce) 0 (64 + 8 + 24))
  have hreplyLength : (boxed ++ world.boxNonce).length = 168 := by
    rw [hreport] at hpadded
    rw [List.length_append, sodium.secretboxEasy_length hboxed, world.boxNonce_length, hpadded]
    rfl
  rw [done_bind, load_eq (by omega), done_bind, window_all hreplyLength]
  rfl

/-! ### When the enclave finishes -/

/-- The enclave gets past the quote of the first message: the initialization and the sealing of the
request succeed, and the first 233 bytes of the response unseal to `message`, which starts with the
nonce of the run and the expected quote. -/
structure ResponseAccepted (sodium : Sodium) (world : EnclaveWorld) (response : Bytes)
    (server : KeyPair) (message : Bytes) : Prop where
  sodiumReady : world.sodiumReady = true
  kxKeypair : world.kxKeypair = some server
  signReady : world.signReady = true
  requestSealed : ∃ request,
    sodium.boxSeal world.sealSeed (world.nonce ++ server.publicKey) devPublicKey = some request
  response_length : 233 ≤ response.length
  opened : sodium.boxSealOpen (window response 0 233) devPublicKey devSecretKey = some message
  nonce_eq : world.nonce = window message 0 24
  quote_eq : window message 24 129 = providerHash

/-- The block the acknowledgement is unboxed from: the second message over the start of the
first. -/
def ackBlock (response ackMessage : Bytes) : Bytes := overwrite response 0 ackMessage

/-- The enclave gets from the accepted quote to the end of the handshake: the report can be boxed,
the second message fits into the block of the first, and the block starts with `Ack` after
`channel_unbox`. -/
structure AckAccepted (sodium : Sodium) (world : EnclaveWorld) (keys : SessionKeys)
    (response ackMessage : Bytes) : Prop where
  reportBoxed : ∃ boxed,
    sodium.secretboxEasy (world.report ++ padding 96) world.boxNonce keys.tx = some boxed
  fits : ackMessage.length ≤ response.length
  head_eq : window (unboxResult sodium keys.rx (ackBlock response ackMessage) 72).1 0 8 = ack

section Completes

variable {α : Type} (environment : Environment Bytes) (sodium : Sodium) (world : EnclaveWorld)

theorem completes_init (sends waits : ℕ) (result : α) (continuation : KeyPair → EnclaveProc α) :
    Completes environment (init world >>= continuation) sends waits result ↔
      world.sodiumReady = true ∧ ∃ server, world.kxKeypair = some server ∧
        world.signReady = true ∧
          Completes environment (continuation server) sends waits result := by
  simp only [init, sequence_assoc, completes_require, completes_orFail, pure_eq, done_bind]

theorem completes_acceptResponse (result : α)
    (continuation : KeyPair × Bytes × Bytes → EnclaveProc α) :
    Completes environment (acceptResponse sodium world >>= continuation) 0 0 result ↔
      ∃ server message, ResponseAccepted sodium world (environment.delivers 0) server message ∧
        Completes environment (continuation (server, environment.delivers 0, message)) 1 1
          result := by
  simp only [acceptResponse, sequence_assoc, completes_observe, completes_init, completes_orExit,
    completes_transmit, completes_receive, completes_load, completes_verify, pure_eq, done_bind,
    Nat.zero_add]
  constructor
  · rintro ⟨hsodium, server, hkeypair, hsign, request, hrequest, hlength, message, hopened, hnonce,
      hquote, hrest⟩
    exact ⟨server, message,
      ⟨hsodium, hkeypair, hsign, ⟨request, hrequest⟩, hlength, hopened, hnonce, hquote⟩, hrest⟩
  · rintro ⟨server, message, haccepted, hrest⟩
    obtain ⟨request, hrequest⟩ := haccepted.requestSealed
    exact ⟨haccepted.sodiumReady, server, haccepted.kxKeypair, haccepted.signReady, request,
      hrequest, haccepted.response_length, message, haccepted.opened, haccepted.nonce_eq,
      haccepted.quote_eq, hrest⟩

/-- What the enclave holds when the handshake is over. -/
def finished (sodium : Sodium) (keys : SessionKeys) (response message ackMessage : Bytes) :
    SecureChannel :=
  let unboxed := unboxResult sodium keys.rx (ackBlock response ackMessage) 72
  { receivedNonce := window message 0 24, receivedHash := window message 24 129,
    clientPk := window message 153 32, keys, dataCopy := unboxed.1, ackLen := unboxed.2 }

/-- Assumes: the block of the first message holds the 233 bytes it was unsealed from. -/
theorem completes_awaitAck (keys : SessionKeys) {response : Bytes} (message : Bytes)
    (hresponse : 233 ≤ response.length) (result : SecureChannel) :
    Completes environment (awaitAck sodium world keys response message) 1 1 result ↔
      AckAccepted sodium world keys response (environment.delivers 1) ∧
        finished sodium keys response message (environment.delivers 1) = result := by
  simp only [awaitAck, completes_orExit, completes_transmit, completes_receive, completes_store,
    Nat.zero_add]
  have hunbox : (environment.delivers 1).length ≤ response.length → ∀ continuation,
      Completes environment (channelUnbox sodium keys.rx (overwrite response 0
        (environment.delivers 1)) 72 >>= continuation) 2 2 result ↔
      Completes environment (continuation (unboxResult sodium keys.rx
        (ackBlock response (environment.delivers 1)) 72)) 2 2 result := by
    intro hfits continuation
    have hblock : (overwrite response 0 (environment.delivers 1)).length = response.length :=
      length_overwrite (by omega)
    exact completes_channelUnbox environment 2 2 result sodium keys.rx _ (Nat.le_refl 72)
      (by omega) (by decide) continuation
  constructor
  · rintro ⟨boxed, hboxed, hfits, hrest⟩
    rw [hunbox hfits, completes_load] at hrest
    obtain ⟨-, hrest⟩ := hrest
    by_cases hhead : window (unboxResult sodium keys.rx (ackBlock response (environment.delivers 1))
      72).1 0 8 = ack
    · rw [if_neg (not_not_intro hhead), pure_eq, completes_done] at hrest
      exact ⟨⟨⟨boxed, hboxed⟩, hfits, hhead⟩, hrest⟩
    · rw [if_pos hhead, completes_observe] at hrest
      exact absurd hrest (completes_fail _ _ _ _ _)
  · rintro ⟨⟨⟨boxed, hboxed⟩, hfits, hhead⟩, hresult⟩
    refine ⟨boxed, hboxed, hfits, ?_⟩
    rw [hunbox hfits, completes_load, if_neg (not_not_intro hhead), pure_eq, completes_done]
    have hlength : (window (unboxResult sodium keys.rx (ackBlock response
        (environment.delivers 1)) 72).1 0 8).length = 8 := congrArg List.length hhead
    rw [window_zero, List.length_take] at hlength
    exact ⟨by omega, hresult⟩

/-- The enclave finishes exactly when it accepts both messages. -/
theorem completes_establishSecureChannel (result : SecureChannel) :
    Completes environment (establishSecureChannel sodium world) 0 0 result ↔
      ∃ server message, ResponseAccepted sodium world (environment.delivers 0) server message ∧
        AckAccepted sodium world (sessionKeys sodium server (window message 153 32))
          (environment.delivers 0) (environment.delivers 1) ∧
        finished sodium (sessionKeys sodium server (window message 153 32))
          (environment.delivers 0) message (environment.delivers 1) = result := by
  rw [establishSecureChannel_eq, completes_acceptResponse]
  constructor
  · rintro ⟨server, message, haccepted, hrest⟩
    exact ⟨server, message, haccepted, (completes_awaitAck environment sodium world _ message
      haccepted.response_length result).mp hrest⟩
  · rintro ⟨server, message, haccepted, hrest⟩
    exact ⟨server, message, haccepted, (completes_awaitAck environment sodium world _ message
      haccepted.response_length result).mpr hrest⟩

end Completes

end Disguise.Provisioning.Enclave
