import Disguise.Provisioning.Frame
import Disguise.Provisioning.Provider

/-!
# The handler without its buffer

What the parts of `handleConnection` compute, with the accesses of the buffer that are always in
bounds discharged. `receiveRequest_eq`, `receiveAttestation_eq` and `sendAck_eq` are equations of
processes, so everything said about the short form holds of the code.

What is left of the buffer is what it contributes to the result: the two fields of the request are
cut out of the buffer whatever the length of the plaintext is (`decryptedRequest`), and so is the
padded report (`attestedBuffer`).
-/

set_option autoImplicit false
set_option relaxedAutoImplicit false

namespace Disguise.Provisioning.Provider

open Memory Process Process.Proc

/-- The bytes `recv` takes of a delivered message. -/
def received (delivered : Bytes) : Bytes := delivered.take bufferSize

/-- No more bytes are taken than the buffer holds. -/
theorem length_received_le (delivered : Bytes) : (received delivered).length ≤ 1024 := by
  rw [received, List.length_take]
  exact Nat.min_le_left _ _

/-- A message that fits into the buffer is taken whole. -/
theorem received_eq {delivered : Bytes} (hlength : delivered.length ≤ 1024) :
    received delivered = delivered :=
  List.take_of_length_le hlength

/-- The buffer when the first message has been decrypted in place. -/
def requestBuffer (bytes message : Bytes) : Bytes :=
  overwrite (overwrite (List.replicate bufferSize 0) 0 bytes) 0 message

/-- The request in a message and its plaintext. -/
def decryptedRequest (bytes message : Bytes) : Request :=
  { buffer := requestBuffer bytes message
    nonce := window (requestBuffer bytes message) 0 aeadPublicNonceBytes
    clientPk := window (requestBuffer bytes message) aeadPublicNonceBytes kxPublicKeyBytes }

/-- The buffer when the second message has been decrypted in place. -/
def attestedBuffer (buffer bytes plaintext : Bytes) : Bytes :=
  overwrite (overwrite buffer 0 bytes) 0 plaintext

/-- Receiving into a buffer of 1024 bytes writes the message over its start. -/
theorem recvBytes_eq (server : TrustedServer) {buffer : Bytes} (message : String)
    (hbuffer : buffer.length = 1024) :
    recvBytes server buffer message =
      (receive >>= fun delivered ↦
        require (received delivered ≠ []) (.threw (.networkError message) server) >>= fun _ ↦
          done (overwrite buffer 0 (received delivered), (received delivered).length)) := by
  refine bind_congr fun delivered ↦ bind_congr fun _ ↦ ?_
  have hlength := length_received_le delivered
  rw [received] at hlength
  rw [store_eq (by omega)]
  rfl

/-- The length of the vector that is never read stays within the limit exactly when it does not wrap
below zero. -/
theorem vectorLength_le_iff {length : ℕ} (hlength : length ≤ 1024) :
    sizeSub (sizeSub length secretboxNonceBytes) secretboxMacBytes ≤ vectorMaxSize ↔
      40 ≤ length := by
  simp only [sizeSub, secretboxNonceBytes, secretboxMacBytes, vectorMaxSize]
  omega

/-- A message fits into the fresh buffer. -/
theorem length_receivedBuffer {bytes : Bytes} (hbytes : bytes.length ≤ 1024) :
    (overwrite (List.replicate bufferSize (0 : UInt8)) 0 bytes).length = 1024 := by
  have hfresh : (List.replicate bufferSize (0 : UInt8)).length = 1024 := List.length_replicate
  rw [length_overwrite (by omega), hfresh]

/-- A decrypted request fits into the buffer it is decrypted in. -/
theorem length_requestBuffer {bytes message : Bytes} (hbytes : bytes.length ≤ 1024)
    (hmessage : message.length ≤ 1024) : (requestBuffer bytes message).length = 1024 := by
  have hreceived := length_receivedBuffer hbytes
  rw [requestBuffer, length_overwrite (by omega), hreceived]

/-- A message that decrypts as a request has the 48 bytes a sealed box adds. -/
theorem length_of_opened {sodium : Sodium} {delivered message : Bytes}
    (hopened : sodium.boxSealOpen (received delivered) devPublicKey devSecretKey = some message) :
    (received delivered).length = message.length + 48 :=
  sodium.boxSealOpen_length hopened

/-- A request that decrypts fits into the buffer. -/
theorem length_requestBuffer_of_opened {sodium : Sodium} {delivered message : Bytes}
    (hopened : sodium.boxSealOpen (received delivered) devPublicKey devSecretKey = some message) :
    (requestBuffer (received delivered) message).length = 1024 := by
  have hmessage := length_of_opened hopened
  have hlength := length_received_le delivered
  exact length_requestBuffer hlength (by omega)

/-- The request, with the accesses of the buffer discharged. -/
theorem receiveRequest_eq (sodium : Sodium) (server : TrustedServer) :
    receiveRequest sodium server = (do
      let delivered ← receive
      require (received delivered ≠ [])
        (.threw (.networkError "Error receiving data") server)
      observe (.uses (received delivered).length secretboxNonceBytes)
      observe (.uses (sizeSub (received delivered).length secretboxNonceBytes) secretboxMacBytes)
      require (40 ≤ (received delivered).length) (.threw .lengthError server)
      let message ← orFail (sodium.boxSealOpen (received delivered) devPublicKey devSecretKey)
        (.threw (.cryptoError "Decryption failed") server)
      observe (.uses (received delivered).length boxSealBytes)
      observe (.interprets .nonce 0 aeadPublicNonceBytes message.length)
      observe (.interprets .clientPk aeadPublicNonceBytes kxPublicKeyBytes message.length)
      return decryptedRequest (received delivered) message) := by
  unfold receiveRequest
  have hfresh : (List.replicate bufferSize (0 : UInt8)).length = 1024 := List.length_replicate
  rw [recvBytes_eq server _ hfresh]
  simp only [sequence_assoc, done_bind]
  refine bind_congr fun delivered ↦ bind_congr fun _ ↦ bind_congr fun _ ↦ bind_congr fun _ ↦ ?_
  have hlength := length_received_le delivered
  have hbuffer := length_receivedBuffer hlength
  rw [require_congr _ (vectorLength_le_iff hlength)]
  refine bind_congr fun _ ↦ ?_
  rw [load_eq (by omega), done_bind, window_overwrite_zero (by omega), window_all rfl]
  refine orFail_congr fun message hmessage ↦ ?_
  have hmessageLength := length_of_opened hmessage
  have hrequest := length_requestBuffer_of_opened hmessage
  simp only [boxSealBytes]
  rw [store_eq (by omega), done_bind]
  refine bind_congr fun _ ↦ ?_
  rw [requestBuffer] at hrequest
  rw [sizeSub_eq (by omega) (by omega), load_eq (by omega), done_bind]
  refine bind_congr fun _ ↦ ?_
  simp only [aeadPublicNonceBytes, kxPublicKeyBytes]
  rw [load_eq (by omega), done_bind]
  refine bind_congr fun _ ↦ ?_
  rw [load_eq (by omega), done_bind]
  rfl

/-- The expected measurement has 65 bytes. -/
theorem expectedLen_eq : expectedLen = 65 := by decide +kernel

/-- The nonce of a report lies in the buffer exactly when the message is as long as a nonce. -/
theorem nonceBounds_iff {length : ℕ} (hlength : length ≤ 1024) :
    sizeSub length secretboxNonceBytes + secretboxNonceBytes ≤ 1024 ↔ 24 ≤ length := by
  simp only [sizeSub, secretboxNonceBytes]
  omega

/-- The attestation, with the accesses of the buffer discharged. The one that remains is the read of
the nonce of a message that is shorter than a nonce. -/
theorem receiveAttestation_eq (sodium : Sodium) (server : TrustedServer) {buffer : Bytes}
    (hbuffer : buffer.length = 1024) :
    receiveAttestation sodium server buffer = (do
      let delivered ← receive
      require (received delivered ≠ [])
        (.threw (.networkError "Error receiving attestation") server)
      observe (.uses (received delivered).length secretboxNonceBytes)
      require (24 ≤ (received delivered).length) .outOfBounds
      let plaintext ← orFail
        (sodium.secretboxOpenEasy
          (window (received delivered) 0 ((received delivered).length - secretboxNonceBytes))
          (window (received delivered) ((received delivered).length - secretboxNonceBytes)
            secretboxNonceBytes) server.sessionRx)
        (.threw (.cryptoError "Decryption (unbox) failed") server)
      observe (.interprets .padding 0 128 plaintext.length)
      let unpaddedLen ← orFail
        (sodium.unpad (window (attestedBuffer buffer (received delivered) plaintext) 0 128))
        (.threw (.cryptoError "Invalid message padding") server)
      observe (.interprets .report 0 unpaddedLen plaintext.length)
      observe (.interprets .report 0 expectedLen plaintext.length)
      observe (.verdict (bytesToHex
        (window (attestedBuffer buffer (received delivered) plaintext) 0 expectedLen) =
          expectedHex))
      return (attestedBuffer buffer (received delivered) plaintext, unpaddedLen)) := by
  unfold receiveAttestation
  rw [recvBytes_eq server _ hbuffer]
  simp only [sequence_assoc, done_bind]
  refine bind_congr fun delivered ↦ bind_congr fun _ ↦ bind_congr fun _ ↦ ?_
  have hlength := length_received_le delivered
  have hfirst : (overwrite buffer 0 (received delivered)).length = 1024 := by
    rw [length_overwrite (by omega), hbuffer]
  have hnonce : sizeSub (received delivered).length secretboxNonceBytes + secretboxNonceBytes ≤
      (overwrite buffer 0 (received delivered)).length ↔ 24 ≤ (received delivered).length := by
    rw [hfirst, nonceBounds_iff hlength]
  rw [load, require_congr _ hnonce, sequence_assoc]
  refine require_bind_congr fun hlong ↦ ?_
  simp only [secretboxNonceBytes]
  rw [sizeSub_eq hlong (by omega), pure_eq, done_bind, window_overwrite_zero (by omega),
    load_eq (by omega), done_bind, window_overwrite_zero (by omega)]
  refine orFail_congr fun plaintext hplaintext ↦ ?_
  have hplaintextLength := sodium.secretboxOpenEasy_length hplaintext
  rw [length_window (by omega)] at hplaintextLength
  simp only [secretboxMacBytes] at hplaintextLength
  have hattested : (attestedBuffer buffer (received delivered) plaintext).length = 1024 := by
    rw [attestedBuffer, length_overwrite (by omega), hfirst]
  rw [attestedBuffer] at hattested
  rw [store_eq (by omega), done_bind]
  refine bind_congr fun _ ↦ ?_
  rw [load_eq (by omega), done_bind]
  refine orFail_congr fun unpaddedLen hunpadded ↦ ?_
  have hunpaddedLength := sodium.unpad_lt hunpadded
  rw [length_window (by omega)] at hunpaddedLength
  rw [load_eq (by omega), done_bind]
  refine bind_congr fun _ ↦ bind_congr fun _ ↦ ?_
  rw [load_eq (by rw [expectedLen_eq]; omega), done_bind]
  rfl

/-- The part of the handler that pads and boxes `Ack` in the resized buffer, for any message. -/
def padAndBox (sodium : Sodium) (server : TrustedServer) (message nonce buffer : Bytes) :
    ProviderProc Bytes := do
  let totalSize := blockUp message.length + secretboxMacBytes + secretboxNonceBytes
  let buffer := resize 0 totalSize buffer
  let buffer ← store buffer 0 message
  let padded ← orFail (sodium.pad (window buffer 0 message.length) (blockUp message.length))
    (.threw (.runtimeError "[CPP] Unable to pad message") server)
  let buffer ← store buffer 0 padded
  let nonceptr := secretboxMacBytes + padded.length
  let buffer ← store buffer nonceptr nonce
  let boxed ← orFail
    (sodium.secretboxEasy (window buffer 0 padded.length)
      (window buffer nonceptr secretboxNonceBytes) server.sessionTx)
    (.threw (.runtimeError "[CPP] Unable to encrypt message") server)
  store buffer 0 boxed

/-- The acknowledgement is padded, boxed, and sent. -/
theorem sendAck_eq_padAndBox (sodium : Sodium) (draws : HandlerDraws) (server : TrustedServer)
    (buffer : Bytes) :
    sendAck sodium draws server buffer = (do
      let buffer ← padAndBox sodium server server.ack draws.ackNonce buffer
      let frame ← load buffer 0 72
      sendBytes server frame "Error sending Ack") := by
  simp only [sendAck, padAndBox, sequence_assoc]

/-- The buffer holds the boxed message, padded, and the nonce behind it. -/
theorem padAndBox_eq (sodium : Sodium) (server : TrustedServer) {message nonce : Bytes}
    (buffer : Bytes) (hnonce : nonce.length = secretboxNonceBytes) :
    padAndBox sodium server message nonce buffer =
      (orFail (sodium.secretboxEasy (message ++ padding message.length) nonce server.sessionTx)
        (.threw (.runtimeError "[CPP] Unable to encrypt message") server) >>= fun boxed ↦
          done (boxed ++ nonce)) := by
  have hbuffer : (resize 0 (blockUp message.length + secretboxMacBytes + secretboxNonceBytes)
      buffer).length = frameSize message.length := by
    rw [length_resize, frameSize]
    omega
  simp only [padAndBox, orFail_eq_orStop]
  exact boxInPlace_eq sodium (done ()) (done ()) _ _ server.sessionTx hnonce hbuffer

/-- The acknowledgement, with the accesses of the buffer discharged. -/
theorem sendAck_eq (sodium : Sodium) (draws : HandlerDraws) (server : TrustedServer)
    (buffer : Bytes) :
    sendAck sodium draws server buffer = (do
      let boxed ← orFail
        (sodium.secretboxEasy (server.ack ++ padding 8) draws.ackNonce server.sessionTx)
        (.threw (.runtimeError "[CPP] Unable to encrypt message") server)
      sendBytes server (boxed ++ draws.ackNonce) "Error sending Ack") := by
  have hack := server.ack_length
  have hnonce := draws.ackNonce_length
  have hpadded := length_append_padding server.ack
  rw [sendAck_eq_padAndBox, padAndBox_eq sodium server buffer hnonce, sequence_assoc, hack]
  rw [hack] at hpadded
  refine orFail_congr fun boxed hboxed ↦ ?_
  have hboxedLength := sodium.secretboxEasy_length hboxed
  rw [hpadded] at hboxedLength
  have hframe : (boxed ++ draws.ackNonce).length = 72 := by
    rw [List.length_append, hboxedLength, hnonce]
    rfl
  rw [done_bind, load_eq (by omega), done_bind, window_all hframe]

/-! ### When the acknowledgement is sent -/

/-- The bytes of `hash`. -/
def hashBytes : Bytes := (hexToBytes hash).getD []

/-- The hexadecimal text of the hash is well formed. -/
theorem hexToBytes_hash : hexToBytes hash = some hashBytes := by decide +kernel

/-- The first message takes the handler to the response: it decrypts to `message`, the session keys
are derived from the public key in it, and the response can be sealed. -/
structure RequestAccepted (sodium : Sodium) (draws : HandlerDraws) (server : KeyPair)
    (delivered message : Bytes) (keys : Bytes × Bytes) : Prop where
  opened : sodium.boxSealOpen (received delivered) devPublicKey devSecretKey = some message
  keysDerived : sodium.kxServerSessionKeys server.publicKey server.secretKey
    (decryptedRequest (received delivered) message).clientPk = some keys
  responseSealed : ∃ sealed, sodium.boxSeal draws.sealSeed
    ((decryptedRequest (received delivered) message).nonce ++ hashBytes ++ server.publicKey)
    devPublicKey = some sealed

/-- The plaintext of a second message under a session key. -/
def openReport (sodium : Sodium) (sessionRx delivered : Bytes) : Option Bytes :=
  sodium.secretboxOpenEasy
    (window (received delivered) 0 ((received delivered).length - secretboxNonceBytes))
    (window (received delivered) ((received delivered).length - secretboxNonceBytes)
      secretboxNonceBytes) sessionRx

/-- The second message takes the handler to the acknowledgement: it is as long as a nonce, decrypts
to `plaintext`, and the first 128 bytes of the buffer unpad. The report is not among the tests. -/
structure ReportAccepted (sodium : Sodium) (sessionRx buffer delivered plaintext : Bytes)
    (unpaddedLen : ℕ) : Prop where
  length_le : 24 ≤ (received delivered).length
  opened : openReport sodium sessionRx delivered = some plaintext
  unpadded : sodium.unpad (window (attestedBuffer buffer (received delivered) plaintext) 0 128) =
    some unpaddedLen

/-- A second message that is accepted is not empty. -/
theorem ReportAccepted.received_ne_nil {sodium : Sodium}
    {sessionRx buffer delivered plaintext : Bytes} {unpaddedLen : ℕ}
    (haccepted : ReportAccepted sodium sessionRx buffer delivered plaintext unpaddedLen) :
    received delivered ≠ [] := by
  have hlength := haccepted.length_le
  exact List.ne_nil_of_length_pos (by omega)

/-- Both messages take the handler to the acknowledgement, and it can be boxed. -/
def Acknowledges (sodium : Sodium) (draws : HandlerDraws) (server : TrustedServer)
    (request report : Bytes) : Prop :=
  ∃ message keys plaintext unpaddedLen,
    RequestAccepted sodium draws server.server request message keys ∧
      ReportAccepted sodium keys.1 (requestBuffer (received request) message) report plaintext
        unpaddedLen ∧
      ∃ boxed, sodium.secretboxEasy (server.ack ++ padding 8) draws.ackNonce keys.2 = some boxed

/-- The second message is decoded exactly when it is accepted.

Assumes: the buffer has 1024 bytes. -/
theorem completes_receiveAttestation (environment : Environment Bytes) (sodium : Sodium)
    (server : TrustedServer) (sends waits : ℕ) {buffer : Bytes} (hbuffer : buffer.length = 1024)
    (result : Bytes × ℕ) :
    Completes environment (receiveAttestation sodium server buffer) sends waits result ↔
      ∃ plaintext unpaddedLen,
        ReportAccepted sodium server.sessionRx buffer (environment.delivers waits) plaintext
            unpaddedLen ∧
          (attestedBuffer buffer (received (environment.delivers waits)) plaintext, unpaddedLen) =
            result := by
  simp only [receiveAttestation_eq sodium server hbuffer, completes_receive, completes_require,
    completes_observe, completes_orFail, pure_eq, completes_done]
  constructor
  · rintro ⟨-, hlength, plaintext, hopened, unpaddedLen, hunpadded, hresult⟩
    exact ⟨plaintext, unpaddedLen, ⟨hlength, hopened, hunpadded⟩, hresult⟩
  · rintro ⟨plaintext, unpaddedLen, haccepted, hresult⟩
    exact ⟨haccepted.received_ne_nil, haccepted.length_le, plaintext, haccepted.opened,
      unpaddedLen, haccepted.unpadded, hresult⟩

section Transmits

variable {α : Type} (environment : Environment Bytes) (sodium : Sodium) (server : TrustedServer)
  (sends waits count : ℕ)

theorem transmits_receiveRequest (continuation : Request → ProviderProc α) :
    Transmits environment (receiveRequest sodium server >>= continuation) sends waits (count + 1) ↔
      ∃ message, sodium.boxSealOpen (received (environment.delivers waits)) devPublicKey
          devSecretKey = some message ∧
        Transmits environment
          (continuation (decryptedRequest (received (environment.delivers waits)) message)) sends
          (waits + 1) (count + 1) := by
  simp only [receiveRequest_eq, sequence_assoc, transmits_receive, transmits_require,
    transmits_observe, transmits_orFail, pure_eq, done_bind]
  constructor
  · rintro ⟨-, -, hrest⟩
    exact hrest
  · rintro ⟨message, hopened, hrest⟩
    have hlength := length_of_opened hopened
    exact ⟨List.ne_nil_of_length_pos (by omega), by omega, message, hopened, hrest⟩

theorem transmits_receiveAttestation {buffer : Bytes} (hbuffer : buffer.length = 1024)
    (continuation : Bytes × ℕ → ProviderProc α) :
    Transmits environment (receiveAttestation sodium server buffer >>= continuation) sends waits
        (count + 1) ↔
      ∃ plaintext unpaddedLen,
        ReportAccepted sodium server.sessionRx buffer (environment.delivers waits) plaintext
            unpaddedLen ∧
          Transmits environment
            (continuation (attestedBuffer buffer (received (environment.delivers waits)) plaintext,
              unpaddedLen)) sends (waits + 1) (count + 1) := by
  simp only [receiveAttestation_eq sodium server hbuffer, sequence_assoc, transmits_receive,
    transmits_require, transmits_observe, transmits_orFail, pure_eq, done_bind]
  constructor
  · rintro ⟨-, hlength, plaintext, hopened, unpaddedLen, hunpadded, hrest⟩
    exact ⟨plaintext, unpaddedLen, ⟨hlength, hopened, hunpadded⟩, hrest⟩
  · rintro ⟨plaintext, unpaddedLen, haccepted, hrest⟩
    exact ⟨haccepted.received_ne_nil, haccepted.length_le, plaintext, haccepted.opened,
      unpaddedLen, haccepted.unpadded, hrest⟩

theorem transmits_sendBytes (bytes : Bytes) (message : String)
    (continuation : Unit → ProviderProc α) :
    Transmits environment (sendBytes server bytes message >>= continuation) sends waits
        (count + 1) ↔
      environment.accepts sends = true ∧
        Transmits environment (continuation ()) (sends + 1) waits count := by
  simp only [sendBytes, sequence_assoc, transmits_transmit]
  cases haccepts : environment.accepts sends with
  | false => simp [require]
  | true => simp [require]

/-- The acknowledgement is sent exactly when the transport takes both messages of the handler and
the two messages of the client take it there. -/
theorem transmits_handleConnection (draws : HandlerDraws) :
    Transmits environment (handleConnection sodium draws server) 0 0 2 ↔
      environment.accepts 0 = true ∧ environment.accepts 1 = true ∧
        Acknowledges sodium draws server (environment.delivers 0) (environment.delivers 1) := by
  unfold handleConnection
  simp only [transmits_receiveRequest, generateSessionKey, sendResponse, hexToBytes_hash,
    orFail_some, sequence_assoc, transmits_orFail, transmits_sendBytes, pure_eq, done_bind]
  have hattest : ∀ message (keys : Bytes × Bytes) (continuation : Bytes × ℕ → ProviderProc Handled),
      sodium.boxSealOpen (received (environment.delivers 0)) devPublicKey devSecretKey =
        some message →
      (Transmits environment
          (receiveAttestation sodium { server with sessionRx := keys.1, sessionTx := keys.2 }
            (decryptedRequest (received (environment.delivers 0)) message).buffer >>= continuation)
          1 1 1 ↔
        ∃ plaintext unpaddedLen,
          ReportAccepted sodium keys.1 (requestBuffer (received (environment.delivers 0)) message)
              (environment.delivers 1) plaintext unpaddedLen ∧
            Transmits environment (continuation
              (attestedBuffer (requestBuffer (received (environment.delivers 0)) message)
                (received (environment.delivers 1)) plaintext, unpaddedLen)) 1 2 1) := by
    intro message keys continuation hopened
    exact transmits_receiveAttestation environment sodium _ 1 1 0
      (length_requestBuffer_of_opened hopened) continuation
  constructor
  · rintro ⟨message, hopened, keys, hkeys, sealed, hsealed, hfirst, hrest⟩
    rw [hattest message keys _ hopened] at hrest
    obtain ⟨plaintext, unpaddedLen, hreport, hrest⟩ := hrest
    simp only [sendAck_eq, sequence_assoc, transmits_orFail, transmits_sendBytes] at hrest
    obtain ⟨boxed, hboxed, hsecond, -⟩ := hrest
    exact ⟨hfirst, hsecond, message, keys, plaintext, unpaddedLen,
      ⟨hopened, hkeys, ⟨sealed, hsealed⟩⟩, hreport, boxed, hboxed⟩
  · rintro ⟨hfirst, hsecond, message, keys, plaintext, unpaddedLen, hrequest, hreport, boxed,
      hboxed⟩
    obtain ⟨sealed, hsealed⟩ := hrequest.responseSealed
    refine ⟨message, hrequest.opened, keys, hrequest.keysDerived, sealed, hsealed, hfirst, ?_⟩
    rw [hattest message keys _ hrequest.opened]
    refine ⟨plaintext, unpaddedLen, hreport, ?_⟩
    simp only [sendAck_eq, sequence_assoc, transmits_orFail, transmits_sendBytes]
    exact ⟨boxed, hboxed, hsecond, transmits_zero _ _ _ _⟩

end Transmits

end Disguise.Provisioning.Provider
