import Disguise.Provisioning.Frame

/-!
# The secure channel of the provisioning enclave

The functions of `channel.c`. The enclave is a process that exchanges byte strings with the
untrusted host, prints through an ocall (its observations), and stops with `EAPP_RETURN` or at an
access outside a block of memory. Every read and write of a block is made with `load` and `store`,
which test the bounds the C code does not test.

`channelUnbox` is the function the enclave's acceptance of an acknowledgement rests on. It is a
`void` function: when the box does not open, or the padding is invalid, it prints and returns, and
its caller goes on with whatever the buffer holds then (`unboxResult`).
-/

set_option autoImplicit false
set_option relaxedAutoImplicit false

namespace Disguise.Provisioning.Enclave

open Memory Process Process.Proc

/-- How the enclave stops before it returns: an `EAPP_RETURN`, or an access outside a block. -/
inductive Stop where
  | eappReturn (code : ℕ)
  | outOfBounds
  deriving DecidableEq

instance : Fault Stop := ⟨Stop.outOfBounds⟩

/-- Enclave code. -/
abbrev EnclaveProc (α : Type) := Proc Bytes String Stop α

/-! ### Exits -/

/-- The output of a libsodium call, or a message and `EAPP_RETURN(1)` when the call failed. -/
def orExit {α : Type} (value : Option α) (message : String) : EnclaveProc α :=
  match value with
  | some result => return result
  | none => do
    observe message
    fail (.eappReturn 1)

@[simp] theorem orExit_some {α : Type} (value : α) (message : String) :
    orExit (some value) message = done value := rfl

/-- Two continuations of a call are the same process when they agree on what the call can return. -/
theorem orExit_congr {α β : Type} {value : Option α} {message : String}
    {first second : α → EnclaveProc β}
    (hagree : ∀ found, value = some found → first found = second found) :
    (orExit value message >>= first) = (orExit value message >>= second) := by
  cases value with
  | none => rfl
  | some found => exact hagree found rfl

/-- The message is the notice before the exit. -/
theorem orExit_eq_orStop {α : Type} (value : Option α) (message : String) :
    orExit value message = orStop (observe message) (.eappReturn 1) value := by
  cases value <;> rfl

/-- One of two messages, and `EAPP_RETURN(1)` after the second. -/
def verify (condition : Prop) [Decidable condition] (success failure : String) :
    EnclaveProc Unit :=
  if condition then observe success
  else do
    observe failure
    fail (.eappReturn 1)

section Completes

variable {α β : Type} (environment : Environment Bytes) (sends waits : ℕ) (result : β)

@[simp] theorem completes_orExit (value : Option α) (message : String)
    (continuation : α → EnclaveProc β) :
    Completes environment (orExit value message >>= continuation) sends waits result ↔
      ∃ found, value = some found ∧
        Completes environment (continuation found) sends waits result := by
  cases value <;> simp [orExit, sequence_assoc]

@[simp] theorem completes_verify (condition : Prop) [Decidable condition]
    (success failure : String) (continuation : Unit → EnclaveProc β) :
    Completes environment (verify condition success failure >>= continuation) sends waits result ↔
      condition ∧ Completes environment (continuation ()) sends waits result := by
  by_cases hcondition : condition <;> simp [verify, hcondition, sequence_assoc]

end Completes

section Hands

variable {α β : Type} (environment : Environment Bytes) (sends waits count : ℕ) (message : Bytes)

@[simp] theorem hands_orExit (value : Option α) (notice : String)
    (continuation : α → EnclaveProc β) :
    Hands environment (orExit value notice >>= continuation) sends waits count message ↔
      ∃ found, value = some found ∧
        Hands environment (continuation found) sends waits count message := by
  cases value <;> simp [orExit, sequence_assoc]

@[simp] theorem hands_verify (condition : Prop) [Decidable condition]
    (success failure : String) (continuation : Unit → EnclaveProc β) :
    Hands environment (verify condition success failure >>= continuation) sends waits count
        message ↔
      condition ∧ Hands environment (continuation ()) sends waits count message := by
  by_cases hcondition : condition <;> simp [verify, hcondition, sequence_assoc]

end Hands

/-! ### Keys -/

/-- `dev_public_key`. -/
def devPublicKey : Bytes := [
  0xbd, 0xcc, 0xd0, 0x68, 0xf1, 0x47, 0x36, 0x4f,
  0xcd, 0x39, 0x7a, 0x7a, 0x2c, 0x54, 0xb2, 0xc2,
  0x51, 0xc3, 0xf0, 0xa4, 0x53, 0xa4, 0x5a, 0x08,
  0x02, 0xc7, 0x06, 0xd8, 0x98, 0x62, 0x07, 0x6f]

/-- `dev_secret_key`. -/
def devSecretKey : Bytes := [
  0xd1, 0x2c, 0x26, 0x1e, 0x11, 0xed, 0x5d, 0xe4,
  0x10, 0x5e, 0x59, 0xf9, 0x7b, 0x7d, 0xc5, 0x09,
  0xa2, 0xb0, 0x93, 0x22, 0x32, 0xc6, 0x45, 0x07,
  0xea, 0x18, 0xd5, 0xc9, 0xe7, 0xbe, 0x86, 0xfe]

/-- `Ack`. -/
def ack : Bytes := [0x1, 0x0, 0x0, 0x0, 0x0, 0x0, 0x0, 0x0]

/-- The session keys `rx` and `tx`. -/
structure SessionKeys where
  rx : Bytes
  tx : Bytes

/-- The session keys before any key exchange: two zeroed arrays. -/
def SessionKeys.zero : SessionKeys :=
  ⟨List.replicate kxSessionKeyBytes 0, List.replicate kxSessionKeyBytes 0⟩

/-- `generate_session_keys`: the return code, and the session keys afterwards. A failed exchange
leaves them as they were. The enclave is the client of the exchange, and what it calls `server_pk`
is its own key. -/
def generateSessionKeys (sodium : Sodium) (server : KeyPair) (clientPk : Bytes)
    (keys : SessionKeys) : ℕ × SessionKeys :=
  match sodium.kxClientSessionKeys server.publicKey server.secretKey clientPk with
  | some (rx, tx) => (0, ⟨rx, tx⟩)
  | none => (1, keys)

/-! ### Boxes -/

/-- `channel_box`: the contents of `buffer` afterwards. -/
def channelBox (sodium : Sodium) (nonce msg : Bytes) (len : ℕ) (buffer key : Bytes) :
    EnclaveProc Bytes := do
  let message ← load msg 0 len
  let buffer ← store buffer 0 message
  let padded ← orExit (sodium.pad (window buffer 0 len) (blockUp len))
    "[C] Unable to pad message, exiting\n"
  let buffer ← store buffer 0 padded
  -- The nonce goes behind the room for the tag and the padded message.
  let nonceptr := secretboxMacBytes + padded.length
  let buffer ← store buffer nonceptr nonce
  let boxed ← orExit
    (sodium.secretboxEasy (window buffer 0 padded.length)
      (window buffer nonceptr secretboxNonceBytes) key)
    "[C] Unable to encrypt message, exiting\n"
  store buffer 0 boxed

/-- `channel_unbox` with the session key `rx`: the contents of `msg_buffer` afterwards, and the
length written to `datalen` if one was written. -/
def channelUnbox (sodium : Sodium) (rx msgBuffer : Bytes) (len : ℕ) :
    EnclaveProc (Bytes × Option ℕ) := do
  let clen := sizeSub len secretboxNonceBytes
  let nonce ← load msgBuffer clen secretboxNonceBytes
  let boxed ← load msgBuffer 0 clen
  match sodium.secretboxOpenEasy boxed nonce rx with
  | none => do
    observe "[C] Invalid message, ignoring\n"
    -- `return -1` from a `void` function
    return (msgBuffer, none)
  | some plaintext => do
    let msgBuffer ← store msgBuffer 0 plaintext
    let ptlen := 32
    let padded ← load msgBuffer 0 ptlen
    match sodium.unpad padded with
    | none => do
      observe "[C] Invalid message padding, ignoring\n"
      return (msgBuffer, none)
    | some unpadLen => return (msgBuffer, some unpadLen)

/-- `asymmetric_box`: the contents of `buffer` afterwards. -/
def asymmetricBox (sodium : Sodium) (seed msg : Bytes) (len : ℕ) (buffer key : Bytes) :
    EnclaveProc Bytes := do
  observe "Provider Pub key: \n"
  let message ← load msg 0 len
  let sealed ← orExit (sodium.boxSeal seed message key) "[C] Unable to encrypt message, exiting\n"
  store buffer 0 sealed

/-- `asymmetric_unbox`: the contents of `decrypted_data` afterwards. -/
def asymmetricUnbox (sodium : Sodium) (encryptedData : Bytes) (encryptedLen : ℕ)
    (decryptedData : Bytes) : EnclaveProc Bytes := do
  let sealed ← load encryptedData 0 encryptedLen
  let message ← orExit (sodium.boxSealOpen sealed devPublicKey devSecretKey)
    "[C] Unable to decrypt message, exiting\n"
  store decryptedData 0 message

/-! ### What the boxes hold -/

/-- `channel_box` into a buffer of the size its callers allocate leaves the boxed message, padded,
and the nonce behind it. The only exit left is a failing encryption. -/
theorem channelBox_eq (sodium : Sodium) {nonce msg buffer : Bytes} {len : ℕ} (key : Bytes)
    (hnonce : nonce.length = secretboxNonceBytes) (hmsg : len ≤ msg.length)
    (hbuffer : buffer.length = secretboxMacBytes + blockUp len + secretboxNonceBytes) :
    channelBox sodium nonce msg len buffer key =
      (orExit (sodium.secretboxEasy (window msg 0 len ++ padding len) nonce key)
        "[C] Unable to encrypt message, exiting\n" >>= fun boxed ↦ done (boxed ++ nonce)) := by
  have hlength : (window msg 0 len).length = len := length_window (by omega)
  rw [channelBox, load_eq (by omega), done_bind]
  generalize window msg 0 len = message at hlength ⊢
  subst hlength
  simp only [orExit_eq_orStop]
  exact boxInPlace_eq sodium (observe _) (observe _) _ _ key hnonce hbuffer

/-- `asymmetric_box` into a buffer of the size its callers allocate leaves the sealed message.

Assumes: the message holds the bytes to be sealed. -/
theorem asymmetricBox_eq (sodium : Sodium) (seed key : Bytes) {msg buffer : Bytes} {len : ℕ}
    (hmsg : len ≤ msg.length) (hbuffer : buffer.length = len + boxSealBytes) :
    asymmetricBox sodium seed msg len buffer key =
      (observe "Provider Pub key: \n" >>= fun _ ↦
        orExit (sodium.boxSeal seed (window msg 0 len) key)
          "[C] Unable to encrypt message, exiting\n" >>= done) := by
  have hlength : (window msg 0 len).length = len := length_window (by omega)
  refine bind_congr fun _ ↦ ?_
  rw [load_eq (by omega), done_bind]
  refine orExit_congr fun sealed hsealed ↦ ?_
  have hsealedLength := sodium.boxSeal_length hsealed
  rw [hlength] at hsealedLength
  rw [store_eq (by omega), overwrite_zero, List.drop_of_length_le (by omega), List.append_nil]

/-- `asymmetric_unbox` leaves the message over the start of its buffer.

Assumes: the buffer has room for as many bytes as are unsealed. -/
theorem asymmetricUnbox_eq (sodium : Sodium) (encryptedData : Bytes) {encryptedLen : ℕ}
    {decryptedData : Bytes} (hroom : encryptedLen ≤ decryptedData.length) :
    asymmetricUnbox sodium encryptedData encryptedLen decryptedData =
      (load encryptedData 0 encryptedLen >>= fun sealed ↦
        orExit (sodium.boxSealOpen sealed devPublicKey devSecretKey)
          "[C] Unable to decrypt message, exiting\n" >>= fun message ↦
            done (overwrite decryptedData 0 message)) := by
  refine load_congr fun hbounds ↦ orExit_congr fun message hmessage ↦ ?_
  have hmessageLength := sodium.boxSealOpen_length hmessage
  rw [length_window hbounds] at hmessageLength
  exact store_eq (by omega)

/-! ### What `channel_unbox` leaves behind -/

/-- The contents of the buffer after `channel_unbox`, and the length written: nothing changes when
the box does not open, the plaintext replaces the start of the buffer when it does, and the length
is written only when the padding is valid. -/
def unboxResult (sodium : Sodium) (rx msgBuffer : Bytes) (len : ℕ) : Bytes × Option ℕ :=
  match sodium.secretboxOpenEasy (window msgBuffer 0 (len - secretboxNonceBytes))
      (window msgBuffer (len - secretboxNonceBytes) secretboxNonceBytes) rx with
  | none => (msgBuffer, none)
  | some plaintext =>
    (overwrite msgBuffer 0 plaintext, sodium.unpad (window (overwrite msgBuffer 0 plaintext) 0 32))

/-- `channel_unbox` keeps the size of its buffer. -/
theorem length_unboxResult (sodium : Sodium) (rx : Bytes) {msgBuffer : Bytes} {len : ℕ}
    (hbuffer : len ≤ msgBuffer.length) :
    (unboxResult sodium rx msgBuffer len).1.length = msgBuffer.length := by
  rw [unboxResult]
  cases hopen : sodium.secretboxOpenEasy (window msgBuffer 0 (len - secretboxNonceBytes))
      (window msgBuffer (len - secretboxNonceBytes) secretboxNonceBytes) rx with
  | none => rfl
  | some plaintext =>
    have hplaintext := sodium.secretboxOpenEasy_length hopen
    rw [length_window (by omega)] at hplaintext
    exact length_overwrite (by omega)

/-- What `channel_unbox` prints. -/
def unboxNotice (sodium : Sodium) (rx msgBuffer : Bytes) (len : ℕ) : EnclaveProc Unit :=
  match sodium.secretboxOpenEasy (window msgBuffer 0 (len - secretboxNonceBytes))
      (window msgBuffer (len - secretboxNonceBytes) secretboxNonceBytes) rx with
  | none => observe "[C] Invalid message, ignoring\n"
  | some plaintext =>
    match sodium.unpad (window (overwrite msgBuffer 0 plaintext) 0 32) with
    | none => observe "[C] Invalid message padding, ignoring\n"
    | some _ => return

/-- `channel_unbox` of a frame that lies in its buffer prints and returns. -/
theorem channelUnbox_eq_notice (sodium : Sodium) (rx msgBuffer : Bytes) {len : ℕ} (hlen : 72 ≤ len)
    (hbuffer : len ≤ msgBuffer.length) (hsize : len < 2 ^ 64) :
    channelUnbox sodium rx msgBuffer len =
      unboxNotice sodium rx msgBuffer len >>= fun _ ↦
        done (unboxResult sodium rx msgBuffer len) := by
  have hclen : sizeSub len secretboxNonceBytes = len - secretboxNonceBytes :=
    sizeSub_eq (by simp only [secretboxNonceBytes]; omega) hsize
  have hnonce : len - secretboxNonceBytes + secretboxNonceBytes ≤ msgBuffer.length := by
    simp only [secretboxNonceBytes]
    omega
  have hboxed : 0 + (len - secretboxNonceBytes) ≤ msgBuffer.length := by omega
  simp only [channelUnbox, unboxNotice, unboxResult, hclen]
  rw [load_eq hnonce, done_bind, load_eq hboxed, done_bind]
  cases hopen : sodium.secretboxOpenEasy (window msgBuffer 0 (len - secretboxNonceBytes))
      (window msgBuffer (len - secretboxNonceBytes) secretboxNonceBytes) rx with
  | none => rfl
  | some plaintext =>
    have hplaintext := sodium.secretboxOpenEasy_length hopen
    rw [length_window hboxed] at hplaintext
    have hstore : 0 + plaintext.length ≤ msgBuffer.length := by omega
    have hload : 0 + 32 ≤ (overwrite msgBuffer 0 plaintext).length := by
      rw [length_overwrite hstore]
      omega
    dsimp only
    rw [store_eq hstore, done_bind, load_eq hload, done_bind]
    cases sodium.unpad (window (overwrite msgBuffer 0 plaintext) 0 32) with
    | none => rfl
    | some unpadLen => rfl

/-- `channel_unbox` never stops the enclave on a frame that lies in its buffer. -/
theorem completes_channelUnbox {β : Type} (environment : Environment Bytes) (sends waits : ℕ)
    (result : β) (sodium : Sodium) (rx msgBuffer : Bytes) {len : ℕ} (hlen : 72 ≤ len)
    (hbuffer : len ≤ msgBuffer.length) (hsize : len < 2 ^ 64)
    (continuation : Bytes × Option ℕ → EnclaveProc β) :
    Completes environment (channelUnbox sodium rx msgBuffer len >>= continuation) sends waits
        result ↔
      Completes environment (continuation (unboxResult sodium rx msgBuffer len)) sends waits
        result := by
  rw [channelUnbox_eq_notice sodium rx msgBuffer hlen hbuffer hsize, sequence_assoc, unboxNotice]
  split
  · rw [completes_observe, done_bind]
  · split
    · rw [completes_observe, done_bind]
    · rw [pure_eq, done_bind, done_bind]

/-- `channel_unbox` of a frame that opens and unpads returns the plaintext over the start of the
buffer and its unpadded length. -/
theorem channelUnbox_eq (sodium : Sodium) {rx msgBuffer plaintext : Bytes} {len unpadLen : ℕ}
    (hlen : 72 ≤ len) (hbuffer : len ≤ msgBuffer.length) (hsize : len < 2 ^ 64)
    (hopen : sodium.secretboxOpenEasy (window msgBuffer 0 (len - secretboxNonceBytes))
      (window msgBuffer (len - secretboxNonceBytes) secretboxNonceBytes) rx = some plaintext)
    (hunpad : sodium.unpad (window plaintext 0 32) = some unpadLen) :
    channelUnbox sodium rx msgBuffer len =
      done (overwrite msgBuffer 0 plaintext, some unpadLen) := by
  have hlength := sodium.secretboxOpenEasy_length hopen
  rw [length_window (by omega)] at hlength
  simp only [secretboxNonceBytes, secretboxMacBytes] at hlength
  have hpadded : window (overwrite msgBuffer 0 plaintext) 0 32 = window plaintext 0 32 :=
    window_overwrite_zero (by omega)
  rw [channelUnbox_eq_notice sodium rx msgBuffer hlen hbuffer hsize, unboxNotice, unboxResult,
    hopen]
  dsimp only
  rw [hpadded, hunpad]
  rfl

end Disguise.Provisioning.Enclave
