import Disguise.Memory.Buffer

/-!
# The libsodium interface of the provisioning programs

The enclave and the provider call libsodium, which is not part of the repository. Its functions are
the fields of `Sodium`, with the return code and the output buffer of a C function folded into an
`Option`: `none` is a nonzero return code, after which the output buffer is unchanged. The sizes
that the documentation fixes (a sealed box is 48 bytes longer than its message, a secret box 16, a
session key has 32 bytes, the padded length of `sodium_pad`) are fields too, so every instance has
them. Randomness is an
argument: the ephemeral key of `crypto_box_seal` is drawn from `seed`.

`Sodium.RoundTrips` collects what the documentation says about pairs of calls: opening undoes
sealing, unpadding undoes padding, and the client and the server derive the same two session keys
with the roles of the two exchanged. It is a hypothesis of the theorems that need it.
-/

set_option autoImplicit false
set_option relaxedAutoImplicit false

namespace Disguise.Provisioning

open Memory

/-- A byte string. -/
abbrev Bytes := List UInt8

/-! ### Sizes -/

/-- `crypto_secretbox_NONCEBYTES`. -/
abbrev secretboxNonceBytes : ℕ := 24

/-- `crypto_secretbox_MACBYTES`. -/
abbrev secretboxMacBytes : ℕ := 16

/-- `crypto_box_SEALBYTES`. -/
abbrev boxSealBytes : ℕ := 48

/-- `crypto_kx_PUBLICKEYBYTES`. -/
abbrev kxPublicKeyBytes : ℕ := 32

/-- `crypto_kx_SESSIONKEYBYTES`. -/
abbrev kxSessionKeyBytes : ℕ := 32

/-- `crypto_aead_xchacha20poly1305_ietf_NPUBBYTES`, also spelled with `IETF` in the enclave. -/
abbrev aeadPublicNonceBytes : ℕ := 24

/-- `MSG_BLOCKSIZE`. -/
abbrev msgBlocksize : ℕ := 32

/-- `BLOCK_UP(len)`. -/
def blockUp (len : ℕ) : ℕ := len + (msgBlocksize - len % msgBlocksize)

/-! ### The interface -/

/-- A key pair `crypto_kx_keypair` wrote into two arrays of 32 bytes. -/
structure KeyPair where
  publicKey : Bytes
  secretKey : Bytes
  publicKey_length : publicKey.length = kxPublicKeyBytes

/-- The padding `sodium_pad` appends to `unpadded` bytes for blocks of 32: the byte `0x80` and zeros
up to the next multiple of 32. -/
def padding (unpadded : ℕ) : Bytes :=
  0x80 :: List.replicate (msgBlocksize - 1 - unpadded % msgBlocksize) 0

/-- The padded length of a message is the next multiple of 32 above its length. -/
theorem length_append_padding (message : Bytes) :
    (message ++ padding message.length).length = blockUp message.length := by
  rw [List.length_append, padding, List.length_cons, List.length_replicate, blockUp]
  simp only [msgBlocksize]
  omega

/-- The functions of libsodium the two programs call. -/
structure Sodium where
  /-- `crypto_kx_client_session_keys(rx, tx, client_pk, client_sk, server_pk)`. -/
  kxClientSessionKeys : Bytes → Bytes → Bytes → Option (Bytes × Bytes)
  /-- `crypto_kx_server_session_keys(rx, tx, server_pk, server_sk, client_pk)`. -/
  kxServerSessionKeys : Bytes → Bytes → Bytes → Option (Bytes × Bytes)
  /-- `crypto_box_seal(c, m, mlen, pk)`. -/
  boxSeal : (seed message publicKey : Bytes) → Option Bytes
  /-- `crypto_box_seal_open(m, c, clen, pk, sk)`. -/
  boxSealOpen : (sealed publicKey secretKey : Bytes) → Option Bytes
  /-- `crypto_secretbox_easy(c, m, mlen, n, k)`. -/
  secretboxEasy : (message nonce key : Bytes) → Option Bytes
  /-- `crypto_secretbox_open_easy(m, c, clen, n, k)`. -/
  secretboxOpenEasy : (boxed nonce key : Bytes) → Option Bytes
  /-- `sodium_pad(&padded_len, buf, unpadded_len, 32, max_buflen)`: the padded bytes. -/
  pad : (unpadded : Bytes) → (maxLength : ℕ) → Option Bytes
  /-- `sodium_unpad(&unpadded_len, buf, padded_len, 32)`: the unpadded length. -/
  unpad : (padded : Bytes) → Option ℕ
  kxClientSessionKeys_length : ∀ {clientPublic clientSecret serverPublic keys},
    kxClientSessionKeys clientPublic clientSecret serverPublic = some keys →
      keys.1.length = kxSessionKeyBytes ∧ keys.2.length = kxSessionKeyBytes
  kxServerSessionKeys_length : ∀ {serverPublic serverSecret clientPublic keys},
    kxServerSessionKeys serverPublic serverSecret clientPublic = some keys →
      keys.1.length = kxSessionKeyBytes ∧ keys.2.length = kxSessionKeyBytes
  boxSeal_length : ∀ {seed message publicKey sealed}, boxSeal seed message publicKey = some sealed →
    sealed.length = message.length + boxSealBytes
  boxSealOpen_length : ∀ {sealed publicKey secretKey message},
    boxSealOpen sealed publicKey secretKey = some message →
      sealed.length = message.length + boxSealBytes
  secretboxEasy_length : ∀ {message nonce key boxed}, secretboxEasy message nonce key = some boxed →
    boxed.length = message.length + secretboxMacBytes
  secretboxOpenEasy_length : ∀ {boxed nonce key message},
    secretboxOpenEasy boxed nonce key = some message →
      boxed.length = message.length + secretboxMacBytes
  /-- `sodium_pad` fails when the padded message does not fit. -/
  pad_eq : ∀ unpadded maxLength, pad unpadded maxLength =
    if unpadded.length + (msgBlocksize - 1 - unpadded.length % msgBlocksize) < maxLength then
      some (unpadded ++ padding unpadded.length)
    else none
  unpad_lt : ∀ {padded unpadded}, unpad padded = some unpadded → unpadded < padded.length

/-- What the documentation says about pairs of calls, for the sealing key pair of the device
(`devicePublic`, `deviceSecret`) and the key pairs `crypto_kx_keypair` returns (`KxKeypair`). -/
structure Sodium.RoundTrips (sodium : Sodium) (devicePublic deviceSecret : Bytes)
    (KxKeypair : Bytes → Bytes → Prop) : Prop where
  boxSealOpen_boxSeal : ∀ seed message, ∃ sealed,
    sodium.boxSeal seed message devicePublic = some sealed ∧
      sodium.boxSealOpen sealed devicePublic deviceSecret = some message
  secretboxOpenEasy_secretboxEasy : ∀ message nonce key, nonce.length = secretboxNonceBytes →
    key.length = kxSessionKeyBytes → ∃ boxed,
      sodium.secretboxEasy message nonce key = some boxed ∧
        sodium.secretboxOpenEasy boxed nonce key = some message
  unpad_pad : ∀ unpadded maxLength padded, sodium.pad unpadded maxLength = some padded →
    sodium.unpad padded = some unpadded.length
  kxSessionKeys : ∀ clientPublic clientSecret serverPublic serverSecret,
    KxKeypair clientPublic clientSecret → KxKeypair serverPublic serverSecret → ∃ rx tx,
      sodium.kxClientSessionKeys clientPublic clientSecret serverPublic = some (rx, tx) ∧
        sodium.kxServerSessionKeys serverPublic serverSecret clientPublic = some (tx, rx)

end Disguise.Provisioning
