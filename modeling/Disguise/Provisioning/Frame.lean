import Disguise.Memory.Access
import Disguise.Provisioning.Sodium

/-!
# Boxing a message in its buffer

Both programs box a message in place. The message is copied to the start of a buffer, `sodium_pad`
appends its padding there, a nonce is written behind the room for the tag and the padded message,
and `crypto_secretbox_easy` encrypts from the start of the buffer to its start. The programs differ
only in how they stop when a call of libsodium fails.

`boxInPlace_eq` is the one fact both need: in a buffer of the size the callers allocate the padding
never fails, every access is in bounds, and the buffer holds the box and the nonce afterwards,
whatever it held before.
-/

set_option autoImplicit false
set_option relaxedAutoImplicit false

namespace Disguise.Provisioning

open Memory Process Process.Proc

/-! ### Sizes -/

/-- The size of a frame: the tag, the padded message and the nonce. -/
def frameSize (len : ℕ) : ℕ := secretboxMacBytes + blockUp len + secretboxNonceBytes

/-- Padding adds between 1 and 32 bytes. -/
theorem blockUp_bounds (len : ℕ) : len < blockUp len ∧ blockUp len ≤ len + msgBlocksize := by
  rw [blockUp]
  simp only [msgBlocksize]
  omega

/-- A padded message is a number of blocks. -/
theorem dvd_blockUp (len : ℕ) : msgBlocksize ∣ blockUp len := by
  rw [blockUp]
  simp only [msgBlocksize]
  omega

/-- There is room for the padding that `BLOCK_UP` counts. -/
theorem pad_blockUp (sodium : Sodium) (message : Bytes) :
    sodium.pad message (blockUp message.length) = some (message ++ padding message.length) := by
  rw [sodium.pad_eq, if_pos]
  rw [blockUp]
  simp only [msgBlocksize]
  omega

/-! ### Stopping with a notice -/

section Stopping

variable {M O ε α β : Type}

/-- The value of an optional result, or a notice and an error when there is none. -/
def orStop (notice : Proc M O ε Unit) (error : ε) (value : Option α) : Proc M O ε α :=
  match value with
  | some result => done result
  | none => notice >>= fun _ ↦ fail error

/-- An error without a notice. -/
theorem orFail_eq_orStop (value : Option α) (error : ε) :
    (orFail value error : Proc M O ε α) = orStop (done ()) error value := by
  cases value <;> rfl

/-- Two continuations of an optional result are the same process when they agree on what it can
be. -/
theorem orStop_congr {notice : Proc M O ε Unit} {error : ε} {value : Option α}
    {first second : α → Proc M O ε β}
    (hagree : ∀ found, value = some found → first found = second found) :
    (orStop notice error value >>= first) = (orStop notice error value >>= second) := by
  cases value with
  | none => rw [orStop, sequence_assoc, sequence_assoc]; rfl
  | some found => exact hagree found rfl

end Stopping

/-! ### The steps -/

section Steps

variable {O ε : Type} [Fault ε] (sodium : Sodium) (padNotice boxNotice : Proc Bytes O ε Unit)
  (padError boxError : ε)

/-- Boxes a message in its buffer, with what is done when the padding or the encryption fails. -/
def boxInPlace (message nonce buffer key : Bytes) : Proc Bytes O ε Bytes := do
  let buffer ← store buffer 0 message
  let padded ← orStop padNotice padError
    (sodium.pad (window buffer 0 message.length) (blockUp message.length))
  let buffer ← store buffer 0 padded
  let nonceptr := secretboxMacBytes + padded.length
  let buffer ← store buffer nonceptr nonce
  let boxed ← orStop boxNotice boxError
    (sodium.secretboxEasy (window buffer 0 padded.length)
      (window buffer nonceptr secretboxNonceBytes) key)
  store buffer 0 boxed

/-- The buffer holds the box and the nonce, and the padding does not fail.

Assumes: the nonce has its size, and the buffer the size of the frame. -/
theorem boxInPlace_eq {message nonce buffer : Bytes} (key : Bytes)
    (hnonce : nonce.length = secretboxNonceBytes)
    (hbuffer : buffer.length = frameSize message.length) :
    boxInPlace sodium padNotice boxNotice padError boxError message nonce buffer key =
      orStop boxNotice boxError
        (sodium.secretboxEasy (message ++ padding message.length) nonce key) >>=
          fun boxed ↦ done (boxed ++ nonce) := by
  have hblock := (blockUp_bounds message.length).1
  have hpadded := length_append_padding message
  simp only [frameSize, secretboxMacBytes, secretboxNonceBytes] at hnonce hbuffer
  -- The message, its padding and the nonce go into the buffer one after the other.
  have hstored : window (overwrite buffer 0 message) 0 message.length = message :=
    (window_overwrite_zero (by omega)).trans (window_all rfl)
  have hfirst : (overwrite buffer 0 message).length = buffer.length := length_overwrite (by omega)
  unfold boxInPlace
  rw [store_eq (by omega), done_bind, hstored, pad_blockUp]
  generalize overwrite buffer 0 message = first at hfirst ⊢
  generalize message ++ padding message.length = padded at hpadded ⊢
  have hsecond : (overwrite first 0 padded).length = buffer.length := by
    rw [length_overwrite (by omega), hfirst]
  have hgap : padded.length ≤ 16 + padded.length := Nat.le_add_left _ _
  have hend : 16 + padded.length + nonce.length = first.length := by omega
  have hfront := window_filled_front hgap hend
  have hback := window_filled_back hend hgap
  rw [hnonce] at hback
  simp only [orStop, done_bind, secretboxMacBytes, secretboxNonceBytes]
  rw [store_eq (by omega), done_bind, store_eq (by omega), done_bind, hfront, hback]
  refine orStop_congr fun boxed hboxed ↦ ?_
  have hboxedLength := sodium.secretboxEasy_length hboxed
  simp only [secretboxMacBytes] at hboxedLength
  have hthird : (overwrite (overwrite first 0 padded) (16 + padded.length) nonce).length =
      buffer.length := by
    rw [length_overwrite (by omega), hsecond]
  rw [store_eq (by omega), overwrite_filled hgap hend (by omega)]

end Steps

end Disguise.Provisioning
