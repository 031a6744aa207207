import Disguise.Cipher.ByteField
import Mathlib.Data.Fin.VecNotation
import Mathlib.LinearAlgebra.Matrix.Circulant
import Mathlib.Logic.Equiv.Fin.Rotate

/-!
# The cipher of FIPS 197

AES with keys of 128 bits, as the standard states it: the state is a matrix of elements of the field
of the bytes, the S-box is the inverse followed by an affine map of the bits, the columns are mixed
by the circulant matrix of the polynomial `{03}x³ + {01}x² + {01}x + {02}`, and the words of the key
schedule satisfy a recursion.

Every step is a permutation of the states. So the cipher is one (`encrypt`), and what the standard
calls the inverse cipher is its inverse.
-/

set_option autoImplicit false
set_option relaxedAutoImplicit false

namespace Disguise.Cipher.Rijndael

/-! ### The S-box -/

/-- The affine map of the S-box: bit `i` of the result is the sum of the bits `i`, `i + 4`, `i + 5`,
`i + 6` and `i + 7` of the byte and bit `i` of `0x63`. -/
def affineByte (byte : UInt8) : UInt8 :=
  let bit (i : Fin 8) := byte.toNat.testBit i
  UInt8.ofNat (Nat.ofBits fun i : Fin 8 ↦
    bit i ^^ bit (i + 4) ^^ bit (i + 5) ^^ bit (i + 6) ^^ bit (i + 7) ^^ Nat.testBit 0x63 i)

/-- The inverse of the affine map. -/
def unaffineByte (byte : UInt8) : UInt8 :=
  let bit (i : Fin 8) := byte.toNat.testBit i
  UInt8.ofNat (Nat.ofBits fun i : Fin 8 ↦
    bit (i + 2) ^^ bit (i + 5) ^^ bit (i + 7) ^^ Nat.testBit 0x05 i)

theorem unaffineByte_affineByte :
    ∀ byte < 256, unaffineByte (affineByte (UInt8.ofNat byte)) = UInt8.ofNat byte := by
  decide +kernel

theorem affineByte_unaffineByte :
    ∀ byte < 256, affineByte (unaffineByte (UInt8.ofNat byte)) = UInt8.ofNat byte := by
  decide +kernel

noncomputable section

/-- The affine map is a permutation of the bytes. -/
def affine : Equiv.Perm UInt8 where
  toFun := affineByte
  invFun := unaffineByte
  left_inv byte := by
    have hbyte := unaffineByte_affineByte byte.toNat byte.toNat_lt
    rwa [UInt8.ofNat_toNat] at hbyte
  right_inv byte := by
    have hbyte := affineByte_unaffineByte byte.toNat byte.toNat_lt
    rwa [UInt8.ofNat_toNat] at hbyte

/-- The S-box: the inverse, and the affine map. -/
def substitute : Equiv.Perm ByteField :=
  (Equiv.inv ByteField).trans (byteEquiv.symm.trans (affine.trans byteEquiv))

/-- The S-box as a composition on bytes. -/
theorem substitute_eq (element : ByteField) :
    substitute element = ofByte (affine (byteEquiv.symm element⁻¹)) := rfl

/-! ### The steps of a round -/

/-- The state: four rows and four columns. -/
abbrev State := Matrix (Fin 4) (Fin 4) ByteField

/-- A column of the state, and a word of the key schedule. -/
abbrev Column := Fin 4 → ByteField

/-- Every element is substituted. -/
def subBytes : Equiv.Perm State := substitute.mapMatrix

/-- Row `r` is shifted to the left by `r` columns, around the end. -/
def shiftRows : Equiv.Perm State where
  toFun state := Matrix.of fun r c ↦ state r (c + r)
  invFun state := Matrix.of fun r c ↦ state r (c - r)
  left_inv state := by
    ext r c
    simp
  right_inv state := by
    ext r c
    simp

/-- The matrix that mixes a column. -/
def mixing : State := Matrix.circulant ![generator, 1, 1, generator + 1]

/-- The matrix that undoes the mixing. -/
def unmixing : State :=
  Matrix.circulant ![generator ^ 3 + generator ^ 2 + generator, generator ^ 3 + 1,
    generator ^ 3 + generator ^ 2 + 1, generator ^ 3 + generator + 1]

/-- The elements of that matrix as bytes. -/
theorem unmixing_eq : unmixing =
    Matrix.circulant ![ofByte 0x0e, ofByte 0x09, ofByte 0x0d, ofByte 0x0b] := by
  have h0e : (0x0e : UInt8) = double (double (double 1)) ^^^ double (double 1) ^^^ double 1 := by
    decide
  have h09 : (0x09 : UInt8) = double (double (double 1)) ^^^ 1 := by decide
  have h0d : (0x0d : UInt8) = double (double (double 1)) ^^^ double (double 1) ^^^ 1 := by decide
  have h0b : (0x0b : UInt8) = double (double (double 1)) ^^^ double 1 ^^^ 1 := by decide
  rw [unmixing, h0e, h09, h0d, h0b]
  simp only [ofByte_xor, ofByte_double, ofByte_one]
  ring_nf

theorem mixing_mul_unmixing : mixing * unmixing = 1 := by
  have htwo : (2 : ByteField) = 0 := CharTwo.two_eq_zero
  rw [mixing, unmixing, Matrix.circulant_mul, ← Matrix.circulant_single_one]
  refine congrArg _ (funext fun i ↦ ?_)
  rw [Matrix.mulVec, dotProduct, Fin.sum_univ_four]
  fin_cases i
  · change generator * (generator ^ 3 + generator ^ 2 + generator) +
      (generator + 1) * (generator ^ 3 + 1) + 1 * (generator ^ 3 + generator ^ 2 + 1) +
        1 * (generator ^ 3 + generator + 1) = 1
    linear_combination (1 + generator + generator ^ 2 + 2 * generator ^ 3 + generator ^ 4) * htwo
  · change 1 * (generator ^ 3 + generator ^ 2 + generator) + generator * (generator ^ 3 + 1) +
      (generator + 1) * (generator ^ 3 + generator ^ 2 + 1) +
        1 * (generator ^ 3 + generator + 1) = 0
    linear_combination
      (1 + 2 * generator + generator ^ 2 + 2 * generator ^ 3 + generator ^ 4) * htwo
  · change 1 * (generator ^ 3 + generator ^ 2 + generator) + 1 * (generator ^ 3 + 1) +
      generator * (generator ^ 3 + generator ^ 2 + 1) +
        (generator + 1) * (generator ^ 3 + generator + 1) = 0
    linear_combination
      (1 + 2 * generator + generator ^ 2 + 2 * generator ^ 3 + generator ^ 4) * htwo
  · change (generator + 1) * (generator ^ 3 + generator ^ 2 + generator) +
      1 * (generator ^ 3 + 1) + 1 * (generator ^ 3 + generator ^ 2 + 1) +
        generator * (generator ^ 3 + generator + 1) = 0
    linear_combination
      (1 + generator + 2 * generator ^ 2 + 2 * generator ^ 3 + generator ^ 4) * htwo

theorem unmixing_mul_mixing : unmixing * mixing = 1 := by
  rw [mixing, unmixing, Matrix.circulant_mul_comm]
  exact mixing_mul_unmixing

/-- Every column is multiplied by the matrix. -/
def mixColumns : Equiv.Perm State where
  toFun state := mixing * state
  invFun state := unmixing * state
  left_inv state := by
    show unmixing * (mixing * state) = state
    rw [← Matrix.mul_assoc, unmixing_mul_mixing, Matrix.one_mul]
  right_inv state := by
    show mixing * (unmixing * state) = state
    rw [← Matrix.mul_assoc, mixing_mul_unmixing, Matrix.one_mul]

/-- A round key is added. -/
def addRoundKey (key : State) : Equiv.Perm State := Equiv.addRight key

/-- A round key added twice is taken off. -/
theorem addRoundKey_symm (key : State) : (addRoundKey key).symm = addRoundKey key := by
  have hneg : -key = key := by
    ext r c
    exact CharTwo.neg_eq (key r c)
  rw [addRoundKey, Equiv.addRight_symm, hneg]

/-! ### The key schedule -/

/-- The word with its elements moved up by one place, around the end. -/
def rotWord (word : Column) : Column := fun r ↦ word (finRotate 4 r)

/-- The word with every element substituted. -/
def subWord (word : Column) : Column := fun r ↦ substitute (word r)

/-- The round constants. -/
def roundConstant (i : ℕ) : Column := fun r ↦ if (r : ℕ) = 0 then generator ^ (i - 1) else 0

/-- The words of the key schedule: first the columns of the key, and then each one from the word
before it and the word four places before it. -/
def word (key : State) (i : ℕ) : Column :=
  if hkey : i < 4 then fun r ↦ key r ⟨i, hkey⟩
  else
    let previous := word key (i - 1)
    let changed :=
      if i % 4 = 0 then subWord (rotWord previous) + roundConstant (i / 4) else previous
    word key (i - 4) + changed

/-- The words of the key. -/
theorem word_of_lt (key : State) {i : ℕ} (hkey : i < 4) : word key i = fun r ↦ key r ⟨i, hkey⟩ := by
  rw [word, dif_pos hkey]

/-- The words after them. -/
theorem word_of_le (key : State) {i : ℕ} (hkey : 4 ≤ i) :
    word key i = word key (i - 4) +
      if i % 4 = 0 then subWord (rotWord (word key (i - 1))) + roundConstant (i / 4)
      else word key (i - 1) := by
  rw [word, dif_neg (not_lt.mpr hkey)]

/-- The key of a round: four words as columns. -/
def roundKey (key : State) (round : ℕ) : State :=
  Matrix.of fun r c ↦ word key (4 * round + c) r

/-! ### The cipher -/

/-- The first addition of a round key, and some rounds that mix columns. -/
def mixingRounds (key : State) : ℕ → Equiv.Perm State
  | 0 => addRoundKey (roundKey key 0)
  | round + 1 =>
    (mixingRounds key round).trans (subBytes.trans
      (shiftRows.trans (mixColumns.trans (addRoundKey (roundKey key (round + 1))))))

/-- The cipher: ten rounds, the last one without `mixColumns`. -/
def encrypt (key : State) : Equiv.Perm State :=
  (mixingRounds key 9).trans (subBytes.trans (shiftRows.trans (addRoundKey (roundKey key 10))))

theorem encrypt_symm_apply (key state : State) :
    (encrypt key).symm state = (mixingRounds key 9).symm
      (subBytes.symm (shiftRows.symm (addRoundKey (roundKey key 10) state))) := by
  rw [encrypt, Equiv.symm_trans_apply, Equiv.symm_trans_apply, Equiv.symm_trans_apply,
    addRoundKey_symm]

end

end Disguise.Cipher.Rijndael
