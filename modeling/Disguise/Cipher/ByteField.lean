import Mathlib.Algebra.CharP.Algebra
import Mathlib.Algebra.CharP.Two
import Mathlib.Algebra.Field.ZMod
import Mathlib.Data.Nat.Bitwise
import Mathlib.RingTheory.AdjoinRoot
import Mathlib.Tactic.ComputeDegree
import Mathlib.Tactic.LinearCombination

/-!
# The field of the bytes

The polynomials over the field of two elements modulo `x⁸ + x⁴ + x³ + x + 1`. The bits of a number
are the coefficients of a polynomial (`polynomialOf`), and the numbers below 256 are the 256
elements (`byteEquiv`). The exclusive or is the sum (`ofByte_xor`), and a shift with reduction the
product with `x` (`ofByte_double`), so bytes are multiplied by shifts (`ofByte_mulByte`).

Every element but zero has an inverse (`isField_byteField`).
-/

set_option autoImplicit false
set_option relaxedAutoImplicit false

namespace Disguise.Cipher

open Polynomial

noncomputable section

/-! ### Numbers as polynomials -/

/-- The polynomial whose coefficients are the bits of a number. -/
def polynomialOf (number : ℕ) : (ZMod 2)[X] :=
  ∑ i ∈ Finset.range number, if number.testBit i then X ^ i else 0

theorem coeff_polynomialOf (number i : ℕ) :
    (polynomialOf number).coeff i = if number.testBit i then 1 else 0 := by
  simp only [polynomialOf, finsetSum_coeff, apply_ite (fun p : (ZMod 2)[X] ↦ p.coeff i),
    coeff_X_pow, coeff_zero]
  by_cases hi : i < number
  · rw [Finset.sum_eq_single i]
    · simp
    · intro j _ hne
      simp [hne.symm]
    · intro hout
      exact absurd (Finset.mem_range.mpr hi) hout
  · rw [Nat.testBit_lt_two_pow ((not_lt.mp hi).trans_lt Nat.lt_two_pow_self)]
    refine Finset.sum_eq_zero fun j hj ↦ ?_
    have hne : i ≠ j := by
      have hlt := Finset.mem_range.mp hj
      omega
    simp [hne]

theorem polynomialOf_zero : polynomialOf 0 = 0 := rfl

theorem polynomialOf_one : polynomialOf 1 = 1 := by
  refine Polynomial.ext fun i ↦ ?_
  rw [coeff_polynomialOf, coeff_one]
  cases i with
  | zero => rfl
  | succ i => simp [Nat.testBit_succ]

theorem polynomialOf_xor (first second : ℕ) :
    polynomialOf (first ^^^ second) = polynomialOf first + polynomialOf second := by
  have hbits : ∀ b c : Bool, (if b ^^ c then 1 else 0 : ZMod 2) =
      (if b then 1 else 0) + if c then 1 else 0 := by decide
  refine Polynomial.ext fun i ↦ ?_
  rw [coeff_add, coeff_polynomialOf, coeff_polynomialOf, coeff_polynomialOf, Nat.testBit_xor]
  exact hbits _ _

theorem polynomialOf_two_mul (number : ℕ) :
    polynomialOf (2 * number) = X * polynomialOf number := by
  refine Polynomial.ext fun i ↦ ?_
  cases i with
  | zero =>
    rw [coeff_polynomialOf, coeff_X_mul_zero, Nat.testBit_zero, Nat.mul_mod_right]
    rfl
  | succ i =>
    have hhalf : 2 * number / 2 = number := by omega
    rw [coeff_polynomialOf, coeff_X_mul, coeff_polynomialOf, Nat.testBit_succ, hhalf]

/-- A number as its last bit and the others. -/
theorem polynomialOf_div_two (number : ℕ) :
    polynomialOf number = polynomialOf (number % 2) + X * polynomialOf (number / 2) := by
  rw [← polynomialOf_two_mul, ← polynomialOf_xor]
  refine congrArg polynomialOf (Nat.eq_of_testBit_eq fun i ↦ ?_)
  rw [Nat.testBit_xor]
  cases i with
  | zero => simp [Nat.testBit_zero]
  | succ i =>
    have hhalf : 2 * (number / 2) / 2 = number / 2 := by omega
    have hlast : number % 2 / 2 = 0 := by omega
    rw [Nat.testBit_succ, Nat.testBit_succ, Nat.testBit_succ, hhalf, hlast, Nat.zero_testBit,
      Bool.false_xor]

theorem polynomialOf_injective : Function.Injective polynomialOf := by
  intro first second hequal
  have hbits : ∀ b c : Bool, (if b then 1 else 0 : ZMod 2) = (if c then 1 else 0) → b = c := by
    decide
  refine Nat.eq_of_testBit_eq fun i ↦ hbits _ _ ?_
  rw [← coeff_polynomialOf, ← coeff_polynomialOf, hequal]

theorem degree_polynomialOf_lt {number : ℕ} (hnumber : number < 256) :
    (polynomialOf number).degree < 8 := by
  refine (degree_lt_iff_coeff_zero _ 8).mpr fun i hi ↦ ?_
  rw [coeff_polynomialOf, Nat.testBit_lt_two_pow (hnumber.trans_le
    (Nat.pow_le_pow_right (by decide) hi : 2 ^ 8 ≤ 2 ^ i))]
  rfl

/-- Every polynomial of a degree below 8 is the one of a number below 256. -/
theorem exists_polynomialOf {p : (ZMod 2)[X]} (hdegree : p.degree < 8) :
    ∃ number < 256, polynomialOf number = p := by
  have hvalues : ∀ value : ZMod 2, (if value = 1 then 1 else 0) = value := by decide
  refine ⟨Nat.ofBits fun i : Fin 8 ↦ decide (p.coeff i = 1), Nat.ofBits_lt_two_pow _,
    Polynomial.ext fun i ↦ ?_⟩
  rw [coeff_polynomialOf]
  by_cases hi : i < 8
  · simp only [Nat.testBit_ofBits_lt _ i hi, decide_eq_true_eq]
    exact hvalues (p.coeff i)
  · rw [Nat.testBit_ofBits_ge _ i (not_lt.mp hi),
      coeff_eq_zero_of_degree_lt (hdegree.trans_le (by exact_mod_cast not_lt.mp hi))]
    rfl

/-! ### The field -/

/-- The polynomial `x⁸ + x⁴ + x³ + x + 1`. -/
def modulus : (ZMod 2)[X] := X ^ 8 + X ^ 4 + X ^ 3 + X + 1

theorem monic_modulus : modulus.Monic := by
  rw [modulus]
  monicity!

theorem degree_modulus : modulus.degree = 8 := by
  rw [modulus]
  compute_degree!

theorem polynomialOf_modulus : polynomialOf 0x11b = modulus := by
  have hbits : 0x11b = 1 ^^^ 2 * (1 ^^^ 2 * (2 * (1 ^^^ 2 * (1 ^^^ 2 * (2 * (2 * (2 * 1))))))) :=
    rfl
  rw [hbits, modulus]
  simp only [polynomialOf_xor, polynomialOf_two_mul, polynomialOf_one]
  ring

/-- The polynomials modulo `modulus`. -/
abbrev ByteField := AdjoinRoot modulus

instance : Nontrivial ByteField := AdjoinRoot.nontrivial _ (by rw [degree_modulus]; decide)

instance : CharP ByteField 2 :=
  charP_of_injective_algebraMap (algebraMap (ZMod 2) ByteField).injective 2

/-- The element `x`. -/
def generator : ByteField := AdjoinRoot.root modulus

theorem mk_X : AdjoinRoot.mk modulus X = generator := AdjoinRoot.mk_X

/-- The element a byte stands for. -/
def ofByte (byte : UInt8) : ByteField := AdjoinRoot.mk modulus (polynomialOf byte.toNat)

theorem ofByte_injective : Function.Injective ofByte := by
  intro first second hequal
  have hdvd := AdjoinRoot.mk_eq_mk.mp hequal
  have hdegree :
      (polynomialOf first.toNat - polynomialOf second.toNat).degree < modulus.degree := by
    rw [degree_modulus]
    exact (degree_sub_le _ _).trans_lt
      (max_lt (degree_polynomialOf_lt first.toNat_lt) (degree_polynomialOf_lt second.toNat_lt))
  exact UInt8.toNat_inj.mp (polynomialOf_injective
    (sub_eq_zero.mp (eq_zero_of_dvd_of_degree_lt hdvd hdegree)))

theorem ofByte_surjective : Function.Surjective ofByte := by
  intro element
  obtain ⟨p, rfl⟩ := AdjoinRoot.mk_surjective element
  have hdegree := degree_modByMonic_lt p monic_modulus
  rw [degree_modulus] at hdegree
  obtain ⟨number, hnumber, hpolynomial⟩ := exists_polynomialOf hdegree
  refine ⟨UInt8.ofNat number, ?_⟩
  rw [ofByte, UInt8.toNat_ofNat_of_lt' hnumber, hpolynomial]
  exact AdjoinRoot.mk_leftInverse monic_modulus (AdjoinRoot.mk modulus p)

/-- Bytes are the elements of the field. -/
def byteEquiv : UInt8 ≃ ByteField := Equiv.ofBijective ofByte ⟨ofByte_injective, ofByte_surjective⟩

@[simp] theorem byteEquiv_symm_ofByte (byte : UInt8) : byteEquiv.symm (ofByte byte) = byte :=
  byteEquiv.symm_apply_apply byte

theorem ofByte_zero : ofByte 0 = 0 := by
  rw [ofByte, UInt8.toNat_zero, polynomialOf_zero, map_zero]

theorem ofByte_one : ofByte 1 = 1 := by
  rw [ofByte, UInt8.toNat_one, polynomialOf_one, map_one]

/-- The exclusive or is the sum. -/
theorem ofByte_xor (first second : UInt8) :
    ofByte (first ^^^ second) = ofByte first + ofByte second := by
  rw [ofByte, ofByte, ofByte, UInt8.toNat_xor, polynomialOf_xor, map_add]

end

/-! ### Multiplication by shifts -/

/-- A number below 256 shifted by one place, and reduced if a bit is lost. -/
def doubleNat (number : ℕ) : ℕ := 2 * number ^^^ number / 128 * 0x11b

/-- A number below 256 multiplied by the last bits of another one. -/
def mulNat : (bits first second : ℕ) → ℕ
  | 0, _, _ => 0
  | bits + 1, first, second =>
    second % 2 * first ^^^ mulNat bits (doubleNat first) (second / 2)

theorem doubleNat_lt : ∀ number < 256, doubleNat number < 256 := by decide +kernel

theorem mulNat_lt (bits : ℕ) {first : ℕ} (hfirst : first < 256) (second : ℕ) :
    mulNat bits first second < 256 := by
  induction bits generalizing first second with
  | zero => exact Nat.zero_lt_succ _
  | succ bits ih =>
    have hterm : second % 2 * first < 2 ^ 8 := by
      have hbit : second % 2 ≤ 1 := by omega
      have hle := Nat.mul_le_mul_right first hbit
      omega
    exact Nat.xor_lt_two_pow hterm (ih (doubleNat_lt first hfirst) _)

/-- Doubling is the product with `x`. -/
theorem mk_doubleNat {number : ℕ} (hnumber : number < 256) :
    AdjoinRoot.mk modulus (polynomialOf (doubleNat number)) =
      generator * AdjoinRoot.mk modulus (polynomialOf number) := by
  have hreduced : AdjoinRoot.mk modulus (polynomialOf (number / 128 * 0x11b)) = 0 := by
    have hlost : number / 128 = 0 ∨ number / 128 = 1 := by omega
    rcases hlost with hnone | hone
    · rw [hnone, Nat.zero_mul, polynomialOf_zero, map_zero]
    · rw [hone, Nat.one_mul, polynomialOf_modulus, AdjoinRoot.mk_self]
  rw [doubleNat, polynomialOf_xor, polynomialOf_two_mul, map_add, map_mul, mk_X, hreduced,
    add_zero]

theorem mk_mulNat (bits : ℕ) {first second : ℕ} (hfirst : first < 256)
    (hsecond : second < 2 ^ bits) :
    AdjoinRoot.mk modulus (polynomialOf (mulNat bits first second)) =
      AdjoinRoot.mk modulus (polynomialOf first) * AdjoinRoot.mk modulus (polynomialOf second) := by
  induction bits generalizing first second with
  | zero =>
    obtain rfl : second = 0 := by omega
    rw [mulNat, polynomialOf_zero, map_zero, mul_zero]
  | succ bits ih =>
    have hlast : polynomialOf (second % 2 * first) =
        polynomialOf (second % 2) * polynomialOf first := by
      rcases Nat.mod_two_eq_zero_or_one second with hzero | hone
      · rw [hzero, Nat.zero_mul, polynomialOf_zero, zero_mul]
      · rw [hone, Nat.one_mul, polynomialOf_one, one_mul]
    have hhalf : second / 2 < 2 ^ bits := by
      rw [Nat.pow_succ] at hsecond
      omega
    rw [mulNat, polynomialOf_xor, map_add, ih (doubleNat_lt first hfirst) hhalf,
      mk_doubleNat hfirst, hlast, polynomialOf_div_two second, map_add, map_mul, map_mul,
      mk_X]
    ring

/-- The product of a byte with `x`. -/
def double (byte : UInt8) : UInt8 := UInt8.ofNat (doubleNat byte.toNat)

theorem ofByte_double (byte : UInt8) : ofByte (double byte) = generator * ofByte byte := by
  rw [double, ofByte, UInt8.toNat_ofNat_of_lt' (doubleNat_lt _ byte.toNat_lt),
    mk_doubleNat byte.toNat_lt, ofByte]

/-- The product of two bytes. -/
def mulByte (first second : UInt8) : UInt8 := UInt8.ofNat (mulNat 8 first.toNat second.toNat)

theorem ofByte_mulByte (first second : UInt8) :
    ofByte (mulByte first second) = ofByte first * ofByte second := by
  rw [mulByte, ofByte, UInt8.toNat_ofNat_of_lt' (mulNat_lt 8 first.toNat_lt _),
    mk_mulNat 8 first.toNat_lt second.toNat_lt, ofByte, ofByte]

/-! ### Inverses -/

/-- The power of a number with exponent 254, which is the product of seven of its squares. -/
def inverseNat (number : ℕ) : ℕ :=
  let square (number : ℕ) := mulNat 8 number number
  ((List.range 6).foldl
    (fun (power, product) _ ↦ (square power, mulNat 8 product (square power)))
    (square number, square number)).2

theorem mulNat_inverseNat : ∀ number < 256, number ≠ 0 →
    inverseNat number < 256 ∧ mulNat 8 number (inverseNat number) = 1 := by
  decide +kernel

/-- Every element but zero has an inverse. -/
theorem isField_byteField : IsField ByteField where
  exists_pair_ne := exists_pair_ne ByteField
  mul_comm := mul_comm
  mul_inv_cancel {element} helement := by
    obtain ⟨byte, rfl⟩ := ofByte_surjective element
    have hbyte : byte.toNat ≠ 0 := by
      intro hzero
      obtain rfl : byte = 0 := UInt8.toNat_inj.mp hzero
      exact helement ofByte_zero
    obtain ⟨hlt, hproduct⟩ := mulNat_inverseNat byte.toNat byte.toNat_lt hbyte
    refine ⟨AdjoinRoot.mk modulus (polynomialOf (inverseNat byte.toNat)), ?_⟩
    rw [ofByte, ← mk_mulNat 8 byte.toNat_lt hlt, hproduct, polynomialOf_one, map_one]

noncomputable instance : Field ByteField := isField_byteField.toField

/-- A byte whose product with another one is one is the inverse of it. -/
theorem inv_ofByte {first second : UInt8} (hproduct : mulByte first second = 1) :
    (ofByte first)⁻¹ = ofByte second := by
  refine inv_eq_of_mul_eq_one_right ?_
  rw [← ofByte_mulByte, hproduct, ofByte_one]

end Disguise.Cipher
