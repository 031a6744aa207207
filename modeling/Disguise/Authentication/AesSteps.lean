import Disguise.Authentication.Aes
import Disguise.Cipher.Rijndael

/-!
# The steps of `aes.c` in the field

The code works on bytes with tables and shifts. A byte stands for an element of the field, and the
16 bytes of a block for a state of the standard (`matrixOf`). Each step of a round, forwards and
backwards, is the step of the standard on the states: the tables hold the S-box and its inverse,
`xtime` is the product with `x`, and `Multiply` the product with a factor of five bits.
-/

set_option autoImplicit false
set_option relaxedAutoImplicit false

namespace Disguise.Authentication.Aes

open Cipher Memory
open Rijndael (State mixing unmixing substitute)

/-! ### Blocks as states -/

/-- The state of a block: the bytes fill the columns from left to right. -/
noncomputable def matrixOf (block : Octets 16) : State :=
  Matrix.of fun r c ↦ ofByte (cell block c r)

theorem cell_ofCells (value : Fin 4 → Fin 4 → UInt8) (i j : Fin 4) :
    cell (ofCells value) i j = value i j := by
  have hcolumn : (4 * (i : ℕ) + j) / 4 = i := by omega
  have hrow : (4 * (i : ℕ) + j) % 4 = j := by omega
  rw [cell, ofCells, List.Vector.get_ofFn]
  simp only [hcolumn, hrow]

theorem matrixOf_injective : Function.Injective matrixOf := by
  intro first second hequal
  refine List.Vector.ext fun place ↦ ?_
  have hcell := congrFun (congrFun hequal ⟨place % 4, by omega⟩) ⟨place / 4, by omega⟩
  have hplace : (4 * ((place : ℕ) / 4) + place % 4) = place := by omega
  have hbyte := ofByte_injective hcell
  simp only [cell, hplace] at hbyte
  exact hbyte

/-! ### The S-box -/

/-- An entry of a table, with its index. -/
theorem getD_mem_zipIdx {table : List UInt8} {index : ℕ} (hindex : index < table.length) :
    (table.getD index 0, index) ∈ table.zipIdx := by
  rw [List.mk_mem_zipIdx_iff_getElem?, List.getElem?_eq_getElem hindex, List.getD_eq_getElem]

theorem sbox_length : sbox.length = 256 := by decide +kernel

theorem rsbox_length : rsbox.length = 256 := by decide +kernel

/-- Behind the affine map, an entry of the table is the inverse of its index. -/
theorem sbox_entries : ∀ entry ∈ sbox.zipIdx, entry.2 ≠ 0 →
    mulByte (UInt8.ofNat entry.2) (Rijndael.unaffineByte entry.1) = 1 := by
  decide +kernel

/-- In the other table, an entry is the inverse of what the affine map takes to its index. -/
theorem rsbox_entries : ∀ entry ∈ rsbox.zipIdx, entry.2 ≠ 0x63 →
    mulByte (Rijndael.unaffineByte (UInt8.ofNat entry.2)) entry.1 = 1 := by
  decide +kernel

/-- The table holds the S-box. -/
theorem ofByte_getSBoxValue (byte : UInt8) :
    ofByte (getSBoxValue byte) = substitute (ofByte byte) := by
  have hinverse : (ofByte byte)⁻¹ = ofByte (Rijndael.unaffineByte (getSBoxValue byte)) := by
    by_cases hzero : byte.toNat = 0
    · obtain rfl : byte = 0 := UInt8.toNat_inj.mp hzero
      have hsbox : Rijndael.unaffineByte (getSBoxValue 0) = 0 := by decide
      rw [hsbox, ofByte_zero, inv_zero]
    · have hindex : byte.toNat < sbox.length := sbox_length ▸ byte.toNat_lt
      have hproduct := sbox_entries _ (getD_mem_zipIdx hindex) hzero
      rw [UInt8.ofNat_toNat] at hproduct
      exact inv_ofByte hproduct
  have haffine : Rijndael.affine (Rijndael.unaffineByte (getSBoxValue byte)) = getSBoxValue byte :=
    Rijndael.affine.apply_symm_apply _
  rw [Rijndael.substitute_eq, hinverse, byteEquiv_symm_ofByte, haffine]

/-- The other table holds its inverse. -/
theorem ofByte_getSBoxInvert (byte : UInt8) :
    ofByte (getSBoxInvert byte) = substitute.symm (ofByte byte) := by
  have hinverse : (ofByte (Rijndael.unaffineByte byte))⁻¹ = ofByte (getSBoxInvert byte) := by
    by_cases hzero : byte.toNat = 0x63
    · obtain rfl : byte = 0x63 := UInt8.toNat_inj.mp hzero
      have hunaffine : Rijndael.unaffineByte 0x63 = 0 := by decide
      have hrsbox : getSBoxInvert 0x63 = 0 := by decide
      rw [hunaffine, hrsbox, ofByte_zero, inv_zero]
    · have hindex : byte.toNat < rsbox.length := rsbox_length ▸ byte.toNat_lt
      have hproduct := rsbox_entries _ (getD_mem_zipIdx hindex) hzero
      rw [UInt8.ofNat_toNat] at hproduct
      exact inv_ofByte hproduct
  have haffine : Rijndael.affine (Rijndael.unaffineByte byte) = byte :=
    Rijndael.affine.apply_symm_apply byte
  rw [Equiv.eq_symm_apply, ← hinverse, Rijndael.substitute_eq, inv_inv, byteEquiv_symm_ofByte,
    haffine]

/-! ### The steps of a round -/

theorem matrixOf_subBytes (state : Octets 16) :
    matrixOf (subBytes state) = Rijndael.subBytes (matrixOf state) := by
  ext r c
  show ofByte (cell (subBytes state) c r) = substitute (ofByte (cell state c r))
  rw [← ofByte_getSBoxValue, cell, subBytes, List.Vector.get_map]
  rfl

theorem matrixOf_invSubBytes (state : Octets 16) :
    matrixOf (invSubBytes state) = Rijndael.subBytes.symm (matrixOf state) := by
  ext r c
  show ofByte (cell (invSubBytes state) c r) = substitute.symm (ofByte (cell state c r))
  rw [← ofByte_getSBoxInvert, cell, invSubBytes, List.Vector.get_map]
  rfl

theorem matrixOf_shiftRows (state : Octets 16) :
    matrixOf (shiftRows state) = Rijndael.shiftRows (matrixOf state) := by
  ext r c
  exact congrArg ofByte (cell_ofCells _ c r)

theorem matrixOf_invShiftRows (state : Octets 16) :
    matrixOf (invShiftRows state) = Rijndael.shiftRows.symm (matrixOf state) := by
  ext r c
  exact congrArg ofByte (cell_ofCells _ c r)

theorem xtime_eq_double : ∀ byte < 256, xtime (UInt8.ofNat byte) = double (UInt8.ofNat byte) := by
  decide +kernel

theorem ofByte_xtime (byte : UInt8) : ofByte (xtime byte) = generator * ofByte byte := by
  have hbyte := xtime_eq_double byte.toNat byte.toNat_lt
  rw [UInt8.ofNat_toNat] at hbyte
  rw [hbyte, ofByte_double]

/-- The sum of a column and the doubled sums of neighbours in it make up the product with the matrix
of the standard. -/
theorem matrixOf_mixColumns (state : Octets 16) :
    matrixOf (mixColumns state) = Rijndael.mixColumns (matrixOf state) := by
  have htwo : (2 : ByteField) = 0 := CharTwo.two_eq_zero
  have hrow (a : Fin 4 → ByteField) (r : Fin 4) :
      a r + (generator * (a r + a (r + 1)) + (a 0 + a 1 + a 2 + a 3)) =
        mixing r 0 * a 0 + mixing r 1 * a 1 + mixing r 2 * a 2 + mixing r 3 * a 3 := by
    fin_cases r
    · show a 0 + (generator * (a 0 + a 1) + (a 0 + a 1 + a 2 + a 3)) =
        generator * a 0 + (generator + 1) * a 1 + 1 * a 2 + 1 * a 3
      linear_combination a 0 * htwo
    · show a 1 + (generator * (a 1 + a 2) + (a 0 + a 1 + a 2 + a 3)) =
        1 * a 0 + generator * a 1 + (generator + 1) * a 2 + 1 * a 3
      linear_combination a 1 * htwo
    · show a 2 + (generator * (a 2 + a 3) + (a 0 + a 1 + a 2 + a 3)) =
        1 * a 0 + 1 * a 1 + generator * a 2 + (generator + 1) * a 3
      linear_combination a 2 * htwo
    · show a 3 + (generator * (a 3 + a 0) + (a 0 + a 1 + a 2 + a 3)) =
        (generator + 1) * a 0 + 1 * a 1 + 1 * a 2 + generator * a 3
      linear_combination a 3 * htwo
  ext r c
  show ofByte (cell (mixColumns state) c r) = (mixing * matrixOf state) r c
  rw [mixColumns, cell_ofCells, Matrix.mul_apply, Fin.sum_univ_four]
  simp only [ofByte_xor, ofByte_xtime]
  exact hrow (fun k ↦ ofByte (cell state c k)) r

/-- A term of `Multiply`: a value multiplied by a bit. -/
theorem ofByte_bit_mul (y value : UInt8) {place : UInt8} (hplace : place.toNat < 8) :
    ofByte (((y >>> place) &&& 1) * value) =
      AdjoinRoot.mk modulus (polynomialOf (y.toNat / 2 ^ place.toNat % 2)) * ofByte value := by
  have hbit : ((y >>> place) &&& 1).toNat = y.toNat / 2 ^ place.toNat % 2 := by
    rw [UInt8.toNat_and, UInt8.toNat_shiftRight, Nat.mod_eq_of_lt hplace,
      Nat.shiftRight_eq_div_pow]
    exact Nat.and_one_is_mod _
  rw [← hbit]
  have hvalues : ((y >>> place) &&& 1).toNat = 0 ∨ ((y >>> place) &&& 1).toNat = 1 := by omega
  rcases hvalues with hzero | hone
  · have hbyte : (y >>> place) &&& 1 = 0 := UInt8.toNat_inj.mp hzero
    rw [hzero, hbyte, UInt8.zero_mul, ofByte_zero, polynomialOf_zero, map_zero, zero_mul]
  · have hbyte : (y >>> place) &&& 1 = 1 := UInt8.toNat_inj.mp hone
    rw [hone, hbyte, UInt8.one_mul, polynomialOf_one, map_one, one_mul]

/-- `Multiply` is the product in the field.

Assumes: the second argument has five bits. -/
theorem ofByte_multiply (x : UInt8) {y : UInt8} (hy : y.toNat < 32) :
    ofByte (multiply x y) = ofByte x * ofByte y := by
  let bit (place : ℕ) := AdjoinRoot.mk modulus (polynomialOf (y.toNat / 2 ^ place % 2))
  have hdigits : ofByte y = bit 0 + generator * (bit 1 + generator * (bit 2 + generator *
      (bit 3 + generator * bit 4))) := by
    have hrest : y.toNat / 2 / 2 / 2 / 2 / 2 = 0 := by omega
    rw [ofByte, polynomialOf_div_two y.toNat, polynomialOf_div_two (y.toNat / 2),
      polynomialOf_div_two (y.toNat / 2 / 2), polynomialOf_div_two (y.toNat / 2 / 2 / 2),
      polynomialOf_div_two (y.toNat / 2 / 2 / 2 / 2), hrest, polynomialOf_zero, mul_zero, add_zero]
    simp only [map_add, map_mul, mk_X, Nat.div_div_eq_div_mul, bit]
    norm_num
  rw [multiply]
  simp only [ofByte_xor]
  rw [ofByte_bit_mul y x (by decide), ofByte_bit_mul y _ (by decide),
    ofByte_bit_mul y _ (by decide),
    ofByte_bit_mul y _ (by decide), ofByte_bit_mul y _ (by decide)]
  simp only [ofByte_xtime]
  show bit 0 * _ + bit 1 * _ + bit 2 * _ + bit 3 * _ + bit 4 * _ = _
  rw [hdigits]
  ring

theorem matrixOf_invMixColumns (state : Octets 16) :
    matrixOf (invMixColumns state) = Rijndael.mixColumns.symm (matrixOf state) := by
  ext r c
  show ofByte (cell (invMixColumns state) c r) = (unmixing * matrixOf state) r c
  rw [invMixColumns, cell_ofCells, Matrix.mul_apply, Fin.sum_univ_four, Rijndael.unmixing_eq]
  have hsum (x0 x1 x2 x3 : UInt8) {y0 y1 y2 y3 : UInt8} (h0 : y0.toNat < 32) (h1 : y1.toNat < 32)
      (h2 : y2.toNat < 32) (h3 : y3.toNat < 32) :
      ofByte (multiply x0 y0 ^^^ multiply x1 y1 ^^^ multiply x2 y2 ^^^ multiply x3 y3) =
        ofByte y0 * ofByte x0 + ofByte y1 * ofByte x1 + ofByte y2 * ofByte x2 +
          ofByte y3 * ofByte x3 := by
    simp only [ofByte_xor, ofByte_multiply _ h0, ofByte_multiply _ h1, ofByte_multiply _ h2,
      ofByte_multiply _ h3]
    ring
  fin_cases r <;> exact hsum _ _ _ _ (by decide) (by decide) (by decide) (by decide)

end Disguise.Authentication.Aes
