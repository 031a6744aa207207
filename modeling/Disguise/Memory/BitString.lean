import Disguise.Memory.Octets
import Mathlib.Data.List.Induction

/-!
# Octet strings as bit strings

An octet string is a bit string with the most significant bit of its first octet in front. `toBits`
is the big-endian number of the string and `ofBits` the string of a number. On this view a standard
that speaks of rotating a block of 128 bits is stated with the rotation of bit vectors
(`rotateBits`), and `get_rotateBits_eight_mul` says what a rotation by whole octets does to the
octets.
-/

set_option autoImplicit false
set_option relaxedAutoImplicit false

namespace Disguise.Memory

variable {n : ℕ}

/-- The number a list of octets spells, the most significant octet first. -/
def bigEndian (octets : List UInt8) : ℕ :=
  octets.foldl (fun number octet ↦ 2 ^ 8 * number + octet.toNat) 0

/-- The big-endian number of an octet string. -/
def toBits (octets : Octets n) : BitVec (8 * n) := BitVec.ofNat (8 * n) (bigEndian octets.toList)

/-- The octet string of a big-endian number. -/
def ofBits (bits : BitVec (8 * n)) : Octets n :=
  List.Vector.ofFn fun i ↦ UInt8.ofBitVec (bits.extractLsb' (8 * (n - 1 - i)) 8)

/-- One octet more behind a list. -/
theorem bigEndian_append_singleton (front : List UInt8) (last : UInt8) :
    bigEndian (front ++ [last]) = 2 ^ 8 * bigEndian front + last.toNat := by
  rw [bigEndian, List.foldl_append]
  rfl

theorem bigEndian_lt (octets : List UInt8) : bigEndian octets < 2 ^ (8 * octets.length) := by
  induction octets using List.reverseRecOn with
  | nil => exact Nat.one_pos
  | append_singleton front last ih =>
    have hlast := last.toNat_lt
    rw [bigEndian_append_singleton, List.length_append, List.length_singleton, Nat.mul_add,
      Nat.pow_add, Nat.mul_one]
    omega

/-- Bit `j` of the number, counted from the least significant one, is bit `j % 8` of the octet
`j / 8` places before the last. -/
theorem testBit_bigEndian (octets : List UInt8) {j : ℕ} (hj : j < 8 * octets.length) :
    (bigEndian octets).testBit j =
      (octets.get ⟨octets.length - 1 - j / 8, by omega⟩).toBitVec.getLsbD (j % 8) := by
  induction octets using List.reverseRecOn generalizing j with
  | nil => exact absurd hj (Nat.not_lt_zero _)
  | append_singleton front last ih =>
    have hlength : (front ++ [last]).length = front.length + 1 := by
      rw [List.length_append, List.length_singleton]
    rw [bigEndian_append_singleton, Nat.testBit_two_pow_mul_add _ last.toNat_lt]
    simp only [List.get_eq_getElem]
    by_cases hlast : j < 8
    · rw [if_pos hlast, List.getElem_append_right (by omega), List.getElem_singleton,
        Nat.mod_eq_of_lt hlast]
      rfl
    · have hfront : j - 8 < 8 * front.length := by omega
      have hbit : (j - 8) % 8 = j % 8 := by omega
      rw [if_neg hlast, ih hfront, List.getElem_append_left (by omega), hbit]
      simp only [List.get_eq_getElem, hlength]
      congr 3
      omega

theorem getLsbD_toBits (octets : Octets n) {j : ℕ} (hj : j < 8 * n) :
    (toBits octets).getLsbD j =
      (octets.get ⟨n - 1 - j / 8, by omega⟩).toBitVec.getLsbD (j % 8) := by
  have hlength : octets.toList.length = n := octets.toList_length
  rw [toBits, BitVec.getLsbD_ofNat, decide_eq_true hj, Bool.true_and,
    testBit_bigEndian _ (by omega), List.Vector.get_eq_get_toList]
  congr 3
  exact Fin.ext (by simp only [hlength, Fin.val_cast])

theorem getLsbD_get_ofBits (bits : BitVec (8 * n)) (i : Fin n) {b : ℕ} (hb : b < 8) :
    ((ofBits bits).get i).toBitVec.getLsbD b = bits.getLsbD (8 * (n - 1 - i) + b) := by
  rw [ofBits, List.Vector.get_ofFn, UInt8.toBitVec_ofBitVec, BitVec.getLsbD_extractLsb',
    decide_eq_true hb, Bool.true_and]

/-- Octets are equal when their bits are. -/
theorem octet_ext {first second : UInt8}
    (hbits : ∀ b < 8, first.toBitVec.getLsbD b = second.toBitVec.getLsbD b) : first = second := by
  rw [← UInt8.toBitVec_inj]
  exact BitVec.eq_of_getLsbD_eq fun b hb ↦ hbits b hb

@[simp] theorem ofBits_toBits (octets : Octets n) : ofBits (toBits octets) = octets := by
  apply List.Vector.ext
  intro i
  apply octet_ext
  intro b hb
  rw [getLsbD_get_ofBits _ i hb, getLsbD_toBits _ (by omega)]
  congr 4
  · omega
  · omega

@[simp] theorem toBits_ofBits (bits : BitVec (8 * n)) : toBits (ofBits bits) = bits := by
  apply BitVec.eq_of_getLsbD_eq
  intro j hj
  rw [getLsbD_toBits _ hj, getLsbD_get_ofBits _ _ (Nat.mod_lt _ (by omega))]
  congr 1
  have hdiv : j / 8 < n := by omega
  show 8 * (n - 1 - (n - 1 - j / 8)) + j % 8 = j
  omega

/-! ### Rotation -/

/-- The octet string rotated to the left by a number of bits. -/
def rotateBits (octets : Octets n) (count : ℕ) : Octets n :=
  ofBits ((toBits octets).rotateLeft count)

/-- The bit a rotation by less than the width moves to a place. -/
theorem getLsbD_rotateLeft_of_lt {w : ℕ} (bits : BitVec w) {count j : ℕ} (hcount : count < w)
    (hj : j < w) :
    (bits.rotateLeft count).getLsbD j =
      if j < count then bits.getLsbD (w - count + j) else bits.getLsbD (j - count) := by
  rw [BitVec.getLsbD_rotateLeft, Nat.mod_eq_of_lt hcount, decide_eq_true hj, Bool.true_and,
    Bool.cond_decide]

/-- A rotation by whole octets takes each octet from further back, around the end. -/
theorem get_rotateBits_eight_mul (octets : Octets n) {count : ℕ} (hcount : count < n) (i : Fin n) :
    (rotateBits octets (8 * count)).get i =
      octets.get ⟨(i + count) % n, Nat.mod_lt _ (by omega)⟩ := by
  have hi := i.isLt
  apply octet_ext
  intro b hb
  rw [rotateBits, getLsbD_get_ofBits _ i hb, getLsbD_rotateLeft_of_lt _ (by omega) (by omega)]
  by_cases hwrap : i + count < n
  · -- the octet comes from inside the string
    rw [if_neg (by omega), getLsbD_toBits _ (by omega)]
    congr 4
    · rw [Nat.mod_eq_of_lt hwrap]
      omega
    · omega
  · -- the octet comes from the front of the string
    have hmod : (i + count) % n = i + count - n := by
      rw [Nat.mod_eq_sub_mod (by omega), Nat.mod_eq_of_lt (by omega)]
    rw [if_pos (by omega), getLsbD_toBits _ (by omega)]
    congr 4
    · rw [hmod]
      omega
    · omega

end Disguise.Memory
