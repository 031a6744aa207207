import Mathlib.Algebra.Group.Int.Defs
import Mathlib.Data.List.Basic
import Mathlib.Tactic.Common

/-!
# Decimal numerals

The text of an integer: a minus sign if it is negative, and its digits from the most significant one
on, without a leading zero. `DecimalText` says that a text is the one of a number, and reading such
a text gives the number back. The text Lean prints for a number is its decimal text
(`decimalText_repr`).

A program that divides by ten finds the digits the other way round. `reversedDigits` and
`reversedText` are what such a loop writes, with one equation for a turn (`reversedDigits_cons`).
-/

set_option autoImplicit false
set_option relaxedAutoImplicit false

namespace Disguise.Numeral

/-! ### The text of a number -/

/-- The characters of a text behind a minus sign, if it has one. -/
def magnitude (text : List Char) : List Char :=
  if text.head? = some '-' then text.tail else text

/-- The number a text stands for, its digits read from the most significant one on. -/
def readDecimal (text : List Char) : ℤ :=
  if text.head? = some '-' then -(Nat.ofDigitChars 10 (magnitude text) 0 : ℤ)
  else Nat.ofDigitChars 10 (magnitude text) 0

/-- What is wanted of the text of a number: it has a minus sign only if the number is negative,
digits behind it, no leading zero, and it stands for the number. -/
structure DecimalText (num : ℤ) (text : List Char) : Prop where
  minus : text.head? = some '-' ↔ num < 0
  digits : ∀ digit ∈ magnitude text, digit.isDigit = true
  no_leading_zero : (magnitude text).head? = some '0' → num = 0
  zero : num = 0 → text = ['0']
  value : readDecimal text = num

/-- The text of a natural number begins with a zero only if it is the number zero. -/
theorem head?_toDigits_ne_zero {num : ℕ} (hnum : num ≠ 0) :
    (Nat.toDigits 10 num).head? ≠ some '0' := by
  induction num using Nat.strongRecOn with
  | ind num ih =>
    by_cases hsmall : num < 10
    · rw [Nat.toDigits_of_lt_base hsmall, List.head?_cons]
      intro hzero
      have hchar : num.digitChar.toNat = '0'.toNat := congrArg Char.toNat (Option.some.inj hzero)
      rw [Nat.toNat_digitChar_of_lt_ten hsmall] at hchar
      have hcode : '0'.toNat = 48 := rfl
      omega
    · rw [Nat.toDigits_of_base_le (by decide) (by omega),
        List.head?_append_of_ne_nil _ Nat.toDigits_ne_nil]
      exact ih (num / 10) (by omega) (by omega)

theorem toList_repr (num : ℤ) : num.repr.toList =
    if num < 0 then '-' :: Nat.toDigits 10 num.natAbs else Nat.toDigits 10 num.natAbs := by
  rw [Int.repr_eq_if]
  by_cases hnegative : num < 0
  · have habs : (-num).toNat = num.natAbs := by omega
    rw [if_neg (by omega), if_pos hnegative, String.toList_append, Nat.toList_repr, habs]
    rfl
  · have habs : num.toNat = num.natAbs := by omega
    rw [if_pos (by omega), if_neg hnegative, Nat.toList_repr, habs]

theorem toList_repr_ne_nil (num : ℤ) : num.repr.toList ≠ [] := by
  rw [toList_repr]
  split
  · exact List.cons_ne_nil _ _
  · exact Nat.toDigits_ne_nil

/-- A number in digits has no minus sign. -/
theorem head?_toDigits_ne_minus (num : ℕ) : (Nat.toDigits 10 num).head? ≠ some '-' := by
  intro hhead
  have hdigit := Nat.isDigit_of_mem_toDigits (by decide) (by decide) (List.mem_of_head? hhead)
  revert hdigit
  decide

theorem head?_repr_eq_minus (num : ℤ) : num.repr.toList.head? = some '-' ↔ num < 0 := by
  rw [toList_repr]
  by_cases hnegative : num < 0
  · exact iff_of_true (by rw [if_pos hnegative, List.head?_cons]) hnegative
  · rw [if_neg hnegative]
    exact iff_of_false (head?_toDigits_ne_minus _) hnegative

theorem magnitude_repr (num : ℤ) :
    magnitude num.repr.toList = Nat.toDigits 10 num.natAbs := by
  rw [toList_repr, magnitude]
  by_cases hnegative : num < 0
  · rw [if_pos hnegative, List.head?_cons, if_pos rfl, List.tail_cons]
  · rw [if_neg hnegative, if_neg (head?_toDigits_ne_minus _)]

/-- The text Lean prints for a number is its decimal text. -/
theorem decimalText_repr (num : ℤ) : DecimalText num num.repr.toList where
  minus := head?_repr_eq_minus num
  digits digit hdigit := by
    rw [magnitude_repr] at hdigit
    exact Nat.isDigit_of_mem_toDigits (by decide) (by decide) hdigit
  no_leading_zero hzero := by
    rw [magnitude_repr] at hzero
    by_contra hnum
    exact head?_toDigits_ne_zero (Int.natAbs_ne_zero.mpr hnum) hzero
  zero hzero := by
    rw [hzero]
    rfl
  value := by
    rw [readDecimal, magnitude_repr, Nat.ofDigitChars_ten_toDigits]
    split
    next hminus =>
      have hnegative := (head?_repr_eq_minus num).mp hminus
      omega
    next hplus =>
      have hnonnegative := mt (head?_repr_eq_minus num).mpr hplus
      omega

/-- The text of a `long` has at most 20 characters. -/
theorem length_repr_le {num : ℤ} (hlow : -2 ^ 63 < num) (hhigh : num < 2 ^ 63) :
    num.repr.toList.length ≤ 20 := by
  have hdigits : (Nat.toDigits 10 num.natAbs).length ≤ 19 :=
    (Nat.length_toDigits_le_iff (by decide) (by decide)).mpr (by omega)
  rw [toList_repr]
  split
  · rw [List.length_cons]
    omega
  · omega

/-! ### From the last digit on -/

/-- The characters of the digits of a number, the last digit first, and none for zero. -/
def reversedDigits (num : ℕ) : List Char := if num = 0 then [] else (Nat.toDigits 10 num).reverse

theorem reversedDigits_cons {num : ℕ} (hnum : num ≠ 0) :
    reversedDigits num = Nat.digitChar (num % 10) :: reversedDigits (num / 10) := by
  rw [reversedDigits, if_neg hnum, reversedDigits, Nat.toDigits_eq_if (by decide)]
  by_cases hsmall : num < 10
  · rw [if_pos hsmall, if_pos (by omega), Nat.mod_eq_of_lt hsmall]
    rfl
  · rw [if_neg hsmall, if_neg (by omega), List.reverse_append]
    rfl

/-- The text of a number from its end on: the digits, the last one first, and the sign. -/
def reversedText (num : ℤ) : List Char :=
  if num < 0 then reversedDigits num.natAbs ++ ['-'] else reversedDigits num.natAbs

theorem reversedText_of_neg {num : ℤ} (hnegative : num < 0) :
    reversedText num = reversedDigits num.natAbs ++ ['-'] := if_pos hnegative

theorem reversedText_of_nonneg {num : ℤ} (hnonnegative : 0 ≤ num) :
    reversedText num = reversedDigits num.natAbs := if_neg (by omega)

theorem length_reversedText_of_neg {num : ℤ} (hnegative : num < 0) :
    (reversedText num).length = (reversedDigits num.natAbs).length + 1 := by
  rw [reversedText_of_neg hnegative, List.length_append, List.length_singleton]

/-- Reversed, it is the text of the number. -/
theorem reverse_reversedText {num : ℤ} (hnum : num ≠ 0) :
    (reversedText num).reverse = num.repr.toList := by
  have hdigits : (reversedDigits num.natAbs).reverse = Nat.toDigits 10 num.natAbs := by
    rw [reversedDigits, if_neg (by omega), List.reverse_reverse]
  rw [toList_repr]
  by_cases hnegative : num < 0
  · rw [if_pos hnegative, reversedText_of_neg hnegative, List.reverse_append, hdigits]
    rfl
  · rw [if_neg hnegative, reversedText_of_nonneg (by omega), hdigits]

theorem length_reversedText {num : ℤ} (hnum : num ≠ 0) :
    (reversedText num).length = num.repr.toList.length := by
  rw [← reverse_reversedText hnum, List.length_reverse]

end Disguise.Numeral
