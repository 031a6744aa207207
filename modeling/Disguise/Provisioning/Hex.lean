import Disguise.Provisioning.Sodium
import Mathlib.Data.Int.Notation

/-!
# Hexadecimal text in the provider

The two helpers at the head of `provider.cpp`, on strings as lists of characters. `bytesToHex`
writes every byte as two lower-case digits. `hexToBytes` reads its argument two characters at a
time with `std::stoi` in base 16 (`stoi16`), which skips white space, accepts a sign and a `0x`
prefix, stops at the first character that is not a digit, and throws only when it finds no digit;
`none` is that exception.

`bytesToHex_inj` is what the comparison of two hexadecimal strings in the provider rests on.
-/

set_option autoImplicit false
set_option relaxedAutoImplicit false

namespace Disguise.Provisioning

/-- A C++ string. -/
abbrev Text := List Char

/-- The lower-case hexadecimal digits, in order. -/
def hexDigits : Text :=
  ['0', '1', '2', '3', '4', '5', '6', '7', '8', '9', 'a', 'b', 'c', 'd', 'e', 'f']

/-- The hexadecimal digit of a value below 16. -/
def hexDigit (value : ℕ) : Char := hexDigits.getD value '0'

/-- One byte written with `std::hex`, `std::setw(2)` and `std::setfill('0')`. -/
def byteToHex (byte : UInt8) : Text := [hexDigit (byte.toNat / 16), hexDigit (byte.toNat % 16)]

/-- `bytesToHex`. -/
def bytesToHex (data : Bytes) : Text := data.flatMap byteToHex

/-- The value of a hexadecimal digit of either case. -/
def digitValue (character : Char) : Option ℕ :=
  if '0' ≤ character ∧ character ≤ '9' then some (character.toNat - '0'.toNat)
  else if 'a' ≤ character ∧ character ≤ 'f' then some (character.toNat - 'a'.toNat + 10)
  else if 'A' ≤ character ∧ character ≤ 'F' then some (character.toNat - 'A'.toNat + 10)
  else none

/-- The white space `isspace` knows. -/
def isSpace (character : Char) : Bool :=
  character = ' ' ∨ 9 ≤ character.toNat ∧ character.toNat ≤ 13

/-- Splits an optional sign off a text, as the factor it stands for. -/
def takeSign : Text → ℤ × Text
  | '-' :: rest => (-1, rest)
  | '+' :: rest => (1, rest)
  | rest => (1, rest)

/-- Drops a `0x` prefix that is followed by a digit. -/
def dropHexPrefix : Text → Text
  | '0' :: mark :: digit :: rest =>
    if (mark = 'x' ∨ mark = 'X') ∧ (digitValue digit).isSome then digit :: rest
    else '0' :: mark :: digit :: rest
  | rest => rest

/-- The values of the digits a text starts with. -/
def leadingDigits : Text → List ℕ
  | [] => []
  | character :: rest =>
    match digitValue character with
    | some value => value :: leadingDigits rest
    | none => []

/-- `std::stoi(text, nullptr, 16)`, or `none` where it throws. -/
def stoi16 (text : Text) : Option ℤ :=
  let signed := takeSign (text.dropWhile isSpace)
  match leadingDigits (dropHexPrefix signed.2) with
  | [] => none
  | digits => some (signed.1 * Int.ofNat (digits.foldl (fun value digit ↦ 16 * value + digit) 0))

/-- The conversion of an `int` to `unsigned char`. -/
def toByte (value : ℤ) : UInt8 := UInt8.ofNat (value % 256).toNat

/-- `hexToBytes`, or `none` where `std::stoi` throws. -/
def hexToBytes : Text → Option Bytes
  | [] => some []
  | [last] => (stoi16 [last]).map fun value ↦ [toByte value]
  | first :: second :: rest =>
    (stoi16 [first, second]).bind fun value ↦
      (hexToBytes rest).map fun bytes ↦ toByte value :: bytes

/-- A digit that was written is read back. -/
theorem digitValue_hexDigit {value : ℕ} (hvalue : value < 16) :
    digitValue (hexDigit value) = some value := by
  have hall : ∀ value : Fin 16, digitValue (hexDigit value) = some value.val := by decide
  exact hall ⟨value, hvalue⟩

/-- Different bytes are written differently. -/
theorem byteToHex_injective : Function.Injective byteToHex := by
  intro first second hequal
  have hfirst := first.toNat_lt
  have hsecond := second.toNat_lt
  obtain ⟨hhigh, hlow⟩ := List.cons.inj hequal
  have hhighValue := congrArg digitValue hhigh
  have hlowValue := congrArg digitValue (List.cons.inj hlow).1
  rw [digitValue_hexDigit (by omega), digitValue_hexDigit (by omega)] at hhighValue hlowValue
  apply UInt8.toNat_inj.mp
  have hdiv := Option.some.inj hhighValue
  have hmod := Option.some.inj hlowValue
  omega

/-- The text of a byte string is twice as long as the string. -/
theorem length_bytesToHex (data : Bytes) : (bytesToHex data).length = 2 * data.length := by
  induction data with
  | nil => rfl
  | cons byte rest ih =>
    rw [bytesToHex, List.flatMap_cons, List.length_append, ← bytesToHex, ih, List.length_cons,
      byteToHex]
    simp only [List.length_cons, List.length_nil]
    omega

/-- Two byte strings have the same text exactly when they are equal. -/
theorem bytesToHex_inj {first second : Bytes} :
    bytesToHex first = bytesToHex second ↔ first = second := by
  refine ⟨fun hequal ↦ ?_, fun hequal ↦ by rw [hequal]⟩
  induction first generalizing second with
  | nil =>
    have hlength := congrArg List.length hequal
    rw [length_bytesToHex, length_bytesToHex, List.length_nil] at hlength
    exact (List.length_eq_zero_iff.mp (by omega)).symm
  | cons byte rest ih =>
    cases second with
    | nil =>
      have hlength := congrArg List.length hequal
      rw [length_bytesToHex, length_bytesToHex, List.length_cons, List.length_nil] at hlength
      omega
    | cons byte' rest' =>
      simp only [bytesToHex, List.flatMap_cons] at hequal
      obtain ⟨hbyte, hrest⟩ := List.append_inj hequal rfl
      rw [byteToHex_injective hbyte, ih hrest]

end Disguise.Provisioning
