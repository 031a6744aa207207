import Disguise.Authentication.Usim

/-!
# Configuration of the UE

`usim::init`, which reads the credentials and the identities of the subscriber from the arguments of
the program, and `str_to_hex`. The characters of a string are bytes; they are unsigned, as on the
processor of the enclave. `compute_opc` is a function of srsRAN and a parameter, and so is the
pointer that `mmap` returns.

`init` checks the lengths of the texts and nothing else. A text of the wrong length is reported, and
the member keeps its value; a text with characters that are not digits is read like any other one.

A hexadecimal text is read as the bytes whose text it is, up to the case of the letters
(`strToHex_eq_iff`), and a decimal text of 15 digits as the number whose text it is
(`readDigits_eq_iff`).
-/

set_option autoImplicit false
set_option relaxedAutoImplicit false

namespace Disguise.Authentication.Ue

open Memory Milenage

/-! ### The code -/

/-- A C++ string. -/
abbrev Text := List UInt8

/-- The value `str_to_hex` gives to a character. It makes no difference between a letter from `a` to
`f` and any other character. -/
def hexValue (h : UInt8) : UInt8 :=
  if '0'.toUInt8 ≤ h ∧ h ≤ '9'.toUInt8 then h - '0'.toUInt8
  else if 'A'.toUInt8 ≤ h ∧ h ≤ 'F'.toUInt8 then h - 'A'.toUInt8 + 0xA
  else h - 'a'.toUInt8 + 0xA

/-- `str_to_hex`: the bytes it writes to its array. -/
def strToHex : Text → List UInt8
  | [] => []
  | [_] => []
  | high :: low :: rest => ((hexValue high <<< 4) ||| hexValue low) :: strToHex rest

/-- The loop of `init` over the digits of an identity. -/
def readDigits (text : Text) : UInt64 :=
  text.foldl (fun number digit ↦ number * 10 + UInt64.ofInt (digit.toNat - '0'.toNat)) 0

/-- The members of `usim_args_t` that `init` reads. -/
structure UsimArgs where
  algo : Text
  usingOp : Bool
  op : Text
  opc : Text
  imsi : Text
  imei : Text
  k : Text

/-- The members of `usim` that `init` writes. -/
structure Identity where
  imsiStr : Text
  imeiStr : Text
  sharedData : SharedPointer
  authAlgo : AuthAlgo
  k : Block
  op : Block
  opc : Block
  imsi : UInt64
  imei : UInt64
  initiated : Bool

/-- What `init` logs and prints for a text of the wrong length: the name of the credential, the
length of its text, and the length it should have. -/
structure LengthError where
  name : String
  length : ℕ
  expected : ℕ
  deriving DecidableEq, Repr

theorem length_strToHex (text : Text) : (strToHex text).length = text.length / 2 := by
  induction text using strToHex.induct with
  | case1 => rfl
  | case2 last => rw [strToHex, List.length_nil, List.length_singleton]
  | case3 high low rest ih =>
    rw [strToHex, List.length_cons, ih, List.length_cons, List.length_cons]
    omega

/-- Reads a block of 16 bytes from a text, if that has the right length. -/
def readBlock (name : String) (text : Text) (old : Block) : Block × List LengthError :=
  if hlength : text.length = 32 then
    (⟨strToHex text, by rw [length_strToHex, hlength]⟩, [])
  else (old, [⟨name, text.length, 32⟩])

/-- Reads an identity of 15 digits from a text, if that has the right length. -/
def readIdentity (name : String) (text : Text) (old : UInt64) : UInt64 × List LengthError :=
  if text.length = 15 then (readDigits text, []) else (old, [⟨name, text.length, 15⟩])

/-- `SRSRAN_SUCCESS`. -/
def srsranSuccess : ℤ := 0

/-- The choice of the algorithm. -/
def UsimArgs.authAlgo (args : UsimArgs) : AuthAlgo :=
  if args.algo = ['x', 'o', 'r'].map Char.toUInt8 then .xor else .milenage

/-- The part of `init` that reads OP or OPc: the two members, and the errors. -/
def readOperator (computeOpc : Block → Block → Block) (args : UsimArgs) (k : Block)
    (identity : Identity) : (Block × Block) × List LengthError :=
  if args.authAlgo = .milenage then
    if args.usingOp then
      let (op, errors) := readBlock "OP" args.op identity.op
      -- OPc is computed only if there is a new OP
      ((op, if args.op.length = 32 then computeOpc k op else identity.opc), errors)
    else
      let (opc, errors) := readBlock "OPc" args.opc identity.opc
      ((identity.op, opc), errors)
  else ((identity.op, identity.opc), [])

/-- `init`: the value it returns, the members it leaves, and the errors it prints. -/
def init (computeOpc : Block → Block → Block) (mapping : SharedPointer) (args : UsimArgs)
    (identity : Identity) : ℤ × Identity × List LengthError :=
  let (k, kErrors) := readBlock "K" args.k identity.k
  let ((op, opc), operatorErrors) := readOperator computeOpc args k identity
  let (imsi, imsiErrors) := readIdentity "IMSI" args.imsi identity.imsi
  let (imei, imeiErrors) := readIdentity "IMEI" args.imei identity.imei
  (srsranSuccess,
    { imsiStr := args.imsi, imeiStr := args.imei, sharedData := mapping, authAlgo := args.authAlgo,
      k, op, opc, imsi, imei, initiated := true },
    kErrors ++ operatorErrors ++ imsiErrors ++ imeiErrors)

/-! ### Hexadecimal texts -/

/-- The lower-case digit of a value below 16, as `snprintf` writes it. -/
def hexDigit (value : UInt8) : UInt8 :=
  if value < 10 then '0'.toUInt8 + value else 'a'.toUInt8 + (value - 10)

/-- The text that the log shows for some bytes. -/
def hexText (bytes : List UInt8) : Text :=
  bytes.flatMap fun byte : UInt8 ↦ [hexDigit (byte >>> 4), hexDigit (byte &&& 0xF)]

/-- A character is a hexadecimal digit of either case. -/
def IsHexDigit (h : UInt8) : Prop :=
  ('0'.toUInt8 ≤ h ∧ h ≤ '9'.toUInt8) ∨ ('A'.toUInt8 ≤ h ∧ h ≤ 'F'.toUInt8) ∨
    ('a'.toUInt8 ≤ h ∧ h ≤ 'f'.toUInt8)

instance (h : UInt8) : Decidable (IsHexDigit h) := inferInstanceAs (Decidable (_ ∨ _))

/-- A hexadecimal digit in lower case. -/
def lowerCase (h : UInt8) : UInt8 := if 'A'.toUInt8 ≤ h ∧ h ≤ 'F'.toUInt8 then h + 0x20 else h

theorem hexDigit_hexValue :
    ∀ h < 256, IsHexDigit (UInt8.ofNat h) → hexValue (UInt8.ofNat h) < 16 ∧
      hexDigit (hexValue (UInt8.ofNat h)) = lowerCase (UInt8.ofNat h) := by
  decide +kernel

theorem nibbles_of_or :
    ∀ high < 16, ∀ low < 16,
      ((UInt8.ofNat high <<< 4 ||| UInt8.ofNat low) >>> 4 = UInt8.ofNat high ∧
        (UInt8.ofNat high <<< 4 ||| UInt8.ofNat low) &&& 0xF = UInt8.ofNat low) := by
  decide +kernel

theorem digits_of_byte :
    ∀ byte < 256, strToHex (hexText [UInt8.ofNat byte]) = [UInt8.ofNat byte] := by
  decide +kernel

/-- A digit is written back in lower case. -/
theorem IsHexDigit.facts {h : UInt8} (hdigit : IsHexDigit h) :
    (hexValue h).toNat < 16 ∧ hexDigit (hexValue h) = lowerCase h := by
  have hfacts := hexDigit_hexValue h.toNat h.toNat_lt
  rw [UInt8.ofNat_toNat] at hfacts
  obtain ⟨hsmall, hwritten⟩ := hfacts hdigit
  exact ⟨UInt8.lt_iff_toNat_lt.mp hsmall, hwritten⟩

/-- A hexadecimal text is written back in lower case.

Assumes: the text has whole pairs of digits. -/
theorem hexText_strToHex {text : Text} (hdigits : ∀ h ∈ text, IsHexDigit h)
    (heven : text.length % 2 = 0) : hexText (strToHex text) = text.map lowerCase := by
  induction text using strToHex.induct with
  | case1 => rfl
  | case2 last =>
    rw [List.length_singleton] at heven
    omega
  | case3 high low rest ih =>
    rw [List.forall_mem_cons, List.forall_mem_cons] at hdigits
    obtain ⟨hhigh, hlow, hrest⟩ := hdigits
    rw [List.length_cons, List.length_cons] at heven
    obtain ⟨hhighSmall, hhighDigit⟩ := hhigh.facts
    obtain ⟨hlowSmall, hlowDigit⟩ := hlow.facts
    have hnibbles := nibbles_of_or _ hhighSmall _ hlowSmall
    rw [UInt8.ofNat_toNat, UInt8.ofNat_toNat] at hnibbles
    rw [strToHex, hexText, List.flatMap_cons, hnibbles.1, hnibbles.2, hhighDigit, hlowDigit,
      List.map_cons, List.map_cons, ← ih hrest (by omega)]
    rfl

theorem strToHex_hexText_byte (byte : UInt8) : strToHex (hexText [byte]) = [byte] := by
  have hfacts := digits_of_byte byte.toNat byte.toNat_lt
  rwa [UInt8.ofNat_toNat] at hfacts

/-- What is written is read back. -/
theorem strToHex_hexText (bytes : List UInt8) : strToHex (hexText bytes) = bytes := by
  induction bytes with
  | nil => rfl
  | cons byte rest ih =>
    have hpair : strToHex (hexText (byte :: rest)) =
        strToHex (hexText [byte]) ++ strToHex (hexText rest) := rfl
    rw [hpair, strToHex_hexText_byte, ih]
    rfl

/-- A hexadecimal text is read as some bytes exactly if it is theirs, up to the case. -/
theorem strToHex_eq_iff {text : Text} (hdigits : ∀ h ∈ text, IsHexDigit h)
    (heven : text.length % 2 = 0) (bytes : List UInt8) :
    strToHex text = bytes ↔ text.map lowerCase = hexText bytes := by
  rw [← hexText_strToHex hdigits heven]
  exact ⟨congrArg hexText, fun hequal ↦ by
    rw [← strToHex_hexText (strToHex text), hequal, strToHex_hexText]⟩

/-! ### Decimal texts -/

/-- The decimal text of a number, with so many digits. -/
def decimalText : (count number : ℕ) → Text
  | 0, _ => []
  | count + 1, number =>
    decimalText count (number / 10) ++ ['0'.toUInt8 + UInt8.ofNat (number % 10)]

/-- A character is a decimal digit. -/
def IsDecimalDigit (digit : UInt8) : Prop := '0'.toUInt8 ≤ digit ∧ digit ≤ '9'.toUInt8

instance (digit : UInt8) : Decidable (IsDecimalDigit digit) := inferInstanceAs (Decidable (_ ∧ _))

theorem IsDecimalDigit.bounds {digit : UInt8} (hdigit : IsDecimalDigit digit) :
    48 ≤ digit.toNat ∧ digit.toNat ≤ 57 :=
  ⟨UInt8.le_iff_toNat_le.mp hdigit.1, UInt8.le_iff_toNat_le.mp hdigit.2⟩

/-- Every further digit multiplies the number by ten.

Assumes: the character is a digit, and there is room for the number. -/
theorem toNat_readDigits_append (text : Text) {digit : UInt8} (hdigit : IsDecimalDigit digit)
    (hroom : (readDigits text).toNat < 10 ^ 15) :
    (readDigits (text ++ [digit])).toNat = (readDigits text).toNat * 10 + (digit.toNat - 48) := by
  have hzero : '0'.toNat = 48 := rfl
  have hten : (10 : UInt64).toNat = 10 := rfl
  obtain ⟨hleast, hmost⟩ := hdigit.bounds
  have hvalue : (UInt64.ofInt (digit.toNat - '0'.toNat)).toNat = digit.toNat - 48 := by
    rw [UInt64.ofInt, UInt64.toNat_ofNat', hzero]
    omega
  have happend : readDigits (text ++ [digit]) =
      readDigits text * 10 + UInt64.ofInt (digit.toNat - '0'.toNat) := by
    rw [readDigits, List.foldl_append]
    rfl
  rw [happend, UInt64.toNat_add, UInt64.toNat_mul, hten, hvalue]
  omega

/-- A decimal text is the one of the number that is read.

Assumes: there are at most 15 digits. -/
theorem decimalText_readDigits {text : Text} (hdigits : ∀ digit ∈ text, IsDecimalDigit digit)
    (hlength : text.length ≤ 15) :
    (readDigits text).toNat < 10 ^ text.length ∧
      decimalText text.length (readDigits text).toNat = text := by
  induction text using List.reverseRecOn with
  | nil => exact ⟨Nat.one_pos, rfl⟩
  | append_singleton text digit ih =>
    rw [List.length_append, List.length_singleton] at hlength ⊢
    rw [List.forall_mem_append, List.forall_mem_singleton] at hdigits
    obtain ⟨hdigits, hdigit⟩ := hdigits
    obtain ⟨hsmall, hwritten⟩ := ih hdigits (by omega)
    obtain ⟨hleast, hmost⟩ := hdigit.bounds
    have hroom : (readDigits text).toNat < 10 ^ 15 :=
      hsmall.trans_le (Nat.pow_le_pow_right (by decide) (by omega))
    rw [toNat_readDigits_append text hdigit hroom]
    constructor
    · rw [Nat.pow_succ]
      omega
    · have hlast : '0'.toUInt8 + UInt8.ofNat (digit.toNat - 48) = digit := by
        rw [← UInt8.toNat_inj, UInt8.toNat_add, UInt8.toNat_ofNat']
        have hcode : '0'.toUInt8.toNat = 48 := rfl
        omega
      have hdiv : ((readDigits text).toNat * 10 + (digit.toNat - 48)) / 10 =
          (readDigits text).toNat := by
        omega
      have hmod : ((readDigits text).toNat * 10 + (digit.toNat - 48)) % 10 =
          digit.toNat - 48 := by
        omega
      rw [decimalText, hdiv, hmod, hwritten, hlast]

/-- The number that is read from its decimal text.

Assumes: it has at most 15 digits. -/
theorem readDigits_decimalText {count number : ℕ} (hcount : count ≤ 15)
    (hnumber : number < 10 ^ count) : (readDigits (decimalText count number)).toNat = number := by
  induction count generalizing number with
  | zero =>
    rw [Nat.pow_zero] at hnumber
    obtain rfl : number = 0 := by omega
    rfl
  | succ count ih =>
    rw [Nat.pow_succ] at hnumber
    have hread := ih (by omega) (show number / 10 < 10 ^ count by omega)
    have hpower : 10 ^ count ≤ 10 ^ 15 := Nat.pow_le_pow_right (by decide) (by omega)
    have hcode : '0'.toUInt8.toNat = 48 := rfl
    have hlast : ('0'.toUInt8 + UInt8.ofNat (number % 10)).toNat = 48 + number % 10 := by
      rw [UInt8.toNat_add, UInt8.toNat_ofNat', hcode]
      omega
    have hdigit : IsDecimalDigit ('0'.toUInt8 + UInt8.ofNat (number % 10)) := by
      have hnine : '9'.toUInt8.toNat = 57 := rfl
      rw [IsDecimalDigit, UInt8.le_iff_toNat_le, UInt8.le_iff_toNat_le, hlast]
      omega
    rw [decimalText, toNat_readDigits_append _ hdigit (by omega), hread, hlast]
    omega

/-- An identity is read as a number exactly if its text is the one of the number.

Assumes: the text has 15 digits. -/
theorem readDigits_eq_iff {text : Text} (hdigits : ∀ digit ∈ text, IsDecimalDigit digit)
    (hlength : text.length = 15) {number : ℕ} (hnumber : number < 10 ^ 15) :
    (readDigits text).toNat = number ↔ text = decimalText 15 number := by
  obtain ⟨-, hwritten⟩ := decimalText_readDigits hdigits hlength.le
  rw [hlength] at hwritten
  constructor
  · rintro rfl
    exact hwritten.symm
  · rintro rfl
    exact readDigits_decimalText le_rfl hnumber

end Disguise.Authentication.Ue
