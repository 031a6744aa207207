import Disguise.Provisioning.Hex

/-!
# What the hexadecimal decoder accepts

`bytesToHex` is undone by `hexToBytes` for every byte string. The other way round the decoder is
more permissive than its purpose. It hands two characters at a time to `std::stoi`, and the last one
alone when their number is odd; `std::stoi` reads white space or a sign in front of a digit, and
stops behind the first digit when the second character is not one (`stoi16_pair_isSome_iff`,
`stoi16_single_isSome_iff`). A text of pairs of digits is decoded to the bytes it spells, a text
with a part that `std::stoi` refuses is refused, and every other text is accepted although it is not
hexadecimal (`hex_codec_iff`).
-/

set_option autoImplicit false
set_option relaxedAutoImplicit false

namespace Disguise.Provisioning

/-! ### Digits -/

/-- A hexadecimal digit of either case. -/
def IsDigit (character : Char) : Prop := (digitValue character).isSome = true

instance (character : Char) : Decidable (IsDigit character) :=
  inferInstanceAs (Decidable (_ = true))

/-- A character with a value is ASCII. -/
theorem toNat_lt_of_digitValue {character : Char} {value : ℕ}
    (hvalue : digitValue character = some value) : character.toNat < 128 := by
  unfold digitValue at hvalue
  split_ifs at hvalue with hdecimal hlower hupper
  · exact Nat.lt_of_le_of_lt hdecimal.2 (by decide)
  · exact Nat.lt_of_le_of_lt hlower.2 (by decide)
  · exact Nat.lt_of_le_of_lt hupper.2 (by decide)

/-- What is true of the digits, checked one after the other: the value is below 16 and written as
the digit in lower case, and no digit is white space or a sign. -/
theorem digit_facts {character : Char} {value : ℕ} (hvalue : digitValue character = some value) :
    value < 16 ∧ hexDigit value = character.toLower ∧ isSpace character = false ∧
      character ≠ '-' ∧ character ≠ '+' := by
  have hall : ∀ code : Fin 128, (digitValue (Char.ofNat code)).all fun value ↦
      decide (value < 16 ∧ hexDigit value = (Char.ofNat code).toLower ∧
        isSpace (Char.ofNat code) = false ∧ Char.ofNat code ≠ '-' ∧ Char.ofNat code ≠ '+') := by
    decide +kernel
  have hfacts := hall ⟨character.toNat, toNat_lt_of_digitValue hvalue⟩
  dsimp only at hfacts
  rw [Char.ofNat_toNat, hvalue] at hfacts
  exact of_decide_eq_true hfacts

/-! ### Two characters at a time -/

/-- `std::stoi` finds a digit in the two characters. -/
def Readable (first second : Char) : Prop :=
  IsDigit first ∨ (isSpace first = true ∨ first = '-' ∨ first = '+') ∧ IsDigit second

theorem takeSign_of_ne {character : Char} {rest : Text} (hminus : character ≠ '-')
    (hplus : character ≠ '+') : takeSign (character :: rest) = (1, character :: rest) := by
  unfold takeSign
  split
  · rename_i heq
    exact absurd (List.cons.inj heq).1 hminus
  · rename_i heq
    exact absurd (List.cons.inj heq).1 hplus
  · rfl

/-- A single character, or two, cannot have a `0x` prefix in front of a digit. -/
theorem dropHexPrefix_of_length_le {text : Text} (hlength : text.length ≤ 2) :
    dropHexPrefix text = text := by
  unfold dropHexPrefix
  split
  · simp only [List.length_cons] at hlength
    omega
  · rfl

theorem leadingDigits_ne_nil_iff (text : Text) :
    leadingDigits text ≠ [] ↔ ∃ first rest, text = first :: rest ∧ IsDigit first := by
  cases text with
  | nil => simp [leadingDigits]
  | cons first rest =>
    cases hvalue : digitValue first with
    | none => simp [leadingDigits, IsDigit, hvalue]
    | some value => simp [leadingDigits, IsDigit, hvalue]

theorem length_takeSign_le (text : Text) : (takeSign text).2.length ≤ text.length := by
  unfold takeSign
  split <;> simp

/-- `std::stoi` reads one or two characters exactly if a digit follows the white space and the
sign. -/
theorem stoi16_isSome_iff {text : Text} (hlength : text.length ≤ 2) :
    (stoi16 text).isSome = true ↔
      ∃ first rest, (takeSign (text.dropWhile isSpace)).2 = first :: rest ∧ IsDigit first := by
  have hshort : (takeSign (text.dropWhile isSpace)).2.length ≤ 2 :=
    Nat.le_trans (length_takeSign_le _)
      (Nat.le_trans (List.dropWhile_sublist isSpace).length_le hlength)
  rw [← leadingDigits_ne_nil_iff, stoi16]
  rw [dropHexPrefix_of_length_le hshort]
  cases leadingDigits (takeSign (text.dropWhile isSpace)).2 with
  | nil => simp
  | cons digit digits => simp

theorem IsDigit.facts {character : Char} (hdigit : IsDigit character) :
    isSpace character = false ∧ character ≠ '-' ∧ character ≠ '+' := by
  obtain ⟨value, hvalue⟩ := Option.isSome_iff_exists.mp hdigit
  exact (digit_facts hvalue).2.2

/-- The sign of a text is split off, and anything else is left. -/
theorem takeSign_cons (first : Char) (rest : Text) :
    (takeSign (first :: rest)).2 = if first = '-' ∨ first = '+' then rest else first :: rest := by
  by_cases hsign : first = '-' ∨ first = '+'
  · rw [if_pos hsign]
    rcases hsign with rfl | rfl <;> rfl
  · rw [if_neg hsign, takeSign_of_ne (fun hminus ↦ hsign (Or.inl hminus))
      fun hplus ↦ hsign (Or.inr hplus)]

/-- A single character is read if it is a digit. -/
theorem stoi16_single_isSome_iff (last : Char) : (stoi16 [last]).isSome = true ↔ IsDigit last := by
  rw [stoi16_isSome_iff (by simp)]
  cases hspace : isSpace last with
  | true =>
    refine iff_of_false ?_ fun hdigit ↦ ?_
    · rw [List.dropWhile_cons_of_pos hspace]
      rintro ⟨first, rest, htext, -⟩
      cases htext
    · rw [hdigit.facts.1] at hspace
      cases hspace
  | false =>
    rw [List.dropWhile_cons_of_neg (by rw [hspace]; exact Bool.false_ne_true), takeSign_cons]
    split_ifs with hsign
    · refine iff_of_false ?_ fun hdigit ↦ hsign.elim hdigit.facts.2.1 hdigit.facts.2.2
      rintro ⟨first, rest, htext, -⟩
      cases htext
    · constructor
      · rintro ⟨first, rest, htext, hdigit⟩
        exact (List.cons.inj htext).1 ▸ hdigit
      · exact fun hdigit ↦ ⟨last, [], rfl, hdigit⟩

/-- Two characters are read if the first is a digit, or white space or a sign in front of one. -/
theorem stoi16_pair_isSome_iff (first second : Char) :
    (stoi16 [first, second]).isSome = true ↔ Readable first second := by
  by_cases hdigit : IsDigit first
  · obtain ⟨hspace, hminus, hplus⟩ := hdigit.facts
    refine iff_of_true ?_ (Or.inl hdigit)
    rw [stoi16_isSome_iff (by simp), List.dropWhile_cons_of_neg (by rw [hspace]; exact
      Bool.false_ne_true), takeSign_cons, if_neg (by rw [not_or]; exact ⟨hminus, hplus⟩)]
    exact ⟨first, [second], rfl, hdigit⟩
  · rw [Readable, or_iff_right hdigit]
    cases hspace : isSpace first with
    | true =>
      -- white space is skipped, and the second character stands alone
      have hskip : (stoi16 [first, second]).isSome = (stoi16 [second]).isSome := by
        rw [stoi16, List.dropWhile_cons_of_pos hspace, ← stoi16]
      rw [hskip, stoi16_single_isSome_iff]
      exact (and_iff_right (Or.inl rfl)).symm
    | false =>
      rw [stoi16_isSome_iff (by simp), List.dropWhile_cons_of_neg (by rw [hspace]; exact
        Bool.false_ne_true), takeSign_cons]
      split_ifs with hsign
      · constructor
        · rintro ⟨head, rest, htext, hhead⟩
          exact ⟨Or.inr hsign, (List.cons.inj htext).1 ▸ hhead⟩
        · rintro ⟨-, hsecond⟩
          exact ⟨second, [], rfl, hsecond⟩
      · refine iff_of_false ?_ fun hreadable ↦ ?_
        · rintro ⟨head, rest, htext, hhead⟩
          exact hdigit ((List.cons.inj htext).1 ▸ hhead)
        · rcases hreadable.1 with hfalse | hsigned
          · cases hfalse
          · exact hsign hsigned

/-- A text that starts with a digit, without white space or a sign before it. -/
theorem stoi16_of_digit {first : Char} {rest : Text} {value : ℕ} (hlength : rest.length ≤ 1)
    (hvalue : digitValue first = some value) :
    stoi16 (first :: rest) = some (Int.ofNat ((leadingDigits rest).foldl
      (fun value digit ↦ 16 * value + digit) value)) := by
  obtain ⟨-, -, hspace, hminus, hplus⟩ := digit_facts hvalue
  have htext : (first :: rest).dropWhile isSpace = first :: rest := by
    rw [List.dropWhile_cons_of_neg (by rw [hspace]; exact Bool.false_ne_true)]
  have hshort : (first :: rest).length ≤ 2 := by
    rw [List.length_cons]
    omega
  unfold stoi16
  dsimp only
  rw [htext, takeSign_of_ne hminus hplus]
  dsimp only
  rw [dropHexPrefix_of_length_le hshort, leadingDigits, hvalue]
  simp

/-- Two digits are read as the byte they spell, which is written as these digits in lower case. -/
theorem stoi16_pair_of_digits {first second : Char} {high low : ℕ}
    (hhigh : digitValue first = some high) (hlow : digitValue second = some low) :
    stoi16 [first, second] = some (Int.ofNat (16 * high + low)) ∧
      byteToHex (toByte (Int.ofNat (16 * high + low))) = [first.toLower, second.toLower] := by
  obtain ⟨hhighLt, hfirst, -⟩ := digit_facts hhigh
  obtain ⟨hlowLt, hsecond, -⟩ := digit_facts hlow
  have hbyte : (toByte (Int.ofNat (16 * high + low))).toNat = 16 * high + low := by
    have hvalue : (Int.ofNat (16 * high + low) % 256).toNat = 16 * high + low := by
      simp only [Int.ofNat_eq_natCast]
      omega
    rw [toByte, hvalue]
    exact UInt8.toNat_ofNat_of_lt (Nat.lt_of_le_of_lt (by omega) (by decide : 255 < UInt8.size))
  have hdiv : (16 * high + low) / 16 = high := by omega
  have hmod : (16 * high + low) % 16 = low := by omega
  refine ⟨?_, ?_⟩
  · rw [stoi16_of_digit (by simp) hhigh, leadingDigits, hlow]
    rfl
  · rw [byteToHex, hbyte, hdiv, hmod, hfirst, hsecond]

/-! ### Whole texts -/

/-- A text is an even number of hexadecimal digits. -/
def Hexadecimal (text : Text) : Prop :=
  text.length % 2 = 0 ∧ ∀ character ∈ text, IsDigit character

/-- A text has a part that `std::stoi` refuses: two characters at an even place, or a last one that
stands alone. -/
def HasUnreadablePart : Text → Prop
  | [] => False
  | [last] => ¬ IsDigit last
  | first :: second :: rest => ¬ Readable first second ∨ HasUnreadablePart rest

/-- The decoder throws, or the text is hexadecimal and the bytes are written as the text in lower
case. -/
def DecodesStrictly (text : Text) : Prop :=
  hexToBytes text = none ∨
    ∃ bytes, hexToBytes text = some bytes ∧ Hexadecimal text ∧
      bytesToHex bytes = text.map Char.toLower

theorem hexadecimal_cons_cons (first second : Char) (rest : Text) :
    Hexadecimal (first :: second :: rest) ↔
      IsDigit first ∧ IsDigit second ∧ Hexadecimal rest := by
  simp only [Hexadecimal, List.length_cons, List.forall_mem_cons]
  constructor
  · rintro ⟨heven, hfirst, hsecond, hrest⟩
    exact ⟨hfirst, hsecond, by omega, hrest⟩
  · rintro ⟨hfirst, hsecond, heven, hrest⟩
    exact ⟨by omega, hfirst, hsecond, hrest⟩

/-- The decoder throws exactly at a part that `std::stoi` refuses. -/
theorem hexToBytes_eq_none_iff (text : Text) : hexToBytes text = none ↔ HasUnreadablePart text := by
  induction text using hexToBytes.induct with
  | case1 => simp [hexToBytes, HasUnreadablePart]
  | case2 last =>
    rw [hexToBytes, HasUnreadablePart, Option.map_eq_none_iff, ← stoi16_single_isSome_iff,
      Option.not_isSome_iff_eq_none]
  | case3 first second rest ih =>
    rw [hexToBytes, HasUnreadablePart, ← ih, ← stoi16_pair_isSome_iff,
      Option.not_isSome_iff_eq_none]
    cases hvalue : stoi16 [first, second] with
    | none => simp
    | some value => simp

/-- A hexadecimal text is decoded to the bytes it spells. -/
theorem hexToBytes_of_hexadecimal (text : Text) (htext : Hexadecimal text) :
    ∃ bytes, hexToBytes text = some bytes ∧ bytesToHex bytes = text.map Char.toLower := by
  induction text using hexToBytes.induct with
  | case1 => exact ⟨[], rfl, rfl⟩
  | case2 last => exact absurd htext.1 (by simp)
  | case3 first second rest ih =>
    obtain ⟨hfirst, hsecond, hrest⟩ := (hexadecimal_cons_cons first second rest).mp htext
    obtain ⟨high, hhigh⟩ := Option.isSome_iff_exists.mp hfirst
    obtain ⟨low, hlow⟩ := Option.isSome_iff_exists.mp hsecond
    obtain ⟨bytes, hbytes, hwritten⟩ := ih hrest
    obtain ⟨hread, hbyte⟩ := stoi16_pair_of_digits hhigh hlow
    refine ⟨toByte (Int.ofNat (16 * high + low)) :: bytes, ?_, ?_⟩
    · rw [hexToBytes, hread, Option.bind_some, hbytes]
      rfl
    · rw [bytesToHex, List.flatMap_cons, ← bytesToHex, hwritten, hbyte]
      rfl

/-- What was written is read back. -/
theorem hexToBytes_bytesToHex (data : Bytes) : hexToBytes (bytesToHex data) = some data := by
  induction data with
  | nil => rfl
  | cons byte rest ih =>
    have hbyte := byte.toNat_lt
    have hhighLt : byte.toNat / 16 < 16 := by omega
    have hlowLt : byte.toNat % 16 < 16 := by omega
    have hhigh := digitValue_hexDigit hhighLt
    have hlow := digitValue_hexDigit hlowLt
    obtain ⟨hread, -⟩ := stoi16_pair_of_digits hhigh hlow
    have hvalue : 16 * (byte.toNat / 16) + byte.toNat % 16 = byte.toNat := by omega
    rw [hvalue] at hread
    have hsame : toByte (Int.ofNat byte.toNat) = byte := by
      have hnat : (Int.ofNat byte.toNat % 256).toNat = byte.toNat := by
        simp only [Int.ofNat_eq_natCast]
        omega
      rw [toByte, hnat, UInt8.ofNat_toNat]
    rw [bytesToHex, List.flatMap_cons, ← bytesToHex]
    show hexToBytes
      (hexDigit (byte.toNat / 16) :: hexDigit (byte.toNat % 16) :: bytesToHex rest) = _
    rw [hexToBytes, hread, Option.bind_some, ih, hsame]
    rfl

/-- The encoder is undone by the decoder and tells byte strings apart. The decoder is strict exactly
on the texts that are hexadecimal or have a part that `std::stoi` refuses. -/
theorem hex_codec_iff (data : Bytes) (text : Text) :
    ((bytesToHex data).length = 2 * data.length ∧ hexToBytes (bytesToHex data) = some data ∧
        ∀ other, bytesToHex data = bytesToHex other → data = other) ∧
      (DecodesStrictly text ↔ Hexadecimal text ∨ HasUnreadablePart text) := by
  refine ⟨⟨length_bytesToHex data, hexToBytes_bytesToHex data, fun other ↦ bytesToHex_inj.mp⟩, ?_⟩
  rw [← hexToBytes_eq_none_iff]
  constructor
  · rintro (hnone | ⟨bytes, -, htext, -⟩)
    · exact Or.inr hnone
    · exact Or.inl htext
  · rintro (htext | hnone)
    · obtain ⟨bytes, hbytes, hwritten⟩ := hexToBytes_of_hexadecimal text htext
      exact Or.inr ⟨bytes, hbytes, htext, hwritten⟩
    · exact Or.inl hnone

/-- A text of odd length, one with a sign, one with white space and one with another character are
decoded. -/
theorem lenient_texts_decoded :
    ¬ DecodesStrictly ['a', 'b', 'c'] ∧ ¬ DecodesStrictly ['-', '1'] ∧
      ¬ DecodesStrictly [' ', '5'] ∧ ¬ DecodesStrictly ['5', 'g'] := by
  have hdecoded : ∀ text : Text, (hexToBytes text).isSome = true → ¬ Hexadecimal text →
      ¬ DecodesStrictly text := by
    rintro text hsome hnot (hnone | ⟨bytes, -, htext, -⟩)
    · rw [hnone] at hsome
      cases hsome
    · exact hnot htext
  refine ⟨hdecoded _ (by decide +kernel) ?_, hdecoded _ (by decide +kernel) ?_,
    hdecoded _ (by decide +kernel) ?_, hdecoded _ (by decide +kernel) ?_⟩
  · exact fun htext ↦ absurd htext.1 (by decide)
  · exact fun htext ↦ absurd (htext.2 '-' (by decide)) (by decide)
  · exact fun htext ↦ absurd (htext.2 ' ' (by decide)) (by decide)
  · exact fun htext ↦ absurd (htext.2 'g' (by decide)) (by decide)

end Disguise.Provisioning
