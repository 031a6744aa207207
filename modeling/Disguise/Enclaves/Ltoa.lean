import Disguise.Authentication.EnclaveEntry
import Disguise.Numeral.Decimal
import Mathlib.Data.List.GetD
import Mathlib.Data.List.Induction

/-!
# Numbers written by the enclaves

`ltoa`, which both enclaves have and which writes the decimal text of a `long` into a buffer of the
caller: the digits from the last one on, the sign, a null character, and then the characters before
it are exchanged from the outside in. The buffer is a block of any length, and an access outside it
stops the process.

There are two levels. `Authentication.Enclave.ltoa` computes with texts; its loops append and
exchange characters, and its result is the decimal text for every integer (`ltoa_eq_repr`). `ltoa`
here computes with bytes in the buffer and with 64-bit numbers, and each of its loops does to the
buffer what the other does to the text in it (`digitLoop_eq`, `exchangeLoop_eq`). So it writes the
decimal text of its number and a null character, at most 21 bytes, and nothing else
(`ltoa_writes_decimal`).

Not modelled: what `-num` is for the least `long`, for which the C standard says nothing. It wraps
here.
-/

set_option autoImplicit false
set_option relaxedAutoImplicit false

namespace Disguise.Enclaves

open Memory Numeral Process Process.Proc
open Authentication.Enclave (Elapsed elapsed elapsed_stampOf gettimeofday gettimeofday_eq
  swapBetween totalUsec writeDigits)

/-! ### The digits and their exchange -/

/-- The first loop writes one more character for every digit of its number. -/
theorem writeDigits_eq (str : List Char) (num : ℕ) :
    writeDigits str num = str ++ reversedDigits num := by
  fun_induction writeDigits str num with
  | case1 str num hnum ih =>
    have hchar : Char.ofNat (num % 10 + 48) = Nat.digitChar (num % 10) := by
      have hcode := Nat.toNat_digitChar_of_lt_ten (Nat.mod_lt num (by decide : 0 < 10))
      rw [Nat.add_comm, ← hcode, Char.ofNat_toNat]
    rw [ih, hchar, reversedDigits_cons hnum, List.append_assoc]
    rfl
  | case2 str num hnum =>
    have hzero : num = 0 := by omega
    rw [reversedDigits, if_pos hzero, List.append_nil]

/-- The second loop reverses the characters between its two places.

The induction takes one character from either end, which is what a turn of the loop exchanges. -/
theorem swapBetween_eq (between before behind : List Char) :
    swapBetween (before ++ between ++ behind) before.length
        (before.length + between.length - 1) = before ++ between.reverse ++ behind := by
  induction between using List.bidirectionalRec generalizing before behind with
  | nil =>
    rw [swapBetween, if_neg (by rw [List.length_nil]; omega)]
    rfl
  | singleton character =>
    rw [swapBetween, if_neg (by rw [List.length_singleton]; omega)]
    rfl
  | cons_append first between last ih =>
    have hlength : (first :: (between ++ [last])).length = between.length + 2 := by
      rw [List.length_cons, List.length_append, List.length_singleton]
    have hturn : ((before ++ first :: (between ++ [last]) ++ behind).set before.length
        ((before ++ first :: (between ++ [last]) ++ behind).getD
          (before.length + (between.length + 1)) '0')).set (before.length + (between.length + 1))
        ((before ++ first :: (between ++ [last]) ++ behind).getD before.length '0') =
        before ++ [last] ++ between ++ first :: behind := by
      simp
    rw [swapBetween, if_pos (by omega), hlength, Nat.add_succ_sub_one, hturn]
    have hrest := ih (before ++ [last]) (first :: behind)
    rw [List.length_append, List.length_singleton] at hrest
    have hstop : before.length + (between.length + 1) - 1 =
        before.length + 1 + between.length - 1 := by omega
    rw [hstop, hrest]
    simp

/-- The loop over a whole text reverses it. -/
theorem swapBetween_all (text : List Char) :
    swapBetween text 0 (text.length - 1) = text.reverse := by
  have hwhole := swapBetween_eq text [] []
  simpa using hwhole

/-- The text that is printed for a number is the decimal text of the number. -/
theorem ltoa_eq_repr (num : ℤ) : Authentication.Enclave.ltoa num = num.repr := by
  rw [Authentication.Enclave.ltoa]
  by_cases hnum : num = 0
  · rw [if_pos hnum, hnum]
    rfl
  · have htext : (if num < 0 then writeDigits [] num.natAbs ++ ['-']
        else writeDigits [] num.natAbs) = reversedText num := by
      rw [writeDigits_eq, List.nil_append, reversedText]
    dsimp only
    rw [if_neg hnum, htext, swapBetween_all, reverse_reversedText hnum, String.ofList_toList]

/-! ### The buffer -/

section Buffer

variable {M O ε : Type} [Fault ε]

theorem natAbs_toInt_div_ten (num : Int64) :
    (num / 10).toInt.natAbs = num.toInt.natAbs / 10 := by
  rw [Int64.toInt_div_of_ne_right num 10 (by decide), Int.natAbs_tdiv]
  rfl

/-- A number divided by ten is nearer to zero. -/
theorem natAbs_div_ten_lt {num : Int64} (hnum : num ≠ 0) :
    (num / 10).toInt.natAbs < num.toInt.natAbs := by
  have hzero : num.toInt ≠ 0 := fun hzero ↦ hnum (Int64.toInt_inj.mp hzero)
  rw [natAbs_toInt_div_ten]
  exact Nat.div_lt_self (by omega) (by decide)

/-- The loop of `ltoa` that writes the digits, and the index it ends at. -/
def digitLoop (num : Int64) (str : List UInt8) (i : ℕ) : Proc M O ε (List UInt8 × ℕ) :=
  if num ≠ 0 then do
    let str ← store str i [(num % 10 + 48).toUInt64.toUInt8]
    digitLoop (num / 10) str (i + 1)
  else
    return (str, i)
termination_by num.toInt.natAbs
decreasing_by exact natAbs_div_ten_lt ‹_›

/-- The loop of `ltoa` that exchanges the characters from `start` to `stop`. -/
def exchangeLoop (str : List UInt8) (start stop : ℕ) : Proc M O ε (List UInt8) :=
  if start < stop then do
    let temp ← load str start 1
    let last ← load str stop 1
    let str ← store str start last
    let str ← store str stop temp
    exchangeLoop str (start + 1) (stop - 1)
  else
    return str
termination_by stop - start

/-- `ltoa`: the contents of the buffer afterwards. `-num` wraps for the least number, for which the
standard says nothing. -/
def ltoa (num : Int64) (str : List UInt8) : Proc M O ε (List UInt8) := do
  let isNegative := decide (num < 0)
  let num := if isNegative then -num else num
  if num = 0 then
    let str ← store str 0 [48]
    store str 1 [0]
  else
    let (str, i) ← digitLoop num str 0
    let (str, i) ←
      if isNegative then do
        let str ← store str i [45]
        pure (str, i + 1)
      else
        pure (str, i)
    let str ← store str i [0]
    exchangeLoop str 0 (i - 1)

/-- The bytes of a text. -/
def textBytes (text : List Char) : List UInt8 := text.map Char.toUInt8

/-- A text as the code keeps it, with a null character behind it. -/
def cString (text : String) : List UInt8 := textBytes text.toList ++ [0]

@[simp] theorem length_textBytes (text : List Char) : (textBytes text).length = text.length :=
  List.length_map Char.toUInt8

/-- The text of a `long` and its null character are at most 21 bytes. -/
theorem length_cString_repr_le {num : ℤ} (hlow : -2 ^ 63 < num) (hhigh : num < 2 ^ 63) :
    (cString num.repr).length ≤ 21 := by
  have hlength := length_repr_le hlow hhigh
  rw [cString, List.length_append, length_textBytes, List.length_singleton]
  omega

/-- A character written behind a text is the next character of the text. -/
theorem store_character (text : List Char) (character : Char) {rest : List UInt8}
    (hroom : 0 < rest.length) :
    (store (textBytes text ++ rest) text.length [character.toUInt8] : Proc M O ε (List UInt8)) =
      done (textBytes (text ++ [character]) ++ rest.drop 1) := by
  rw [store_append (length_textBytes text) (by rw [List.length_singleton]; omega), textBytes,
    textBytes, List.map_append]
  rfl

/-- A null character written behind a text. -/
theorem store_null (text : List Char) {rest : List UInt8} (hroom : 0 < rest.length) :
    (store (textBytes text ++ rest) text.length [0] : Proc M O ε (List UInt8)) =
      done (textBytes text ++ ([0] ++ rest.drop 1)) := by
  rw [store_append (length_textBytes text) (by rw [List.length_singleton]; omega),
    List.append_assoc]
  rfl

/-- A buffer that begins with a text and a null character behind it. -/
theorem overwrite_cString (text : String) (str : List UInt8) :
    overwrite str 0 (cString text) =
      textBytes text.toList ++ ([0] ++ (str.drop text.toList.length).drop 1) := by
  rw [overwrite_zero, cString, List.length_append, length_textBytes, List.length_singleton,
    List.drop_drop, List.append_assoc]

theorem load_character (text : List Char) (rest : List UInt8) {place : ℕ}
    (hplace : place < text.length) :
    (load (textBytes text ++ rest) place 1 : Proc M O ε (List UInt8)) =
      done [(text.getD place '0').toUInt8] := by
  have hbytes : place < (textBytes text).length := by rwa [length_textBytes]
  rw [load_eq (by rw [List.length_append]; omega), window_append_left (by omega),
    window_one hbytes '0'.toUInt8, textBytes, List.getD_map]

/-- A character written over one of a text. -/
theorem set_character (text : List Char) (character : Char) (rest : List UInt8) {place : ℕ}
    (hplace : place < text.length) :
    (store (textBytes text ++ rest) place [character.toUInt8] : Proc M O ε (List UInt8)) =
      done (textBytes (text.set place character) ++ rest) := by
  have hbytes : place < (textBytes text).length := by rwa [length_textBytes]
  have hblock : place < (textBytes text ++ rest).length := by
    rw [List.length_append]
    omega
  rw [store_eq (by rw [List.length_singleton]; omega), overwrite_singleton hblock,
    List.set_append_left _ _ hbytes, textBytes, textBytes, List.map_set]

/-- The byte of the character of a digit. -/
theorem toUInt8_digit :
    ∀ digit < 10, (Char.ofNat (digit + 48)).toUInt8 = UInt8.ofNat (digit + 48) := by
  decide

/-- The character a turn of the digit loop writes. -/
theorem digit_byte {num : Int64} (hnum : 0 ≤ num.toInt) :
    (num % 10 + 48).toUInt64.toUInt8 =
      (Char.ofNat (num.toInt.natAbs % 10 + 48)).toUInt8 := by
  have hremainder : (num % 10).toInt = (num.toInt.natAbs % 10 : ℕ) := by
    rw [Int64.toInt_mod]
    have hten : (10 : Int64).toInt = 10 := rfl
    rw [hten, Int.tmod_eq_emod_of_nonneg hnum]
    omega
  have hcode : num % 10 + 48 = Int64.ofNat (num.toInt.natAbs % 10 + 48) := by
    have hzero : (48 : Int64).toInt = 48 := rfl
    rw [← Int64.toInt_inj, Int64.toInt_ofNat_of_lt (by omega), Int64.toInt_add, hremainder, hzero]
    exact Int.bmod_eq_of_le (by omega) (by omega)
  rw [hcode, Int64.toUInt64_ofNat', UInt64.toUInt8_ofNat',
    toUInt8_digit _ (Nat.mod_lt _ (by decide))]

/-- The digit loop does to the buffer what its model does to the text in it.

Assumes: the number is not negative, and the buffer has room for its digits. -/
theorem digitLoop_eq {num : Int64} (hnum : 0 ≤ num.toInt) (chars : List Char) {rest : List UInt8}
    (hroom : (reversedDigits num.toInt.natAbs).length ≤ rest.length) :
    (digitLoop num (textBytes chars ++ rest) chars.length : Proc M O ε (List UInt8 × ℕ)) =
      done (textBytes (writeDigits chars num.toInt.natAbs) ++
        rest.drop (reversedDigits num.toInt.natAbs).length,
        (writeDigits chars num.toInt.natAbs).length) := by
  induction hmagnitude : num.toInt.natAbs using Nat.strongRecOn generalizing num chars rest with
  | ind magnitude ih =>
    by_cases hzero : num = 0
    · have hnone : magnitude = 0 := by
        rw [← hmagnitude, hzero]
        rfl
      rw [digitLoop, writeDigits, if_neg (not_not.mpr hzero), if_neg (not_not.mpr hnone), hnone]
      rfl
    · have hsmaller := natAbs_div_ten_lt hzero
      have hpositive : 0 ≤ (num / 10).toInt := by
        rw [Int64.toInt_div_of_ne_right num 10 (by decide)]
        exact Int.tdiv_nonneg hnum (by decide)
      have hquotient : (num / 10).toInt.natAbs = magnitude / 10 := by
        rw [natAbs_toInt_div_ten, hmagnitude]
      have hmagnitude_ne : magnitude ≠ 0 := by omega
      rw [hmagnitude, reversedDigits_cons hmagnitude_ne, List.length_cons] at hroom
      -- The digit is written behind the characters, and the loop goes on with the quotient.
      have hwrites : (store (textBytes chars ++ rest) chars.length
          [(num % 10 + 48).toUInt64.toUInt8] : Proc M O ε (List UInt8)) =
          done (textBytes (chars ++ [Char.ofNat (magnitude % 10 + 48)]) ++ rest.drop 1) := by
        rw [digit_byte hnum, hmagnitude, store_character chars _ (by omega)]
      have hroomLeft : (reversedDigits (num / 10).toInt.natAbs).length ≤ (rest.drop 1).length := by
        rw [hquotient, List.length_drop]
        omega
      have hrest := ih (magnitude / 10) (by omega) hpositive
        (chars ++ [Char.ofNat (magnitude % 10 + 48)]) hroomLeft hquotient
      rw [List.length_append, List.length_singleton, List.drop_drop, Nat.add_comm 1] at hrest
      have hturn : writeDigits chars magnitude =
          writeDigits (chars ++ [Char.ofNat (magnitude % 10 + 48)]) (magnitude / 10) := by
        conv_lhs => rw [writeDigits, if_pos hmagnitude_ne]
      rw [digitLoop, if_pos hzero, hwrites, done_bind, hrest, hturn,
        reversedDigits_cons hmagnitude_ne, List.length_cons]

/-- The exchange loop does to the buffer what its model does to the text in it.

Assumes: both places are in the text. -/
theorem exchangeLoop_eq (text : List Char) (rest : List UInt8) {start stop : ℕ}
    (hstop : stop < text.length) :
    (exchangeLoop (textBytes text ++ rest) start stop : Proc M O ε (List UInt8)) =
      done (textBytes (swapBetween text start stop) ++ rest) := by
  fun_induction swapBetween text start stop with
  | case1 text start stop hlt ih =>
    rw [List.length_set, List.length_set] at ih
    rw [exchangeLoop, if_pos hlt, load_character text rest (by omega), done_bind,
      load_character text rest hstop, done_bind, set_character text _ rest (by omega), done_bind,
      set_character _ _ rest (by rw [List.length_set]; exact hstop), done_bind, ih (by omega)]
  | case2 text start stop hge =>
    rw [exchangeLoop, if_neg hge]
    rfl

/-- The number whose digits `ltoa` writes.

Assumes: the number is not the least `long`. -/
theorem toInt_magnitude {num : Int64} (hnum : -2 ^ 63 < num.toInt) :
    (if num < 0 then -num else num).toInt = num.toInt.natAbs := by
  have hzero : (0 : Int64).toInt = 0 := rfl
  by_cases hnegative : num < 0
  · have hlt := Int64.lt_iff_toInt_lt.mp hnegative
    rw [if_pos hnegative, Int64.toInt_neg, Int.bmod_eq_of_le (by omega) (by omega)]
    omega
  · have hge := mt Int64.lt_iff_toInt_lt.mpr hnegative
    rw [if_neg hnegative]
    omega

/-- The null character is written behind a text, and the text is reversed. -/
theorem finish_eq {text : List Char} (hnonempty : text ≠ []) {rest : List UInt8}
    (hroom : 0 < rest.length) :
    (store (textBytes text ++ rest) text.length [0] >>= fun str ↦
        exchangeLoop str 0 (text.length - 1) : Proc M O ε (List UInt8)) =
      done (textBytes text.reverse ++ ([0] ++ rest.drop 1)) := by
  have hlength := List.length_pos_iff.mpr hnonempty
  rw [store_null text hroom, done_bind, exchangeLoop_eq text _ (by omega), swapBetween_all]

/-- The digits of a number in an empty buffer, and the index behind them.

Assumes: the buffer has room for them. -/
theorem digitLoop_start {magnitude : Int64} {num : ℕ} (hmagnitude : magnitude.toInt = num)
    {str : List UInt8} (hroom : (reversedDigits num).length ≤ str.length) :
    (digitLoop magnitude str 0 : Proc M O ε (List UInt8 × ℕ)) =
      done (textBytes (reversedDigits num) ++ str.drop (reversedDigits num).length,
        (reversedDigits num).length) := by
  have habs : magnitude.toInt.natAbs = num := by omega
  have hloop : (digitLoop magnitude (textBytes [] ++ str) 0 : Proc M O ε (List UInt8 × ℕ)) = _ :=
    digitLoop_eq (by omega) [] (by rwa [habs])
  rw [habs, writeDigits_eq] at hloop
  exact hloop

/-- The sign of a negative number, written behind its digits. -/
theorem store_sign {num : ℤ} (hnegative : num < 0) {str : List UInt8}
    (hroom : (reversedText num).length ≤ str.length) :
    (store (textBytes (reversedDigits num.natAbs) ++ str.drop (reversedDigits num.natAbs).length)
        (reversedDigits num.natAbs).length [45] : Proc M O ε (List UInt8)) =
      done (textBytes (reversedText num) ++ str.drop (reversedText num).length) := by
  have hindex := length_reversedText_of_neg hnegative
  rw [hindex, ← List.drop_drop, reversedText_of_neg hnegative]
  exact store_character _ '-' (by rw [List.length_drop]; omega)

/-- `ltoa` of zero. -/
theorem ltoa_zero {str : List UInt8} (hroom : 2 ≤ str.length) :
    (ltoa 0 str : Proc M O ε (List UInt8)) = done (overwrite str 0 (cString (0 : ℤ).repr)) := by
  have hrepr : (0 : ℤ).repr.toList = ['0'] := rfl
  have hdigit : (store str 0 [48] : Proc M O ε (List UInt8)) =
      done (textBytes ['0'] ++ str.drop 1) := store_character [] '0' (by omega)
  have hnull : (store (textBytes ['0'] ++ str.drop 1) 1 [0] : Proc M O ε (List UInt8)) =
      done (textBytes ['0'] ++ ([0] ++ (str.drop 1).drop 1)) :=
    store_null ['0'] (by rw [List.length_drop]; omega)
  rw [overwrite_cString, hrepr, List.length_singleton, ← hnull, ltoa]
  dsimp only
  rw [if_pos (by decide), hdigit, done_bind]

/-- `ltoa` writes the text of its number and a null character to the start of its buffer, and
nothing else.

Assumes: the number is not the least `long`, and the buffer has room for the text. -/
theorem ltoa_eq {num : Int64} (hnum : -2 ^ 63 < num.toInt) {str : List UInt8}
    (hroom : (cString num.toInt.repr).length ≤ str.length) :
    (ltoa num str : Proc M O ε (List UInt8)) = done (overwrite str 0 (cString num.toInt.repr)) := by
  rw [cString, List.length_append, length_textBytes, List.length_singleton] at hroom
  have hpositive := List.length_pos_iff.mpr (toList_repr_ne_nil num.toInt)
  by_cases hzero : num = 0
  · rw [hzero]
    exact ltoa_zero (by omega)
  have hnonzero : num.toInt ≠ 0 := fun hnone ↦ hzero (Int64.toInt_inj.mp hnone)
  have hlength := length_reversedText hnonzero
  have hnonempty : reversedText num.toInt ≠ [] := List.length_pos_iff.mp (by omega)
  have hmagnitude := toInt_magnitude hnum
  rw [ltoa, overwrite_cString, ← reverse_reversedText hnonzero, List.length_reverse]
  simp only [decide_eq_true_eq]
  generalize (if num < 0 then -num else num) = magnitude at hmagnitude ⊢
  have hmagnitude_ne : magnitude ≠ 0 := by
    rintro rfl
    have hnone : (0 : Int64).toInt = 0 := rfl
    omega
  rw [if_neg hmagnitude_ne]
  by_cases hnegative : num < 0
  · have hlt : num.toInt < 0 := Int64.lt_iff_toInt_lt.mp hnegative
    have hindex := length_reversedText_of_neg hlt
    rw [digitLoop_start hmagnitude (by omega), done_bind]
    dsimp only [pure_eq, done_bind]
    rw [if_pos hnegative, store_sign hlt (by omega), done_bind, ← hindex]
    exact finish_eq hnonempty (by rw [List.length_drop]; omega)
  · have hreversed : reversedText num.toInt = reversedDigits num.toInt.natAbs :=
      reversedText_of_nonneg (not_lt.mp fun hlt ↦ hnegative (Int64.lt_iff_toInt_lt.mpr hlt))
    rw [digitLoop_start hmagnitude (by rw [← hreversed]; omega), ← hreversed, done_bind]
    dsimp only [pure_eq, done_bind]
    rw [if_neg hnegative]
    exact finish_eq hnonempty (by rw [List.length_drop]; omega)

/-! ### What the callers print -/

/-- The numbers that are printed of a time. -/
def numbers (delay : Elapsed) : List ℤ := [delay.seconds, delay.microseconds, delay.milliseconds]

/-- The numbers the enclaves print are within the range of `ltoa`. -/
theorem elapsed_isLong (startCycles endCycles : UInt64) :
    ∀ number ∈ numbers (elapsed (gettimeofday startCycles) (gettimeofday endCycles)),
      -2 ^ 63 < number ∧ number < 2 ^ 63 := by
  have hfirst : totalUsec startCycles < 2 ^ 40 := by
    rw [totalUsec]
    omega
  have hsecond : totalUsec endCycles < 2 ^ 40 := by
    rw [totalUsec]
    omega
  obtain ⟨hleast, hmost, htotal, hmilliseconds⟩ :=
    elapsed_stampOf (totalUsec startCycles) (totalUsec endCycles)
  rw [← gettimeofday_eq, ← gettimeofday_eq] at hleast hmost htotal hmilliseconds
  intro number hnumber
  simp only [numbers, List.mem_cons, List.not_mem_nil, or_false] at hnumber
  rcases hnumber with rfl | rfl | rfl <;> omega

/-- What the enclaves print of a time is what `ltoa` leaves in their buffer of 100 bytes. -/
theorem ltoa_elapsed (startCycles endCycles : UInt64) {debug : List UInt8}
    (hdebug : debug.length = 100) :
    ∀ number ∈ numbers (elapsed (gettimeofday startCycles) (gettimeofday endCycles)),
      (ltoa (Int64.ofInt number) debug : Proc M O ε (List UInt8)) =
        done (overwrite debug 0 (cString (Authentication.Enclave.ltoa number))) := by
  intro number hnumber
  obtain ⟨hlow, hhigh⟩ := elapsed_isLong startCycles endCycles number hnumber
  have hlong : (Int64.ofInt number).toInt = number := by
    rw [Int64.toInt_ofInt]
    exact Int.bmod_eq_of_le (by simp only [Int64.size]; omega) (by simp only [Int64.size]; omega)
  have hlength := length_cString_repr_le hlow hhigh
  have hwrites : (ltoa (Int64.ofInt number) debug : Proc M O ε (List UInt8)) =
      done (overwrite debug 0 (cString (Int64.ofInt number).toInt.repr)) :=
    ltoa_eq (by omega) (by rw [hlong]; omega)
  rw [hwrites, hlong, ltoa_eq_repr]

/-- For every number but the least `long`, `ltoa` writes its decimal text and one null character
behind it, at most 21 bytes, to the start of every buffer that has room for them, and leaves the
rest of the buffer as it is. The numbers the enclaves print of a time are such numbers. -/
theorem ltoa_writes_decimal :
    (∀ num : Int64, -2 ^ 63 < num.toInt →
      DecimalText num.toInt num.toInt.repr.toList ∧ (cString num.toInt.repr).length ≤ 21 ∧
        ∀ str : List UInt8, (cString num.toInt.repr).length ≤ str.length →
          (ltoa num str : Proc M O ε (List UInt8)) =
            done (overwrite str 0 (cString num.toInt.repr))) ∧
      ∀ startCycles endCycles,
        ∀ number ∈ numbers (elapsed (gettimeofday startCycles) (gettimeofday endCycles)),
          -2 ^ 63 < number ∧ number < 2 ^ 63 :=
  ⟨fun num hnum ↦ ⟨decimalText_repr num.toInt, length_cString_repr_le hnum num.toInt_lt,
    fun _ hroom ↦ ltoa_eq hnum hroom⟩, elapsed_isLong⟩

/-- A negative number of an even number of characters. -/
theorem ltoa_writes_decimal_negative :
    DecimalText (-120) ['-', '1', '2', '0'] ∧ (cString "-120").length ≤ 21 ∧
      ∀ str : List UInt8, (cString "-120").length ≤ str.length →
        (ltoa (-120) str : Proc Unit Unit Authentication.Enclave.Stop (List UInt8)) =
          done (overwrite str 0 (cString "-120")) :=
  ltoa_writes_decimal.1 (-120) (by decide)

end Buffer

end Disguise.Enclaves
