import Disguise.Authentication.AesSteps

/-!
# `aes.c` and the standard

`AES_init_ctx` and `AES_ECB_encrypt` compute the cipher of FIPS 197, and `AES_ECB_decrypt` its
inverse, for every key and every block. The second loop of `KeyExpansion` produces the words of the
key schedule one by one (`Expanded`), and the loops over the rounds go through the rounds of the
cipher, up and down.
-/

set_option autoImplicit false
set_option relaxedAutoImplicit false

namespace Disguise.Authentication.Aes

open Cipher Memory
open Rijndael (State Column substitute)

/-! ### The key schedule -/

/-- Word `i` of a key schedule. -/
noncomputable def columnOf (roundKey : List UInt8) (i : ℕ) : Column :=
  fun r ↦ ofByte (roundKey.getD (4 * i + r) 0)

/-- The first words of the key schedule are there, and nothing else. -/
structure Expanded (key : Octets 16) (roundKey : List UInt8) (words : ℕ) : Prop where
  length : roundKey.length = 4 * words
  columns : ∀ i < words, columnOf roundKey i = Rijndael.word (matrixOf key) i

/-- The first loop of `KeyExpansion`. -/
theorem expanded_key (key : Octets 16) : Expanded key key.toList 4 where
  length := key.toList_length
  columns := by
    intro i hi
    ext r
    have hplace : 4 * i + (r : ℕ) < key.toList.length := by
      rw [key.toList_length]
      omega
    rw [Rijndael.word_of_lt _ hi, columnOf, List.getD_eq_getElem _ _ hplace]
    rfl

/-- What a round of the second loop combines with the word four places before. -/
def changedWord (roundKey : List UInt8) (i : ℕ) : List UInt8 :=
  let tempa (j : ℕ) := roundKey.getD ((i - 1) * 4 + j) 0
  if i % 4 = 0 then
    [getSBoxValue (tempa 1) ^^^ rcon.getD (i / 4) 0, getSBoxValue (tempa 2),
      getSBoxValue (tempa 3), getSBoxValue (tempa 0)]
  else
    [tempa 0, tempa 1, tempa 2, tempa 3]

theorem length_changedWord (roundKey : List UInt8) (i : ℕ) :
    (changedWord roundKey i).length = 4 := by
  rw [changedWord]
  split <;> rfl

theorem length_expandWord {roundKey : List UInt8} {i : ℕ} (hi : 4 ≤ i)
    (hlength : roundKey.length = 4 * i) : (expandWord roundKey i).length = 4 * (i + 1) := by
  have hword : (changedWord roundKey i).length = 4 := length_changedWord roundKey i
  have hwindow : (window roundKey ((i - 4) * 4) 4).length = 4 := length_window (by omega)
  show (roundKey ++ List.zipWith _ (window roundKey ((i - 4) * 4) 4)
    (changedWord roundKey i)).length = _
  rw [List.length_append, List.length_zipWith, hword, hwindow]
  omega

/-- The words that are there stay. -/
theorem columnOf_expandWord_of_lt {roundKey : List UInt8} {i place : ℕ}
    (hlength : roundKey.length = 4 * i) (hplace : place < i) :
    columnOf (expandWord roundKey i) place = columnOf roundKey place := by
  ext r
  exact congrArg ofByte (List.getD_append _ _ _ _ (by omega))

/-- The bytes that are new. -/
theorem getD_expandWord {roundKey : List UInt8} {i : ℕ} (hi : 4 ≤ i)
    (hlength : roundKey.length = 4 * i) (r : Fin 4) :
    (expandWord roundKey i).getD (4 * i + r) 0 =
      roundKey.getD (4 * (i - 4) + r) 0 ^^^ (changedWord roundKey i).getD r 0 := by
  have hchanged : (r : ℕ) < (changedWord roundKey i).length := by
    rw [length_changedWord]
    exact r.isLt
  have hwindow : (r : ℕ) < (window roundKey ((i - 4) * 4) 4).length := by
    rw [length_window (by omega)]
    exact r.isLt
  have hplace : 4 * (i - 4) + (r : ℕ) < roundKey.length := by omega
  have hbehind : (roundKey ++ List.zipWith (· ^^^ ·) (window roundKey ((i - 4) * 4) 4)
      (changedWord roundKey i)).getD (4 * i + r) 0 =
        (List.zipWith (· ^^^ ·) (window roundKey ((i - 4) * 4) 4)
          (changedWord roundKey i)).getD r 0 := by
    rw [List.getD_append_right _ _ _ _ (by omega), hlength, Nat.add_sub_cancel_left]
  refine hbehind.trans ?_
  rw [List.getD_eq_getElem _ _ hchanged, List.getD_eq_getElem _ _ hplace,
    List.getD_eq_getElem _ _ (by rw [List.length_zipWith]; exact lt_min hwindow hchanged),
    List.getElem_zipWith]
  simp only [window, List.getElem_take, List.getElem_drop, Nat.mul_comm]

/-- The word that is new. -/
theorem columnOf_expandWord {roundKey : List UInt8} {i : ℕ} (hi : 4 ≤ i)
    (hlength : roundKey.length = 4 * i) :
    columnOf (expandWord roundKey i) i =
      columnOf roundKey (i - 4) + fun r : Fin 4 ↦ ofByte ((changedWord roundKey i).getD r 0) := by
  ext r
  rw [columnOf, getD_expandWord hi hlength, ofByte_xor, Pi.add_apply, columnOf]

/-- The table holds the powers of `x`. -/
theorem ofByte_rcon {i : ℕ} (hpos : 0 < i) (hi : i < 11) :
    ofByte (rcon.getD i 0) = generator ^ (i - 1) := by
  have hdouble : ∀ i < 10, 0 < i → rcon.getD (i + 1) 0 = double (rcon.getD i 0) := by decide
  induction i with
  | zero => exact absurd hpos (Nat.lt_irrefl 0)
  | succ i ih =>
    by_cases hzero : i = 0
    · subst hzero
      exact ofByte_one
    · have hprevious := ih (Nat.pos_of_ne_zero hzero) (by omega)
      rw [hdouble i (by omega) (Nat.pos_of_ne_zero hzero), ofByte_double, hprevious, ← pow_succ']
      congr 1
      omega

theorem ofByte_changedWord {roundKey : List UInt8} {i : ℕ} (hi : 4 ≤ i) (hlt : i < 44) :
    (fun r : Fin 4 ↦ ofByte ((changedWord roundKey i).getD r 0)) =
      if i % 4 = 0 then
        Rijndael.subWord (Rijndael.rotWord (columnOf roundKey (i - 1))) +
          Rijndael.roundConstant (i / 4)
      else columnOf roundKey (i - 1) := by
  ext r
  by_cases hround : i % 4 = 0
  · have hrcon := ofByte_rcon (i := i / 4) (by omega) (by omega)
    rw [changedWord, if_pos hround, if_pos hround, Pi.add_apply, Rijndael.roundConstant, ← hrcon]
    simp only [Rijndael.subWord, Rijndael.rotWord, columnOf, ← ofByte_getSBoxValue,
      Nat.mul_comm 4 (i - 1)]
    fin_cases r
    · exact ofByte_xor _ _
    · exact (add_zero _).symm
    · exact (add_zero _).symm
    · exact (add_zero _).symm
  · rw [changedWord, if_neg hround, if_neg hround]
    simp only [columnOf, Nat.mul_comm 4 (i - 1)]
    fin_cases r <;> rfl

/-- A round of the second loop. -/
theorem Expanded.expandWord {key : Octets 16} {roundKey : List UInt8} {i : ℕ}
    (hexpanded : Expanded key roundKey i) (hi : 4 ≤ i) (hlt : i < 44) :
    Expanded key (expandWord roundKey i) (i + 1) where
  length := length_expandWord hi hexpanded.length
  columns := by
    intro place hplace
    by_cases hold : place < i
    · rw [columnOf_expandWord_of_lt hexpanded.length hold]
      exact hexpanded.columns place hold
    · obtain rfl : place = i := by omega
      rw [columnOf_expandWord hi hexpanded.length, ofByte_changedWord hi hlt,
        hexpanded.columns (place - 4) (by omega), hexpanded.columns (place - 1) (by omega),
        Rijndael.word_of_le _ hi]

/-- The whole loop. -/
theorem Expanded.foldl {key : Octets 16} (count : ℕ) {roundKey : List UInt8} {i : ℕ}
    (hexpanded : Expanded key roundKey i) (hi : 4 ≤ i) (hend : i + count ≤ 44) :
    Expanded key ((List.range' i count).foldl Aes.expandWord roundKey) (i + count) := by
  induction count generalizing roundKey i with
  | zero => exact hexpanded
  | succ count ih =>
    rw [List.range'_succ, List.foldl_cons, Nat.add_comm count, ← Nat.add_assoc]
    exact ih (hexpanded.expandWord hi (by omega)) (by omega) (by omega)

/-- `KeyExpansion` makes the 44 words. -/
theorem expanded_keyExpansion (key : Octets 16) : Expanded key (keyExpansion key) 44 :=
  (expanded_key key).foldl 40 (Nat.le_refl 4) (Nat.le_refl 44)

/-! ### The rounds -/

theorem matrixOf_addRoundKey (key : Octets 16) {round : ℕ} (hround : round ≤ 10)
    (state : Octets 16) :
    matrixOf (addRoundKey round state (keyExpansion key)) =
      Rijndael.addRoundKey (Rijndael.roundKey (matrixOf key) round) (matrixOf state) := by
  ext r c
  have hcolumn := congrFun ((expanded_keyExpansion key).columns (4 * round + c) (by omega)) r
  have hplace : round * 16 + (4 * (c : ℕ) + r) = 4 * (4 * round + c) + r := by omega
  show ofByte (cell (addRoundKey round state (keyExpansion key)) c r) =
    ofByte (cell state c r) + Rijndael.word (matrixOf key) (4 * round + c) r
  rw [← hcolumn, columnOf, cell, addRoundKey, List.Vector.get_ofFn, ofByte_xor, hplace]
  rfl

/-- The rounds from the first one to the last that mixes columns. -/
theorem matrixOf_mixingRounds (key state : Octets 16) {rounds : ℕ} (hrounds : rounds ≤ 9) :
    matrixOf ((List.range' 1 rounds).foldl (mixingRound (keyExpansion key))
      (addRoundKey 0 state (keyExpansion key))) =
        Rijndael.mixingRounds (matrixOf key) rounds (matrixOf state) := by
  induction rounds with
  | zero => exact matrixOf_addRoundKey key (Nat.zero_le 10) state
  | succ rounds ih =>
    rw [List.range'_concat, List.foldl_append, List.foldl_cons, List.foldl_nil, Nat.one_mul,
      Nat.add_comm 1, mixingRound, matrixOf_addRoundKey key (by omega), matrixOf_mixColumns,
      matrixOf_shiftRows, matrixOf_subBytes, ih (by omega)]
    rfl

/-- And back from the last one to the first. -/
theorem matrixOf_unmixingRounds (key : Octets 16) {rounds : ℕ} (hrounds : rounds ≤ 9)
    (state : Octets 16) :
    Rijndael.addRoundKey (Rijndael.roundKey (matrixOf key) 0) (Rijndael.subBytes.symm
      (Rijndael.shiftRows.symm (matrixOf
        ((List.range' 1 rounds).reverse.foldl (unmixingRound (keyExpansion key)) state)))) =
      (Rijndael.mixingRounds (matrixOf key) rounds).symm
        (Rijndael.subBytes.symm (Rijndael.shiftRows.symm (matrixOf state))) := by
  induction rounds generalizing state with
  | zero =>
    rw [Rijndael.mixingRounds, Rijndael.addRoundKey_symm]
    rfl
  | succ rounds ih =>
    rw [List.range'_concat, List.reverse_append, List.reverse_singleton, List.singleton_append,
      List.foldl_cons, ih (by omega), Nat.one_mul, Nat.add_comm 1, unmixingRound,
      matrixOf_invMixColumns, matrixOf_addRoundKey key (by omega), matrixOf_invSubBytes,
      matrixOf_invShiftRows, ← Rijndael.addRoundKey_symm]
    rfl

theorem matrixOf_cipher (key block : Octets 16) :
    matrixOf (encrypt key block) = Rijndael.encrypt (matrixOf key) (matrixOf block) := by
  rw [encrypt, cipher, matrixOf_addRoundKey key (Nat.le_refl 10), matrixOf_shiftRows,
    matrixOf_subBytes, matrixOf_mixingRounds key block (Nat.le_refl 9)]
  rfl

theorem matrixOf_invCipher (key block : Octets 16) :
    matrixOf (decrypt key block) = (Rijndael.encrypt (matrixOf key)).symm (matrixOf block) := by
  rw [decrypt, invCipher, matrixOf_addRoundKey key (Nat.zero_le 10), matrixOf_invSubBytes,
    matrixOf_invShiftRows, matrixOf_unmixingRounds key (Nat.le_refl 9),
    matrixOf_addRoundKey key (Nat.le_refl 10), Rijndael.encrypt_symm_apply]

/-! ### The code is the cipher -/

/-- `AES_ECB_encrypt` is the cipher of FIPS 197, and `AES_ECB_decrypt` its inverse. -/
theorem aes_eq_standard (key block : Octets 16) :
    matrixOf (encrypt key block) = Rijndael.encrypt (matrixOf key) (matrixOf block) ∧
      matrixOf (decrypt key block) = (Rijndael.encrypt (matrixOf key)).symm (matrixOf block) :=
  ⟨matrixOf_cipher key block, matrixOf_invCipher key block⟩

/-- With one key, encryption and decryption undo each other. -/
theorem decrypt_encrypt (key : Octets 16) :
    Function.LeftInverse (decrypt key) (encrypt key) ∧
      Function.RightInverse (decrypt key) (encrypt key) := by
  constructor
  · intro block
    refine matrixOf_injective ?_
    rw [matrixOf_invCipher, matrixOf_cipher, Equiv.symm_apply_apply]
  · intro block
    refine matrixOf_injective ?_
    rw [matrixOf_cipher, matrixOf_invCipher, Equiv.apply_symm_apply]

end Disguise.Authentication.Aes
