import Disguise.Authentication.AesStandard
import Disguise.Cipher.Modes
import Disguise.Memory.BitString
import Mathlib.Algebra.Order.Group.Nat

/-!
# The modes of `aes.c`

`AES_CBC_encrypt_buffer`, `AES_CBC_decrypt_buffer` and `AES_CTR_xcrypt_buffer`. Each works through a
buffer in place and leaves in the context the register of the next call. A buffer is the bytes from
the pointer on to the end of the object, and an access behind it has no result.

The enclave uses none of the three.
-/

set_option autoImplicit false
set_option relaxedAutoImplicit false

namespace Disguise.Authentication.Aes

open Cipher Memory

/-- `struct AES_ctx`. -/
structure AesCtx where
  roundKey : List UInt8
  iv : Octets 16

/-- `AES_init_ctx_iv`. -/
def initCtxIv (key iv : Octets 16) : AesCtx := ⟨keyExpansion key, iv⟩

/-- `AES_ctx_set_iv`. -/
def ctxSetIv (ctx : AesCtx) (iv : Octets 16) : AesCtx := { ctx with iv := iv }

/-! ### Cipher block chaining -/

/-- The loop of the two functions for cipher block chaining, with what a round makes of the register
and the block at `buf`: the next register, and the block it puts in place. -/
def eachBlock (step : Octets 16 → Octets 16 → Octets 16 × Octets 16) :
    ℕ → Octets 16 → List UInt8 → Option (Octets 16 × List UInt8)
  | 0, iv, buf => some (iv, buf)
  | rounds + 1, iv, buf => do
    let block ← arrayAt? buf 0 16
    let (next, output) := step iv block
    let (last, rest) ← eachBlock step rounds next (buf.drop 16)
    return (last, output.toList ++ rest)

/-- A round of `AES_CBC_encrypt_buffer`, after which `Iv` points to the block. -/
def cbcEncryptBlock (roundKey : List UInt8) (iv block : Octets 16) : Octets 16 × Octets 16 :=
  let output := cipher (xorOctets block iv) roundKey
  (output, output)

/-- A round of `AES_CBC_decrypt_buffer`. -/
def cbcDecryptBlock (roundKey : List UInt8) (iv block : Octets 16) : Octets 16 × Octets 16 :=
  let storeNextIv := block
  (storeNextIv, xorOctets (invCipher block roundKey) iv)

/-- What the two functions have in common: the loop, which runs while `i < length` in steps of 16,
and the register it leaves in the context. -/
def cbcBuffer (step : List UInt8 → Octets 16 → Octets 16 → Octets 16 × Octets 16) (ctx : AesCtx)
    (buf : List UInt8) (length : ℕ) : Option (AesCtx × List UInt8) :=
  (eachBlock (step ctx.roundKey) ((length + 15) / 16) ctx.iv buf).map fun result ↦
    (ctxSetIv ctx result.1, result.2)

/-- `AES_CBC_encrypt_buffer`. -/
def cbcEncryptBuffer : AesCtx → List UInt8 → ℕ → Option (AesCtx × List UInt8) :=
  cbcBuffer cbcEncryptBlock

/-- `AES_CBC_decrypt_buffer`. -/
def cbcDecryptBuffer : AesCtx → List UInt8 → ℕ → Option (AesCtx × List UInt8) :=
  cbcBuffer cbcDecryptBlock

/-! ### Counter mode -/

/-- The inner loop of `AES_CTR_xcrypt_buffer` over the bytes still ahead of it, from the last byte
of `Iv` on. -/
def carry : List UInt8 → List UInt8
  | [] => []
  | octet :: ahead => if octet = 255 then 0 :: carry ahead else (octet + 1) :: ahead

theorem length_carry : ∀ octets : List UInt8, (carry octets).length = octets.length
  | [] => rfl
  | octet :: ahead => by
    rw [carry]
    split
    · rw [List.length_cons, List.length_cons, length_carry ahead]
    · rfl

/-- `Iv` after the inner loop of `AES_CTR_xcrypt_buffer`. -/
def incrementIv (iv : Octets 16) : Octets 16 :=
  ⟨(carry iv.toList.reverse).reverse, by
    rw [List.length_reverse, length_carry, List.length_reverse, iv.toList_length]⟩

/-- The loop of `AES_CTR_xcrypt_buffer`: rounds that mask one byte each. -/
def ctrRounds (roundKey : List UInt8) :
    ℕ → (iv buffer : Octets 16) → (bi : ℕ) → List UInt8 → Option (Octets 16 × List UInt8)
  | 0, iv, _, _, buf => some (iv, buf)
  | _ + 1, _, _, _, [] => none
  | rounds + 1, iv, buffer, bi, byte :: buf => do
    let (iv, buffer, bi) :=
      if bi = 16 then (incrementIv iv, cipher iv roundKey, 0) else (iv, buffer, bi)
    let (last, rest) ← ctrRounds roundKey rounds iv buffer (bi + 1) buf
    return (last, (byte ^^^ buffer.toList.getD bi 0) :: rest)

/-- `AES_CTR_xcrypt_buffer`. The first round fills `buffer`, which has no value before. -/
def ctrXcryptBuffer (ctx : AesCtx) (buf : List UInt8) (length : ℕ) :
    Option (AesCtx × List UInt8) := do
  let unset := List.Vector.replicate 16 0
  let (iv, output) ← ctrRounds ctx.roundKey length ctx.iv unset 16 buf
  return (ctxSetIv ctx iv, output)

/-! ### Chaining over the blocks of a buffer -/

/-- The bytes of a list of blocks. -/
def bytesOf (blocks : List (Octets 16)) : List UInt8 := (blocks.map List.Vector.toList).flatten

theorem bytesOf_cons (block : Octets 16) (blocks : List (Octets 16)) :
    bytesOf (block :: blocks) = block.toList ++ bytesOf blocks := by
  rw [bytesOf, List.map_cons, List.flatten_cons]
  rfl

@[simp] theorem length_bytesOf (blocks : List (Octets 16)) :
    (bytesOf blocks).length = 16 * blocks.length := by
  induction blocks with
  | nil => rfl
  | cons block blocks ih =>
    rw [bytesOf_cons, List.length_append, block.toList_length, ih, List.length_cons]
    omega

/-- Bytes that make up whole blocks. -/
theorem exists_bytesOf {bytes : List UInt8} {count : ℕ} (hlength : bytes.length = 16 * count) :
    ∃ blocks : List (Octets 16), blocks.length = count ∧ bytes = bytesOf blocks := by
  induction count generalizing bytes with
  | zero => exact ⟨[], rfl, List.length_eq_zero_iff.mp hlength⟩
  | succ count ih =>
    have hrest : (bytes.drop 16).length = 16 * count := by
      rw [List.length_drop]
      omega
    obtain ⟨blocks, hcount, hblocks⟩ := ih hrest
    have hfirst : (bytes.take 16).length = 16 := by
      rw [List.length_take]
      omega
    obtain ⟨block, hblock⟩ : ∃ block : Octets 16, block.toList = bytes.take 16 :=
      ⟨⟨bytes.take 16, hfirst⟩, rfl⟩
    refine ⟨block :: blocks, by rw [List.length_cons, hcount], ?_⟩
    rw [bytesOf_cons, ← hblocks, hblock, List.take_append_drop]

section EachBlock

variable (step : Octets 16 → Octets 16 → Octets 16 × Octets 16)

/-- One round of the loop. -/
theorem eachBlock_cons (rounds : ℕ) (iv block : Octets 16) (rest : List UInt8) :
    eachBlock step (rounds + 1) iv (block.toList ++ rest) =
      (eachBlock step rounds (step iv block).1 rest).map fun result ↦
        (result.1, (step iv block).2.toList ++ result.2) := by
  have hdrop : (block.toList ++ rest).drop 16 = rest := by
    rw [List.drop_append_of_le_length (by rw [block.toList_length]),
      List.drop_of_length_le (by rw [block.toList_length]), List.nil_append]
  rw [eachBlock, arrayAt?_append_left, hdrop]
  cases hrest : eachBlock step rounds (step iv block).1 rest with
  | none => simp [hrest]
  | some result => simp [hrest]

/-- The rounds over whole blocks, and the rounds over what is behind them. -/
theorem eachBlock_append (blocks : List (Octets 16)) (rounds : ℕ) (iv : Octets 16)
    (rest : List UInt8) :
    eachBlock step (blocks.length + rounds) iv (bytesOf blocks ++ rest) =
      (eachBlock step blocks.length iv (bytesOf blocks)).bind fun result ↦
        (eachBlock step rounds result.1 rest).map fun result' ↦
          (result'.1, result.2 ++ result'.2) := by
  induction blocks generalizing iv with
  | nil =>
    rw [List.length_nil, Nat.zero_add]
    exact (Option.map_id' ..).symm
  | cons block blocks ih =>
    have hrounds : (block :: blocks).length + rounds = blocks.length + rounds + 1 := by
      rw [List.length_cons]
      omega
    rw [hrounds, List.length_cons, bytesOf_cons, List.append_assoc, eachBlock_cons, eachBlock_cons,
      ih]
    cases eachBlock step blocks.length (step iv block).1 (bytesOf blocks) with
    | none => rfl
    | some result =>
      cases hrest : eachBlock step rounds result.1 rest with
      | none => simp [hrest]
      | some result' => simp [hrest]

/-- The rounds keep the length of the buffer. -/
theorem length_eachBlock {rounds : ℕ} {iv last : Octets 16} {buf output : List UInt8}
    (hrounds : eachBlock step rounds iv buf = some (last, output)) :
    output.length = buf.length := by
  induction rounds generalizing iv last buf output with
  | zero =>
    obtain ⟨-, rfl⟩ := Prod.mk.inj (Option.some.inj hrounds)
    rfl
  | succ rounds ih =>
    obtain ⟨block, hblock, hrest⟩ := Option.bind_eq_some_iff.mp hrounds
    obtain ⟨⟨last', rest⟩, hlater, hresult⟩ := Option.bind_eq_some_iff.mp hrest
    obtain ⟨-, rfl⟩ := Prod.mk.inj (Option.some.inj hresult)
    have hbounds : 0 + 16 ≤ buf.length := by
      by_contra hshort
      rw [arrayAt?, dif_neg hshort] at hblock
      cases hblock
    have hlength := ih hlater
    rw [List.length_append, List.Vector.toList_length]
    rw [List.length_drop] at hlength
    omega

end EachBlock

/-- `AES_CBC_encrypt_buffer` chains the blocks and leaves the last one in the register. -/
theorem eachBlock_encrypt (roundKey : List UInt8) (iv : Octets 16) (blocks : List (Octets 16)) :
    eachBlock (cbcEncryptBlock roundKey) blocks.length iv (bytesOf blocks) =
      some ((chain (cipher · roundKey) xorOctets iv blocks).getLastD iv,
        bytesOf (chain (cipher · roundKey) xorOctets iv blocks)) := by
  induction blocks generalizing iv with
  | nil => rfl
  | cons block blocks ih =>
    rw [bytesOf_cons, List.length_cons, eachBlock_cons, chain, bytesOf_cons, List.getLastD_cons]
    exact congrArg (Option.map _) (ih (cipher (xorOctets block iv) roundKey))

/-- `AES_CBC_decrypt_buffer` unchains the blocks and leaves the last one in the register. -/
theorem eachBlock_decrypt (roundKey : List UInt8) (iv : Octets 16) (blocks : List (Octets 16)) :
    eachBlock (cbcDecryptBlock roundKey) blocks.length iv (bytesOf blocks) =
      some (blocks.getLastD iv, bytesOf (unchain (invCipher · roundKey) xorOctets iv blocks)) := by
  induction blocks generalizing iv with
  | nil => rfl
  | cons block blocks ih =>
    rw [bytesOf_cons, List.length_cons, eachBlock_cons, unchain, bytesOf_cons, List.getLastD_cons]
    exact congrArg (Option.map _) (ih block)

/-! ### Calls for cipher block chaining -/

/-- The buffers the two functions are for. -/
def WholeBlocks (buf : List UInt8) : Prop := 16 ∣ buf.length

theorem wholeBlocks_flatten {calls : List (List UInt8)}
    (hcalls : ∀ call ∈ calls, WholeBlocks call) :
    WholeBlocks calls.flatten := by
  induction calls with
  | nil => exact Nat.dvd_zero 16
  | cons call calls ih =>
    show 16 ∣ (call ++ calls.flatten).length
    rw [List.length_append]
    exact Nat.dvd_add (hcalls call List.mem_cons_self)
      (ih fun later hlater ↦ hcalls later (List.mem_cons_of_mem _ hlater))

/-- Calls on whole blocks are together one call on all the blocks. -/
theorem callEach_cbcBuffer (step : List UInt8 → Octets 16 → Octets 16 → Octets 16 × Octets 16)
    {calls : List (List UInt8)} (hcalls : ∀ call ∈ calls, WholeBlocks call) (ctx : AesCtx) :
    (callEach (fun ctx buf ↦ cbcBuffer step ctx buf buf.length) ctx calls).map
        (fun result ↦ (result.1, result.2.flatten)) =
      cbcBuffer step ctx calls.flatten calls.flatten.length := by
  refine callEach_flatten (fun _ ↦ rfl) ?_ hcalls ctx
  intro ctx first second hfirst
  obtain ⟨count, hcount⟩ := hfirst
  obtain ⟨blocks, rfl, rfl⟩ := exists_bytesOf hcount
  have hrounds : ((bytesOf blocks ++ second).length + 15) / 16 =
      blocks.length + (second.length + 15) / 16 := by
    rw [List.length_append, length_bytesOf]
    omega
  have hfirst : ((bytesOf blocks).length + 15) / 16 = blocks.length := by
    rw [length_bytesOf]
    omega
  simp only [callBoth, cbcBuffer, hrounds, hfirst, eachBlock_append]
  cases eachBlock (step ctx.roundKey) blocks.length ctx.iv (bytesOf blocks) with
  | none => rfl
  | some result =>
    show Option.map _ (Option.map _ (eachBlock (step ctx.roundKey) _ result.1 second)) =
      Option.bind (Option.map _ (eachBlock (step ctx.roundKey) _ result.1 second)) _
    cases eachBlock (step ctx.roundKey) ((second.length + 15) / 16) result.1 second with
    | none => rfl
    | some result' => rfl

/-- The blocks of a whole buffer. -/
theorem WholeBlocks.exists_bytesOf {buf : List UInt8} (hwhole : WholeBlocks buf) :
    ∃ blocks : List (Octets 16), buf = bytesOf blocks := by
  obtain ⟨count, hcount⟩ := hwhole
  obtain ⟨blocks, -, hblocks⟩ := Aes.exists_bytesOf hcount
  exact ⟨blocks, hblocks⟩

/-- Calls on whole blocks do together what the loop does on all the blocks. -/
theorem callEach_eq_of_eachBlock
    (step : List UInt8 → Octets 16 → Octets 16 → Octets 16 × Octets 16) (ctx : AesCtx)
    {calls : List (List UInt8)} {blocks : List (Octets 16)} {last : Octets 16} {bytes : List UInt8}
    (hcalls : ∀ call ∈ calls, WholeBlocks call) (hblocks : calls.flatten = bytesOf blocks)
    (hrounds : eachBlock (step ctx.roundKey) blocks.length ctx.iv (bytesOf blocks) =
      some (last, bytes)) :
    ∃ outputs, callEach (fun ctx buf ↦ cbcBuffer step ctx buf buf.length) ctx calls =
      some (ctxSetIv ctx last, outputs) ∧ outputs.flatten = bytes := by
  have hcount : ((bytesOf blocks).length + 15) / 16 = blocks.length := by
    rw [length_bytesOf]
    omega
  have htogether := callEach_cbcBuffer step hcalls ctx
  rw [hblocks, cbcBuffer, hcount, hrounds, Option.map_some, Option.map_eq_some_iff] at htogether
  obtain ⟨⟨left, outputs⟩, houtputs, hresult⟩ := htogether
  obtain ⟨hleft, hflat⟩ := Prod.mk.inj hresult
  obtain rfl : left = ctxSetIv ctx last := hleft
  exact ⟨outputs, houtputs, hflat⟩

/-- A text encrypted for cipher block chaining in calls on whole blocks comes back from calls on
whole blocks of the ciphertext, however the two are divided into calls, once the context is set back
to the first register. The two sides end with the same context. -/
theorem cbc_round_trip (key iv : Octets 16) {calls : List (List UInt8)}
    (hcalls : ∀ call ∈ calls, WholeBlocks call) :
    ∃ left outputs,
      callEach (fun ctx buf ↦ cbcEncryptBuffer ctx buf buf.length) (initCtxIv key iv) calls =
          some (left, outputs) ∧
        outputs.map List.length = calls.map List.length ∧
        ∀ division : List (List UInt8), (∀ call ∈ division, WholeBlocks call) →
          division.flatten = outputs.flatten → ∃ texts,
            callEach (fun ctx buf ↦ cbcDecryptBuffer ctx buf buf.length) (ctxSetIv left iv)
                division = some (left, texts) ∧
              texts.flatten = calls.flatten := by
  obtain ⟨blocks, hblocks⟩ := (wholeBlocks_flatten hcalls).exists_bytesOf
  obtain ⟨outputs, houtputs, hcipher⟩ := callEach_eq_of_eachBlock cbcEncryptBlock
    (initCtxIv key iv) hcalls hblocks (eachBlock_encrypt (keyExpansion key) iv blocks)
  refine ⟨_, outputs, houtputs, ?_, ?_⟩
  · refine callEach_lengths ?_ houtputs
    intro ctx buf left output hcall
    obtain ⟨result, hrounds, hresult⟩ := Option.map_eq_some_iff.mp hcall
    obtain ⟨-, rfl⟩ := Prod.mk.inj hresult
    exact length_eachBlock _ hrounds
  · intro division hdivision hsame
    obtain ⟨texts, htexts, hplain⟩ := callEach_eq_of_eachBlock cbcDecryptBlock (initCtxIv key iv)
      hdivision (hsame.trans hcipher) (eachBlock_decrypt (keyExpansion key) iv _)
    refine ⟨texts, htexts, ?_⟩
    rw [hplain, hblocks]
    exact congrArg bytesOf (unchain_chain (decrypt_encrypt key).1 xorOctets_cancel iv blocks)

/-- Two calls on three blocks, whose ciphertext is decrypted in one call. -/
theorem cbc_round_trip_three_blocks :
    ∃ left outputs texts,
      callEach (fun ctx buf ↦ cbcEncryptBuffer ctx buf buf.length)
          (initCtxIv (List.Vector.replicate 16 1) (List.Vector.replicate 16 2))
          [List.replicate 32 0x61, List.replicate 16 0x62] = some (left, outputs) ∧
        callEach (fun ctx buf ↦ cbcDecryptBuffer ctx buf buf.length)
            (ctxSetIv left (List.Vector.replicate 16 2)) [outputs.flatten] = some (left, texts) ∧
          texts.flatten = List.replicate 32 0x61 ++ List.replicate 16 0x62 := by
  have hcalls : ∀ call ∈ [List.replicate 32 (0x61 : UInt8), List.replicate 16 0x62],
      WholeBlocks call := by
    simp [WholeBlocks]
  obtain ⟨left, outputs, houtputs, hlengths, hback⟩ :=
    cbc_round_trip (List.Vector.replicate 16 1) (List.Vector.replicate 16 2) hcalls
  have hwhole : ∀ call ∈ [outputs.flatten], WholeBlocks call := by
    intro call hcall
    rw [List.mem_singleton.mp hcall, WholeBlocks, List.length_flatten, hlengths]
    decide
  obtain ⟨texts, htexts, hflat⟩ := hback [outputs.flatten] hwhole (by simp)
  exact ⟨left, outputs, texts, houtputs, htexts, hflat⟩

/-- A call stays inside its buffer exactly if the length, rounded up to whole blocks, does. -/
theorem isSome_cbcBuffer_iff (step : List UInt8 → Octets 16 → Octets 16 → Octets 16 × Octets 16)
    (ctx : AesCtx) (buf : List UInt8) (length : ℕ) :
    (cbcBuffer step ctx buf length).isSome ↔ 16 * ((length + 15) / 16) ≤ buf.length := by
  rw [cbcBuffer, Option.isSome_map]
  generalize (length + 15) / 16 = rounds, ctx.iv = iv
  induction rounds generalizing iv buf with
  | zero => exact iff_of_true rfl (Nat.zero_le _)
  | succ rounds ih =>
    by_cases hblock : 0 + 16 ≤ buf.length
    · obtain ⟨block, hfound⟩ := exists_arrayAt? 0 16 hblock
      have hrest := ih (buf.drop 16) (step ctx.roundKey iv block).1
      rw [List.length_drop] at hrest
      have hrounds : 16 * (rounds + 1) ≤ buf.length ↔ 16 * rounds ≤ buf.length - 16 := by omega
      rw [hrounds, ← hrest, eachBlock, hfound]
      cases hlast : eachBlock (step ctx.roundKey) rounds (step ctx.roundKey iv block).1
        (buf.drop 16) with
      | none => simp [hlast]
      | some result => simp [hlast]
    · have hmissing : arrayAt? buf 0 16 = none := dif_neg hblock
      rw [eachBlock, hmissing]
      refine iff_of_false Bool.false_ne_true ?_
      omega

/-! ### The counter -/

/-- A register as many steps on. -/
def counter (iv : Octets 16) (count : ℕ) : Octets 16 := ofBits (toBits iv + BitVec.ofNat _ count)

theorem counter_zero (iv : Octets 16) : counter iv 0 = iv := by
  rw [counter]
  exact (congrArg ofBits (BitVec.add_zero _)).trans (ofBits_toBits iv)

theorem counter_counter (iv : Octets 16) (first second : ℕ) :
    counter (counter iv first) second = counter iv (first + second) := by
  rw [counter, counter, counter, toBits_ofBits, BitVec.add_assoc, BitVec.ofNat_add]

/-- Registers repeat only after `2 ^ 128` steps. -/
theorem counter_injOn (iv : Octets 16) {first second : ℕ} (hfirst : first < 2 ^ 128)
    (hsecond : second < 2 ^ 128) (heq : counter iv first = counter iv second) : first = second := by
  have hbits :
      toBits iv + BitVec.ofNat (8 * 16) first = toBits iv + BitVec.ofNat (8 * 16) second := by
    rw [← toBits_ofBits (toBits iv + _), ← toBits_ofBits (toBits iv + BitVec.ofNat _ second)]
    exact congrArg toBits heq
  have hnumber := congrArg BitVec.toNat ((BitVec.add_right_inj _).mp hbits)
  rwa [BitVec.toNat_ofNat, BitVec.toNat_ofNat, Nat.mod_eq_of_lt hfirst,
    Nat.mod_eq_of_lt hsecond] at hnumber

/-- The inner loop adds one to the number that the bytes spell, over its width. -/
theorem bigEndian_carry (ahead : List UInt8) :
    bigEndian (carry ahead).reverse = (bigEndian ahead.reverse + 1) % 2 ^ (8 * ahead.length) := by
  induction ahead with
  | nil => rfl
  | cons octet ahead ih =>
    have hfront := bigEndian_lt ahead.reverse
    rw [List.length_reverse] at hfront
    have hwidth : 2 ^ (8 * (octet :: ahead).length) = 2 ^ 8 * 2 ^ (8 * ahead.length) := by
      rw [List.length_cons, Nat.mul_add, Nat.pow_add, Nat.mul_comm]
    rw [carry, hwidth, List.reverse_cons, bigEndian_append_singleton]
    by_cases hfull : octet = 255
    · -- the byte overflows, and the rest is incremented
      rw [if_pos hfull, List.reverse_cons, bigEndian_append_singleton, ih, hfull]
      show 2 ^ 8 * _ + 0 = (2 ^ 8 * bigEndian ahead.reverse + 255 + 1) % _
      rw [Nat.add_zero, ← Nat.mul_mod_mul_left, Nat.mul_add]
      rfl
    · have hoctet : octet.toNat + 1 < 2 ^ 8 := by
        have hlt := octet.toNat_lt
        have hne : octet.toNat ≠ 255 := fun heq ↦ hfull (UInt8.toNat_inj.mp heq)
        omega
      have hsum : (octet + 1).toNat = octet.toNat + 1 := by
        rw [UInt8.toNat_add]
        exact Nat.mod_eq_of_lt hoctet
      rw [if_neg hfull, List.reverse_cons, bigEndian_append_singleton, hsum, Nat.mod_eq_of_lt]
      · rfl
      · omega

/-- The inner loop takes the register one step on. -/
theorem incrementIv_eq (iv : Octets 16) : incrementIv iv = counter iv 1 := by
  rw [← ofBits_toBits (incrementIv iv), counter]
  congr 1
  apply BitVec.eq_of_toNat_eq
  have hlength : iv.toList.length = 16 := iv.toList_length
  have hnumber := bigEndian_carry iv.toList.reverse
  rw [List.reverse_reverse, List.length_reverse, hlength] at hnumber
  rw [toBits, toBits, BitVec.toNat_ofNat, BitVec.toNat_add, BitVec.toNat_ofNat, BitVec.toNat_ofNat]
  show bigEndian (carry iv.toList.reverse).reverse % _ = _
  rw [hnumber, Nat.mod_mod, Nat.mod_add_mod]

/-! ### Calls for counter mode -/

/-- Byte `j` of the mask that the register makes as many steps on. -/
def keystream (roundKey : List UInt8) (iv : Octets 16) (count j : ℕ) : UInt8 :=
  (cipher (counter iv count) roundKey).toList.getD j 0

/-- `buffer` and `bi` before the byte at some position: at the start of a block `bi` asks for a new
buffer, and inside a block `buffer` is the mask of that block. -/
def InStep (roundKey : List UInt8) (iv buffer : Octets 16) (bi position : ℕ) : Prop :=
  bi = 16 ∧ position % 16 = 0 ∨
    bi = position % 16 ∧ 0 < bi ∧ buffer = cipher (counter iv (position / 16)) roundKey

/-- A round after which `buffer` is the mask of the block. -/
theorem inStep_succ (roundKey : List UInt8) (iv : Octets 16) (position : ℕ) :
    InStep roundKey iv (cipher (counter iv (position / 16)) roundKey) (position % 16 + 1)
      (position + 1) := by
  by_cases hlast : position % 16 = 15
  · exact .inl ⟨by omega, by omega⟩
  · have hblock : (position + 1) / 16 = position / 16 := by omega
    exact .inr ⟨by omega, by omega, by rw [hblock]⟩

/-- What a round does: it masks its byte and goes on in step. -/
theorem ctrRounds_cons {roundKey : List UInt8} {iv buffer : Octets 16} {bi position : ℕ}
    (hstep : InStep roundKey iv buffer bi position) (rounds : ℕ) (byte : UInt8)
    (buf : List UInt8) :
    ctrRounds roundKey (rounds + 1) (counter iv ((position + 15) / 16)) buffer bi (byte :: buf) =
      (ctrRounds roundKey rounds (counter iv ((position + 1 + 15) / 16))
        (cipher (counter iv (position / 16)) roundKey) (position % 16 + 1) buf).map fun result ↦
          (result.1, (byte ^^^ keystream roundKey iv (position / 16) (position % 16)) ::
            result.2) := by
  rcases hstep with ⟨rfl, hstart⟩ | ⟨rfl, hinside, rfl⟩
  · -- the buffer is filled from the register, which goes one step on
    have hbegun : (position + 15) / 16 = position / 16 := by omega
    have hnext : (position + 1 + 15) / 16 = position / 16 + 1 := by omega
    rw [ctrRounds, if_pos rfl, hbegun, hnext, incrementIv_eq, counter_counter, hstart]
    simp only [keystream]
    cases ctrRounds roundKey rounds (counter iv (position / 16 + 1))
      (cipher (counter iv (position / 16)) roundKey) (0 + 1) buf with
    | none => rfl
    | some result => rfl
  · have hnext : (position + 1 + 15) / 16 = (position + 15) / 16 := by omega
    rw [ctrRounds, if_neg (by omega), hnext]
    simp only [keystream]
    cases ctrRounds roundKey rounds (counter iv ((position + 15) / 16))
      (cipher (counter iv (position / 16)) roundKey) (position % 16 + 1) buf with
    | none => rfl
    | some result => rfl

/-- The rounds mask every byte with the keystream at its position. -/
theorem ctrRounds_eq {roundKey : List UInt8} {iv buffer : Octets 16} {bi position : ℕ}
    (hstep : InStep roundKey iv buffer bi position) (text : List UInt8) :
    ctrRounds roundKey text.length (counter iv ((position + 15) / 16)) buffer bi text =
      some (counter iv ((position + text.length + 15) / 16), text.mapIdx fun i byte ↦
        byte ^^^ keystream roundKey iv ((position + i) / 16) ((position + i) % 16)) := by
  induction text generalizing position buffer bi with
  | nil => rfl
  | cons byte text ih =>
    have hplace (i : ℕ) : position + 1 + i = position + (i + 1) := by omega
    rw [List.length_cons, ctrRounds_cons hstep, ih (inStep_succ roundKey iv position),
      List.mapIdx_cons]
    simp only [Option.map_some, hplace, Nat.add_zero]

/-- A call masks with the keystream from the register on, and leaves the register behind the blocks
it has begun. -/
theorem ctrXcryptBuffer_eq (roundKey : List UInt8) (iv : Octets 16) (start : ℕ)
    (text : List UInt8) :
    ctrXcryptBuffer ⟨roundKey, counter iv start⟩ text text.length =
      some (⟨roundKey, counter iv (start + blocksBegun 16 text.length)⟩,
        counterMode (· ^^^ ·) 16 (keystream roundKey iv) start text) := by
  have hstep (buffer : Octets 16) : InStep roundKey iv buffer 16 (16 * start) :=
    .inl ⟨rfl, Nat.mul_mod_right 16 start⟩
  have hfirst : (16 * start + 15) / 16 = start := by omega
  have hlast : (16 * start + text.length + 15) / 16 = start + blocksBegun 16 text.length := by
    rw [blocksBegun]
    omega
  have hrounds := ctrRounds_eq (hstep (List.Vector.replicate 16 0)) text
  rw [hfirst, hlast] at hrounds
  have hblock (i : ℕ) : (16 * start + i) / 16 = start + i / 16 := by omega
  have hplace (i : ℕ) : (16 * start + i) % 16 = i % 16 := by omega
  simp only [hblock, hplace] at hrounds
  show (ctrRounds roundKey text.length (counter iv start) (List.Vector.replicate 16 0) 16
    text).bind _ = _
  rw [hrounds]
  rfl

/-- Calls in counter mode mask call `k` with the keystream behind the blocks that the calls before
it have begun, and the cipher makes the keystream from registers that never repeat.

Assumes: the calls begin at most `2 ^ 128` blocks. -/
theorem ctr_masks_afresh (key iv : Octets 16) {calls : List (List UInt8)}
    (hblocks : blocksBefore 16 calls calls.length ≤ 2 ^ 128) :
    callEach (fun ctx buf ↦ ctrXcryptBuffer ctx buf buf.length) (initCtxIv key iv) calls =
        some (ctxSetIv (initCtxIv key iv) (counter iv (blocksBefore 16 calls calls.length)),
          calls.mapIdx fun k call ↦ call.mapIdx fun i byte ↦
            byte ^^^ (encrypt key (counter iv (blocksBefore 16 calls k + i / 16))).get
              ⟨i % 16, Nat.mod_lt i (by decide)⟩) ∧
      ∀ {k other i j : ℕ} (hk : k < calls.length) (hother : other < calls.length),
        i < calls[k].length → j < calls[other].length →
          counter iv (blocksBefore 16 calls k + i / 16) =
              counter iv (blocksBefore 16 calls other + j / 16) →
            k = other ∧ i / 16 = j / 16 := by
  constructor
  · have hcalls := callEach_counterMode (fun ctx buf ↦ ctrXcryptBuffer ctx buf buf.length)
      (fun count ↦ ⟨keyExpansion key, counter iv count⟩)
      (ctrXcryptBuffer_eq (keyExpansion key) iv) calls 0
    have hmask (count i : ℕ) : keystream (keyExpansion key) iv count (i % 16) =
        (encrypt key (counter iv count)).get ⟨i % 16, Nat.mod_lt i (by decide)⟩ := by
      rw [keystream, List.getD_eq_getElem _ _ (by rw [List.Vector.toList_length]; omega)]
      rfl
    simp only [counter_zero, Nat.zero_add, counterMode, hmask] at hcalls
    exact hcalls
  · intro k other i j hk hother hi hj hsame
    refine blocksBefore_injective (by decide) hk hother hi hj ?_
    exact counter_injOn iv ((blocksBefore_lt (by decide) hk hi).trans_le hblocks)
      ((blocksBefore_lt (by decide) hother hj).trans_le hblocks) hsame

/-- Two calls that begin three blocks, the second with a new block. -/
theorem ctr_masks_afresh_two_calls :
    callEach (fun ctx buf ↦ ctrXcryptBuffer ctx buf buf.length)
        (initCtxIv (List.Vector.replicate 16 1) (List.Vector.replicate 16 2))
        [List.replicate 5 0x61, List.replicate 20 0x62] =
      some (ctxSetIv (initCtxIv (List.Vector.replicate 16 1) (List.Vector.replicate 16 2))
          (counter (List.Vector.replicate 16 2) 3),
        [List.replicate 5 0x61, List.replicate 20 0x62].mapIdx fun k call ↦
          call.mapIdx fun i byte ↦
            byte ^^^ (encrypt (List.Vector.replicate 16 1) (counter (List.Vector.replicate 16 2)
              (blocksBefore 16 [List.replicate 5 0x61, List.replicate 20 (0x62 : UInt8)] k +
                i / 16))).get ⟨i % 16, Nat.mod_lt i (by decide)⟩) :=
  (ctr_masks_afresh (List.Vector.replicate 16 1) (List.Vector.replicate 16 2) (by decide)).1

/-- A text masked in some calls comes back from the same calls on what they have made of it, once
the context is set back to the first register. -/
theorem ctr_round_trip (key iv : Octets 16) (calls : List (List UInt8)) :
    ∃ left outputs,
      callEach (fun ctx buf ↦ ctrXcryptBuffer ctx buf buf.length) (initCtxIv key iv) calls =
          some (left, outputs) ∧
        callEach (fun ctx buf ↦ ctrXcryptBuffer ctx buf buf.length) (ctxSetIv left iv) outputs =
          some (left, calls) := by
  have hundo (byte mask : UInt8) : byte ^^^ mask ^^^ mask = byte := by
    rw [UInt8.xor_assoc, UInt8.xor_self, UInt8.xor_zero]
  let transform (ctx : AesCtx) (buf : List UInt8) := ctrXcryptBuffer ctx buf buf.length
  let context (count : ℕ) : AesCtx := ⟨keyExpansion key, counter iv count⟩
  have hcall := ctrXcryptBuffer_eq (keyExpansion key) iv
  have hmasked := callEach_counterMode transform context hcall calls 0
  have hundone := callEach_counterMode_undone transform context hcall hundo calls 0
  have hfirst : context 0 = initCtxIv key iv := congrArg (AesCtx.mk _) (counter_zero iv)
  rw [hfirst] at hmasked hundone
  exact ⟨_, _, hmasked, hundone⟩

end Disguise.Authentication.Aes
