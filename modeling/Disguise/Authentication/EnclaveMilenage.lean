import Disguise.Authentication.Milenage
import Mathlib.Algebra.Group.Fin.Basic

/-!
# Milenage in the enclave

`usim.c` of the authentication enclave: `liblte_security_milenage_f2345`,
`liblte_security_milenage_f1` and `gen_auth_res_milenage`, byte loop by byte loop. The block cipher
is a parameter (`AES_ECB_encrypt` under the context of a key), and so is the key, which the source
has as a constant of `gen_auth_res_milenage` (`builtInKey`).

`f2345_eq` and `f1_eq` say that the loops compute the functions of the standard, for every cipher.
`genAuthResMilenage_eq` is the specification of the whole: success and the response of the standard
for every challenge, and the token the network should have sent, which is compared to nothing.

Not modelled: the null pointer tests, which no caller can fail, and the debug functions.
-/

set_option autoImplicit false
set_option relaxedAutoImplicit false

namespace Disguise.Authentication.Enclave

open Memory Milenage

/-- `LIBLTE_ERROR_ENUM`. -/
inductive LibLteError where
  | success
  | invalidInputs
  | encodeFail
  | decodeFail
  | invalidCrc
  deriving DecidableEq, Repr

/-- What `gen_auth_res_milenage` returns and writes, and its local `autn`. -/
structure AuthRes where
  err : LibLteError
  response : Response
  autn : Block
  deriving DecidableEq

/-- The `k` of `gen_auth_res_milenage`. -/
def builtInKey : Block :=
  ⟨[0x00, 0x11, 0x22, 0x33, 0x44, 0x55, 0x66, 0x77, 0x88, 0x99, 0xaa, 0xbb, 0xcc, 0xdd, 0xee, 0xff],
    rfl⟩

/-! ### The functions as the code computes them -/

section Code

variable (aes : Block → Block → Block)

/-- `input[15] ^= mask`. -/
def flipLast (input : Block) (mask : UInt8) : Block := input.set 15 (input.get 15 ^^^ mask)

/-- The loop `input[(i + shift) % 16] = temp[i] ^ op_c[i]`. -/
def storeShifted (shift : Fin 16) (masked input : Block) : Block :=
  assignEach (List.finRange 16) (fun i ↦ i + shift) masked.get input

/-- `liblte_security_milenage_f2345`. -/
def liblteSecurityMilenageF2345 (k opC rand : Block) : F2345 :=
  let input := xorOctets rand opC
  let temp := aes k input
  -- Compute out for RES and AK
  let input := flipLast (xorOctets temp opC) 1
  let out := xorOctets (aes k input) opC
  let res := slice out 8 8 secondHalf_bounds
  let ak := slice out 0 6 sqn_bounds
  -- Compute out for CK
  let input := flipLast (storeShifted 12 (xorOctets temp opC) input) 2
  let ck := xorOctets (aes k input) opC
  -- Compute out for IK
  let input := flipLast (storeShifted 8 (xorOctets temp opC) input) 4
  let ik := xorOctets (aes k input) opC
  { res, ck, ik, ak }

/-- The two loops that fill `in1`, which holds nothing before. -/
def fillIn1 (sqn : Octets 6) (amf : Octets 2) : Block :=
  let in1 := (List.finRange 6).foldl (fun (in1 : Block) (i : Fin 6) ↦
    (in1.set ⟨i, by omega⟩ (sqn.get i)).set ⟨i + 8, by omega⟩ (sqn.get i))
    (List.Vector.replicate 16 0)
  (List.finRange 2).foldl (fun (in1 : Block) (i : Fin 2) ↦
    (in1.set ⟨i + 6, by omega⟩ (amf.get i)).set ⟨i + 14, by omega⟩ (amf.get i)) in1

/-- `liblte_security_milenage_f1`. -/
def liblteSecurityMilenageF1 (k opC rand : Block) (sqn : Octets 6) (amf : Octets 2) : Octets 8 :=
  let input := xorOctets rand opC
  let input := aes k input
  let temp := input
  let in1 := fillIn1 sqn amf
  let input := storeShifted 8 (xorOctets in1 opC) input
  let input := xorOctets input temp
  let out1 := xorOctets (aes k input) opC
  slice out1 0 8 firstHalf_bounds

/-- `gen_auth_res_milenage`. -/
def genAuthResMilenage (k opc rand autnEnb : Block) : AuthRes :=
  let vector := liblteSecurityMilenageF2345 aes k opc rand
  -- Extract sqn and AMF from autn
  let sqn := xorOctets (slice autnEnb 0 6 sqn_bounds) vector.ak
  let amf : Octets 2 := slice autnEnb 6 2 amf_bounds
  -- Generate MAC
  let mac := liblteSecurityMilenageF1 aes k opc rand sqn amf
  -- Construct AUTN; the loop that compares it with autn_enb is commented out
  let autn : Block := xorOctets sqn vector.ak ++ amf ++ mac
  let akXorSqn := xorOctets sqn vector.ak
  { err := .success
    response := { res := vector.res, akXorSqn, ck := vector.ck, ik := vector.ik }
    autn }

end Code

/-! ### The functions of the standard -/

section Standard

variable (aes : Block → Block → Block) (k opc rand : Block)

/-- Flipping bits of the last byte adds the constant with these bits. -/
theorem flipLast_eq (mask : UInt8) (number : ℕ)
    (hmask : ∀ i : Fin 16, (constant number).get i = if i = 15 then mask else 0) (input : Block) :
    flipLast input mask = xorOctets input (constant number) := by
  apply List.Vector.ext
  intro i
  rw [get_xorOctets, hmask, flipLast]
  by_cases hi : i = 15
  · rw [hi, List.Vector.get_set_same, if_pos rfl]
  · rw [List.Vector.get_set_of_ne (Ne.symm hi), if_neg hi, UInt8.xor_zero]

/-- Storing byte `i` at place `i + shift` rotates the block, whatever was there before. -/
theorem storeShifted_eq (shift : Fin 16) (count : ℕ) (hcount : count < 16)
    (hshift : ∀ j : Fin 16, ((j - shift : Fin 16) : ℕ) = (j + count) % 16) (masked input : Block) :
    storeShifted shift masked input = rotateBits masked (8 * count) := by
  apply List.Vector.ext
  intro j
  have hstored := get_assignEach_finRange masked.get (add_left_injective shift) input (j - shift)
  rw [sub_add_cancel] at hstored
  rw [storeShifted, hstored, get_rotateBits_eight_mul _ hcount]
  exact congrArg masked.get (Fin.ext (hshift j))

theorem rotateBits_zero (block : Block) : rotateBits block 0 = block := by
  apply List.Vector.ext
  intro i
  rw [← Nat.mul_zero 8, get_rotateBits_eight_mul _ (by omega)]
  exact congrArg block.get (Fin.ext (Nat.mod_eq_of_lt i.isLt))

theorem xorOctets_constant_zero (block : Block) : xorOctets block (constant 0) = block := by
  apply List.Vector.ext
  intro i
  have hzero : ∀ i : Fin 16, (constant 0).get i = 0 := by decide +kernel
  rw [get_xorOctets, hzero, UInt8.xor_zero]

/-- The loops fill `in1` with two copies of the sequence number and the management field. -/
theorem fillIn1_eq (sqn : Octets 6) (amf : Octets 2) : fillIn1 sqn amf = in1 sqn amf := by
  obtain ⟨_, sqn, rfl⟩ := sqn.exists_eq_cons
  obtain ⟨_, sqn, rfl⟩ := sqn.exists_eq_cons
  obtain ⟨_, sqn, rfl⟩ := sqn.exists_eq_cons
  obtain ⟨_, sqn, rfl⟩ := sqn.exists_eq_cons
  obtain ⟨_, sqn, rfl⟩ := sqn.exists_eq_cons
  obtain ⟨_, sqn, rfl⟩ := sqn.exists_eq_cons
  obtain ⟨_, amf, rfl⟩ := amf.exists_eq_cons
  obtain ⟨_, amf, rfl⟩ := amf.exists_eq_cons
  rw [sqn.eq_nil, amf.eq_nil]
  rfl

/-- The byte loops compute `f2`, `f3`, `f4` and `f5`. -/
theorem f2345_eq :
    liblteSecurityMilenageF2345 aes k opc rand = f2345 (aes k) opc rand := by
  have hone := flipLast_eq 1 1 (by decide +kernel)
  have htwo := flipLast_eq 2 2 (by decide +kernel)
  have hfour := flipLast_eq 4 4 (by decide +kernel)
  have hck := storeShifted_eq 12 4 (by omega) (by decide)
  have hik := storeShifted_eq 8 8 (by omega) (by decide)
  simp only [liblteSecurityMilenageF2345, hone, htwo, hfour, hck, hik, f2345, f2, f3, f4,
    f5, out, rotateBits_zero, temp]

/-- The byte loops compute `f1`. -/
theorem f1_eq (sqn : Octets 6) (amf : Octets 2) :
    liblteSecurityMilenageF1 aes k opc rand sqn amf = f1 (aes k) opc rand sqn amf := by
  have hrotated := storeShifted_eq 8 8 (by omega) (by decide)
  simp only [liblteSecurityMilenageF1, hrotated, fillIn1_eq, f1, out1, xorOctets_constant_zero]
  rw [xorOctets_comm (rotateBits _ _)]
  rfl

/-- Both functions are those of the standard, with `TEMP`, `OUT2`, `OUT3` and `OUT4` spelled out,
for every block cipher. -/
theorem milenage_matches_standard (sqn : Octets 6) (amf : Octets 2) :
    let TEMP := aes k (xorOctets rand opc)
    let OUT2 := xorOctets (aes k (xorOctets (xorOctets TEMP opc) (constant 1))) opc
    let OUT3 := xorOctets (aes k (xorOctets (rotateBits (xorOctets TEMP opc) 32) (constant 2))) opc
    let OUT4 := xorOctets (aes k (xorOctets (rotateBits (xorOctets TEMP opc) 64) (constant 4))) opc
    let IN1 : Block := sqn ++ amf ++ sqn ++ amf
    liblteSecurityMilenageF2345 aes k opc rand =
        { res := slice OUT2 8 8, ck := OUT3, ik := OUT4, ak := slice OUT2 0 6 } ∧
      liblteSecurityMilenageF1 aes k opc rand sqn amf =
        slice (xorOctets (aes k (xorOctets TEMP (rotateBits (xorOctets IN1 opc) 64))) opc) 0 8 := by
  have hout2 : out (aes k) opc rand 0 1 = xorOctets (aes k (xorOctets
      (xorOctets (aes k (xorOctets rand opc)) opc) (constant 1))) opc := by
    rw [out, rotateBits_zero, temp]
  refine ⟨?_, ?_⟩
  · rw [f2345_eq, f2345, f2, f5, hout2]
    rfl
  · rw [f1_eq, f1, out1, xorOctets_constant_zero]
    rfl

/-- The specification of `gen_auth_res_milenage`: it succeeds with the response of the standard
whatever the token is. The token it constructs has the code that belongs to the sequence number and
the management field it was given. -/
theorem genAuthResMilenage_eq (autnEnb : Block) :
    genAuthResMilenage aes k opc rand autnEnb =
      { err := .success
        response := respond (aes k) opc rand autnEnb
        autn := slice autnEnb 0 6 ++ (slice autnEnb 6 2 : Octets 2) ++
          f1 (aes k) opc rand (xorOctets (slice autnEnb 0 6) (f5 (aes k) opc rand))
            (slice autnEnb 6 2) } := by
  simp only [genAuthResMilenage, f2345_eq, f2345, f1_eq, xorOctets_cancel, respond]

/-- The token verifies when it is the one the enclave constructs. -/
theorem autn_eq_iff_verifies (autnEnb : Block) :
    (genAuthResMilenage aes k opc rand autnEnb).autn = autnEnb ↔
      Verifies (aes k) opc rand autnEnb := by
  rw [genAuthResMilenage_eq, eq_comm, block_eq_append_iff]
  exact ⟨fun hparts ↦ hparts.2.2, fun hverifies ↦ ⟨rfl, rfl, hverifies⟩⟩

end Standard

end Disguise.Authentication.Enclave
