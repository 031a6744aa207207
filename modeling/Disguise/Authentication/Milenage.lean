import Disguise.Memory.BitString

/-!
# The Milenage functions

The authentication functions of 3GPP TS 35.206 over any cipher of 16-octet blocks, as the standard
states them: a block is a string of 128 bits, `rot` is a rotation of that string to the left, the
constants `c1` to `c4` have at most one bit set, and `OUT1` to `OUT4` are encryptions of masked and
rotated blocks. `r1` and `c1` belong to `f1`, `r2` and `c2` to `f2` and `f5`, `r3` and `c3` to `f3`,
`r4` and `c4` to `f4`.

`Genuine` says that an authentication token was built for some sequence number, `Verifies` that the
code in it is the one a receiver computes. They are the same (`genuine_iff_verifies`).
-/

set_option autoImplicit false
set_option relaxedAutoImplicit false

namespace Disguise.Milenage

open Memory

/-- A block of the cipher. -/
abbrev Block := Octets 16

/-- The block of zeros. -/
def zeroBlock : Block := List.Vector.replicate 16 0

/-! ### The parts of a block -/

theorem firstHalf_bounds : 0 + 8 ≤ 16 := by decide

theorem secondHalf_bounds : 8 + 8 ≤ 16 := by decide

theorem sqn_bounds : 0 + 6 ≤ 16 := by decide

theorem amf_bounds : 6 + 2 ≤ 16 := by decide

/-! ### The functions -/

section Functions

variable (cipher : Block → Block) (opc rand : Block)

/-- The block of a constant `ci`. -/
def constant (number : ℕ) : Block := ofBits (BitVec.ofNat 128 number)

/-- `TEMP`. -/
def temp : Block := cipher (xorOctets rand opc)

/-- `IN1`. -/
def in1 (sqn : Octets 6) (amf : Octets 2) : Block := sqn ++ amf ++ sqn ++ amf

/-- `OUT1`, with `r1 = 64` and `c1 = 0`. -/
def out1 (sqn : Octets 6) (amf : Octets 2) : Block :=
  xorOctets (cipher (xorOctets (xorOctets (temp cipher opc rand)
    (rotateBits (xorOctets (in1 sqn amf) opc) 64)) (constant 0))) opc

/-- `OUT2`, `OUT3` and `OUT4`, for a rotation and a constant. -/
def out (rotation number : ℕ) : Block :=
  xorOctets (cipher (xorOctets (rotateBits (xorOctets (temp cipher opc rand) opc) rotation)
    (constant number))) opc

/-- The network authentication function: the first 64 bits of `OUT1`. -/
def f1 (sqn : Octets 6) (amf : Octets 2) : Octets 8 := slice (out1 cipher opc rand sqn amf) 0 8

/-- The response function: the last 64 bits of `OUT2`, with `r2 = 0` and `c2 = 1`. -/
def f2 : Octets 8 := slice (out cipher opc rand 0 1) 8 8

/-- The cipher key function: `OUT3`, with `r3 = 32` and `c3 = 2`. -/
def f3 : Block := out cipher opc rand 32 2

/-- The integrity key function: `OUT4`, with `r4 = 64` and `c4 = 4`. -/
def f4 : Block := out cipher opc rand 64 4

/-- The anonymity key function: the first 48 bits of `OUT2`. -/
def f5 : Octets 6 := slice (out cipher opc rand 0 1) 0 6

/-- The values of `f2`, `f3`, `f4` and `f5`, which depend on the challenge alone. -/
structure F2345 where
  res : Octets 8
  ck : Block
  ik : Block
  ak : Octets 6
  deriving DecidableEq

/-- `f2`, `f3`, `f4` and `f5` together. -/
def f2345 : F2345 where
  res := f2 cipher opc rand
  ck := f3 cipher opc rand
  ik := f4 cipher opc rand
  ak := f5 cipher opc rand

/-- What a card answers to a challenge: RES, the masked sequence number, CK and IK. -/
structure Response where
  res : Octets 8
  akXorSqn : Octets 6
  ck : Block
  ik : Block
  deriving DecidableEq

/-- The response the standard prescribes. The masked sequence number is the one in the token. -/
def respond (autn : Block) : Response where
  res := f2 cipher opc rand
  akXorSqn := slice autn 0 6
  ck := f3 cipher opc rand
  ik := f4 cipher opc rand

end Functions

/-! ### Authentication tokens -/

section Tokens

variable (cipher : Block → Block) (opc rand : Block)

/-- The token for a sequence number and a management field. -/
def token (sqn : Octets 6) (amf : Octets 2) : Block :=
  xorOctets sqn (f5 cipher opc rand) ++ amf ++ f1 cipher opc rand sqn amf

/-- The token was built for some sequence number and management field. -/
def Genuine (autn : Block) : Prop :=
  ∃ (sqn : Octets 6) (amf : Octets 2), autn = token cipher opc rand sqn amf

/-- The code in the token is the one computed from the sequence number and the management field in
it. -/
def Verifies (autn : Block) : Prop :=
  slice autn 8 8 =
    f1 cipher opc rand (xorOctets (slice autn 0 6) (f5 cipher opc rand)) (slice autn 6 2)

instance (autn : Block) : Decidable (Verifies cipher opc rand autn) :=
  inferInstanceAs (Decidable (_ = _))

/-- A block is its three parts in order. -/
theorem block_eq_append_iff (block : Block) (first : Octets 6) (second : Octets 2)
    (third : Octets 8) :
    block = first ++ second ++ third ↔
      slice block 0 6 = first ∧ slice block 6 2 = second ∧ slice block 8 8 = third := by
  rw [eq_append_iff (n := 8) (m := 8) block (first ++ second) third,
    eq_append_iff (n := 6) (m := 2) (slice block 0 8) first second, and_assoc]
  have hfirst : slice (slice block 0 8) 0 6 = slice block 0 6 := slice_slice _ _ _
  have hsecond : slice (slice block 0 8) 6 2 = slice block 6 2 := slice_slice _ _ _
  rw [hfirst, hsecond]

/-- A token is genuine exactly when it verifies: the sequence number is recovered by taking the mask
off. -/
theorem genuine_iff_verifies (autn : Block) :
    Genuine cipher opc rand autn ↔ Verifies cipher opc rand autn := by
  constructor
  · rintro ⟨sqn, amf, htoken⟩
    obtain ⟨hsqn, hamf, hmac⟩ := (block_eq_append_iff _ _ _ _).mp htoken
    rw [Verifies, hsqn, hamf, hmac, xorOctets_cancel]
  · intro hverifies
    refine ⟨xorOctets (slice autn 0 6) (f5 cipher opc rand), slice autn 6 2,
      (block_eq_append_iff _ _ _ _).mpr ⟨?_, rfl, hverifies⟩⟩
    rw [xorOctets_cancel]

end Tokens

end Disguise.Milenage
