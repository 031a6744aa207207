import Disguise.Memory.Octets
import Mathlib.Data.Fin.VecNotation

/-!
# The AES of the enclave

`AES_init_ctx`, `AES_ECB_encrypt` and `AES_ECB_decrypt` of `aes.c`, compiled for keys of 128 bits.
The state is a matrix of four columns of four bytes over the 16 bytes of the block, so cell `(i, j)`
is byte `4 * i + j`. Decryption works on the state and the key schedule of encryption, with
`InvCipher` running the rounds backwards.

The enclave calls only `AES_init_ctx` and `AES_ECB_encrypt`.
-/

set_option autoImplicit false
set_option relaxedAutoImplicit false

namespace Disguise.Authentication.Aes

open Memory

/-- `sbox`. -/
def sbox : List UInt8 := [
  0x63, 0x7c, 0x77, 0x7b, 0xf2, 0x6b, 0x6f, 0xc5, 0x30, 0x01, 0x67, 0x2b, 0xfe, 0xd7, 0xab, 0x76,
  0xca, 0x82, 0xc9, 0x7d, 0xfa, 0x59, 0x47, 0xf0, 0xad, 0xd4, 0xa2, 0xaf, 0x9c, 0xa4, 0x72, 0xc0,
  0xb7, 0xfd, 0x93, 0x26, 0x36, 0x3f, 0xf7, 0xcc, 0x34, 0xa5, 0xe5, 0xf1, 0x71, 0xd8, 0x31, 0x15,
  0x04, 0xc7, 0x23, 0xc3, 0x18, 0x96, 0x05, 0x9a, 0x07, 0x12, 0x80, 0xe2, 0xeb, 0x27, 0xb2, 0x75,
  0x09, 0x83, 0x2c, 0x1a, 0x1b, 0x6e, 0x5a, 0xa0, 0x52, 0x3b, 0xd6, 0xb3, 0x29, 0xe3, 0x2f, 0x84,
  0x53, 0xd1, 0x00, 0xed, 0x20, 0xfc, 0xb1, 0x5b, 0x6a, 0xcb, 0xbe, 0x39, 0x4a, 0x4c, 0x58, 0xcf,
  0xd0, 0xef, 0xaa, 0xfb, 0x43, 0x4d, 0x33, 0x85, 0x45, 0xf9, 0x02, 0x7f, 0x50, 0x3c, 0x9f, 0xa8,
  0x51, 0xa3, 0x40, 0x8f, 0x92, 0x9d, 0x38, 0xf5, 0xbc, 0xb6, 0xda, 0x21, 0x10, 0xff, 0xf3, 0xd2,
  0xcd, 0x0c, 0x13, 0xec, 0x5f, 0x97, 0x44, 0x17, 0xc4, 0xa7, 0x7e, 0x3d, 0x64, 0x5d, 0x19, 0x73,
  0x60, 0x81, 0x4f, 0xdc, 0x22, 0x2a, 0x90, 0x88, 0x46, 0xee, 0xb8, 0x14, 0xde, 0x5e, 0x0b, 0xdb,
  0xe0, 0x32, 0x3a, 0x0a, 0x49, 0x06, 0x24, 0x5c, 0xc2, 0xd3, 0xac, 0x62, 0x91, 0x95, 0xe4, 0x79,
  0xe7, 0xc8, 0x37, 0x6d, 0x8d, 0xd5, 0x4e, 0xa9, 0x6c, 0x56, 0xf4, 0xea, 0x65, 0x7a, 0xae, 0x08,
  0xba, 0x78, 0x25, 0x2e, 0x1c, 0xa6, 0xb4, 0xc6, 0xe8, 0xdd, 0x74, 0x1f, 0x4b, 0xbd, 0x8b, 0x8a,
  0x70, 0x3e, 0xb5, 0x66, 0x48, 0x03, 0xf6, 0x0e, 0x61, 0x35, 0x57, 0xb9, 0x86, 0xc1, 0x1d, 0x9e,
  0xe1, 0xf8, 0x98, 0x11, 0x69, 0xd9, 0x8e, 0x94, 0x9b, 0x1e, 0x87, 0xe9, 0xce, 0x55, 0x28, 0xdf,
  0x8c, 0xa1, 0x89, 0x0d, 0xbf, 0xe6, 0x42, 0x68, 0x41, 0x99, 0x2d, 0x0f, 0xb0, 0x54, 0xbb, 0x16]

/-- `Rcon`. -/
def rcon : List UInt8 := [0x8d, 0x01, 0x02, 0x04, 0x08, 0x10, 0x20, 0x40, 0x80, 0x1b, 0x36]

/-- `getSBoxValue`. -/
def getSBoxValue (num : UInt8) : UInt8 := sbox.getD num.toNat 0

/-! ### The key schedule -/

/-- Round `i` of the second loop of `KeyExpansion`: the four bytes of word `i` behind the `4 * i`
bytes that are there. -/
def expandWord (roundKey : List UInt8) (i : ℕ) : List UInt8 :=
  let tempa (j : ℕ) := roundKey.getD ((i - 1) * 4 + j) 0
  let word :=
    if i % 4 = 0 then
      -- RotWord(), then SubWord(), then the round constant on the first byte
      [getSBoxValue (tempa 1) ^^^ rcon.getD (i / 4) 0, getSBoxValue (tempa 2),
        getSBoxValue (tempa 3), getSBoxValue (tempa 0)]
    else
      [tempa 0, tempa 1, tempa 2, tempa 3]
  roundKey ++ List.zipWith (· ^^^ ·) (window roundKey ((i - 4) * 4) 4) word

/-- `KeyExpansion`: the key, and 40 words more. -/
def keyExpansion (key : Octets 16) : List UInt8 :=
  (List.range' 4 40).foldl expandWord key.toList

/-! ### The rounds -/

/-- `(*state)[i][j]`. -/
def cell (state : Octets 16) (i j : Fin 4) : UInt8 := state.get ⟨4 * i + j, by omega⟩

/-- The state with the given cells. -/
def ofCells (value : Fin 4 → Fin 4 → UInt8) : Octets 16 :=
  List.Vector.ofFn fun place ↦ value ⟨place / 4, by omega⟩ ⟨place % 4, by omega⟩

/-- `AddRoundKey`. -/
def addRoundKey (round : ℕ) (state : Octets 16) (roundKey : List UInt8) : Octets 16 :=
  List.Vector.ofFn fun place ↦ state.get place ^^^ roundKey.getD (round * 16 + place) 0

/-- `SubBytes`. -/
def subBytes (state : Octets 16) : Octets 16 := state.map getSBoxValue

/-- `ShiftRows`: row `j` is shifted to the left by `j` columns, around the end. -/
def shiftRows (state : Octets 16) : Octets 16 := ofCells fun i j ↦ cell state (i + j) j

/-- `xtime`. -/
def xtime (x : UInt8) : UInt8 := (x <<< 1) ^^^ (((x >>> 7) &&& 1) * 0x1b)

/-- `MixColumns`. The code updates a column in place from its first cell on; what it reads for a
cell are cells not updated yet, or the copy `t` of the first one. -/
def mixColumns (state : Octets 16) : Octets 16 := ofCells fun i j ↦
  let tmp := cell state i 0 ^^^ cell state i 1 ^^^ cell state i 2 ^^^ cell state i 3
  let tm := xtime (cell state i j ^^^ cell state i (j + 1))
  cell state i j ^^^ (tm ^^^ tmp)

/-- One of the rounds that mix columns. -/
def mixingRound (roundKey : List UInt8) (state : Octets 16) (round : ℕ) : Octets 16 :=
  addRoundKey round (mixColumns (shiftRows (subBytes state))) roundKey

/-- `Cipher`: ten rounds, the last one without `MixColumns`. -/
def cipher (state : Octets 16) (roundKey : List UInt8) : Octets 16 :=
  let mixed := (List.range' 1 9).foldl (mixingRound roundKey) (addRoundKey 0 state roundKey)
  addRoundKey 10 (shiftRows (subBytes mixed)) roundKey

/-- `AES_ECB_encrypt` with the context that `AES_init_ctx` makes of a key. -/
def encrypt (key block : Octets 16) : Octets 16 := cipher block (keyExpansion key)

-- the first test vector in the header of `aes.c`
example :
    (encrypt
      ⟨[0x2b, 0x7e, 0x15, 0x16, 0x28, 0xae, 0xd2, 0xa6, 0xab, 0xf7, 0x15, 0x88, 0x09, 0xcf, 0x4f,
        0x3c], rfl⟩
      ⟨[0x6b, 0xc1, 0xbe, 0xe2, 0x2e, 0x40, 0x9f, 0x96, 0xe9, 0x3d, 0x7e, 0x11, 0x73, 0x93, 0x17,
        0x2a], rfl⟩).toList =
      [0x3a, 0xd7, 0x7b, 0xb4, 0x0d, 0x7a, 0x36, 0x60, 0xa8, 0x9e, 0xca, 0xf3, 0x24, 0x66, 0xef,
        0x97] := by
  decide +kernel

/-! ### Decryption -/

/-- `rsbox`. -/
def rsbox : List UInt8 := [
  0x52, 0x09, 0x6a, 0xd5, 0x30, 0x36, 0xa5, 0x38, 0xbf, 0x40, 0xa3, 0x9e, 0x81, 0xf3, 0xd7, 0xfb,
  0x7c, 0xe3, 0x39, 0x82, 0x9b, 0x2f, 0xff, 0x87, 0x34, 0x8e, 0x43, 0x44, 0xc4, 0xde, 0xe9, 0xcb,
  0x54, 0x7b, 0x94, 0x32, 0xa6, 0xc2, 0x23, 0x3d, 0xee, 0x4c, 0x95, 0x0b, 0x42, 0xfa, 0xc3, 0x4e,
  0x08, 0x2e, 0xa1, 0x66, 0x28, 0xd9, 0x24, 0xb2, 0x76, 0x5b, 0xa2, 0x49, 0x6d, 0x8b, 0xd1, 0x25,
  0x72, 0xf8, 0xf6, 0x64, 0x86, 0x68, 0x98, 0x16, 0xd4, 0xa4, 0x5c, 0xcc, 0x5d, 0x65, 0xb6, 0x92,
  0x6c, 0x70, 0x48, 0x50, 0xfd, 0xed, 0xb9, 0xda, 0x5e, 0x15, 0x46, 0x57, 0xa7, 0x8d, 0x9d, 0x84,
  0x90, 0xd8, 0xab, 0x00, 0x8c, 0xbc, 0xd3, 0x0a, 0xf7, 0xe4, 0x58, 0x05, 0xb8, 0xb3, 0x45, 0x06,
  0xd0, 0x2c, 0x1e, 0x8f, 0xca, 0x3f, 0x0f, 0x02, 0xc1, 0xaf, 0xbd, 0x03, 0x01, 0x13, 0x8a, 0x6b,
  0x3a, 0x91, 0x11, 0x41, 0x4f, 0x67, 0xdc, 0xea, 0x97, 0xf2, 0xcf, 0xce, 0xf0, 0xb4, 0xe6, 0x73,
  0x96, 0xac, 0x74, 0x22, 0xe7, 0xad, 0x35, 0x85, 0xe2, 0xf9, 0x37, 0xe8, 0x1c, 0x75, 0xdf, 0x6e,
  0x47, 0xf1, 0x1a, 0x71, 0x1d, 0x29, 0xc5, 0x89, 0x6f, 0xb7, 0x62, 0x0e, 0xaa, 0x18, 0xbe, 0x1b,
  0xfc, 0x56, 0x3e, 0x4b, 0xc6, 0xd2, 0x79, 0x20, 0x9a, 0xdb, 0xc0, 0xfe, 0x78, 0xcd, 0x5a, 0xf4,
  0x1f, 0xdd, 0xa8, 0x33, 0x88, 0x07, 0xc7, 0x31, 0xb1, 0x12, 0x10, 0x59, 0x27, 0x80, 0xec, 0x5f,
  0x60, 0x51, 0x7f, 0xa9, 0x19, 0xb5, 0x4a, 0x0d, 0x2d, 0xe5, 0x7a, 0x9f, 0x93, 0xc9, 0x9c, 0xef,
  0xa0, 0xe0, 0x3b, 0x4d, 0xae, 0x2a, 0xf5, 0xb0, 0xc8, 0xeb, 0xbb, 0x3c, 0x83, 0x53, 0x99, 0x61,
  0x17, 0x2b, 0x04, 0x7e, 0xba, 0x77, 0xd6, 0x26, 0xe1, 0x69, 0x14, 0x63, 0x55, 0x21, 0x0c, 0x7d]

/-- `getSBoxInvert`. -/
def getSBoxInvert (num : UInt8) : UInt8 := rsbox.getD num.toNat 0

/-- `Multiply`, which takes five bits of its second argument into account. -/
def multiply (x y : UInt8) : UInt8 :=
  let bit (place : UInt8) : UInt8 := (y >>> place) &&& 1
  (bit 0 * x) ^^^ (bit 1 * xtime x) ^^^ (bit 2 * xtime (xtime x)) ^^^
    (bit 3 * xtime (xtime (xtime x))) ^^^ (bit 4 * xtime (xtime (xtime (xtime x))))

/-- `InvMixColumns`. -/
def invMixColumns (state : Octets 16) : Octets 16 := ofCells fun i ↦
  let a := cell state i 0
  let b := cell state i 1
  let c := cell state i 2
  let d := cell state i 3
  ![multiply a 0x0e ^^^ multiply b 0x0b ^^^ multiply c 0x0d ^^^ multiply d 0x09,
    multiply a 0x09 ^^^ multiply b 0x0e ^^^ multiply c 0x0b ^^^ multiply d 0x0d,
    multiply a 0x0d ^^^ multiply b 0x09 ^^^ multiply c 0x0e ^^^ multiply d 0x0b,
    multiply a 0x0b ^^^ multiply b 0x0d ^^^ multiply c 0x09 ^^^ multiply d 0x0e]

/-- `InvSubBytes`. -/
def invSubBytes (state : Octets 16) : Octets 16 := state.map getSBoxInvert

/-- `InvShiftRows`: row `j` is shifted to the right by `j` columns, around the end. -/
def invShiftRows (state : Octets 16) : Octets 16 := ofCells fun i j ↦ cell state (i - j) j

/-- One of the rounds that mix columns. -/
def unmixingRound (roundKey : List UInt8) (state : Octets 16) (round : ℕ) : Octets 16 :=
  invMixColumns (addRoundKey round (invSubBytes (invShiftRows state)) roundKey)

/-- `InvCipher`: ten rounds from the last to the first, the last one without `InvMixColumns`. -/
def invCipher (state : Octets 16) (roundKey : List UInt8) : Octets 16 :=
  let unmixed :=
    (List.range' 1 9).reverse.foldl (unmixingRound roundKey) (addRoundKey 10 state roundKey)
  addRoundKey 0 (invSubBytes (invShiftRows unmixed)) roundKey

/-- `AES_ECB_decrypt` with the context that `AES_init_ctx` makes of a key. -/
def decrypt (key block : Octets 16) : Octets 16 := invCipher block (keyExpansion key)

end Disguise.Authentication.Aes
