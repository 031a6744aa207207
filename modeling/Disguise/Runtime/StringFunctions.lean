import Disguise.Memory.Flat
import Disguise.Process.Loop

/-!
# Memory functions of the runtime

`memset` and `memcpy` of the `string.c` that replaces the one of the runtime. Both have a path that
works by words: `memset` if its pointer and its length are multiples of eight, `memcpy` if its two
pointers are, with what is left copied by bytes. The memory is flat, and pointers and lengths are
64-bit numbers that wrap around; `memcpy` stops its words seven bytes before the end, which is why
its destination must not be null.

A loop by words and a loop by bytes are the same loop with another number of bytes in a turn, so
there is one lemma for the loops of `memset` (`fillLoop_fills`) and one for those of `memcpy`
(`copyLoop_copies`). `wordwise_agrees_bytewise` says that both functions do what they mean byte for
byte.

The loops compare their pointer with the address behind the region. A region up to the last address
has none, and `memset` does not write to it (`memset_at_top`).

`strlen`, `memcmp` and `memmove` are in `Disguise.Runtime.MemoryMoves`.
-/

set_option autoImplicit false
set_option relaxedAutoImplicit false

namespace Disguise.Runtime

open Memory Process

/-- `sizeof(uintptr_t)`. -/
def wordSize : UInt64 := 8

/-! ### `memset` -/

/-- The pointer and the memory in a loop of `memset`. -/
structure FillLoop where
  d : UInt64
  memory : FlatMemory

/-- The byte a value of type `int` is stored as. -/
def charOf (byte : Int32) : UInt8 := byte.toInt8.toUInt8

/-- A word of eight equal bytes, made from a word with one of them. -/
def spread (word : UInt64) : UInt64 :=
  let word := word ||| word <<< 8
  let word := word ||| word <<< 16
  word ||| word <<< 16 <<< 16

/-- The loop over words. -/
def fillWords (fuel : ℕ) (stop word : UInt64) : FillLoop → Option FillLoop :=
  whileLoop (fun loop ↦ loop.d < stop)
    (fun loop ↦ ⟨loop.d + wordSize, storeWord loop.memory loop.d word⟩) fuel

/-- The loop over bytes. -/
def fillBytes (fuel : ℕ) (stop : UInt64) (byte : UInt8) : FillLoop → Option FillLoop :=
  whileLoop (fun loop ↦ loop.d < stop)
    (fun loop ↦ ⟨loop.d + 1, storeByte loop.memory loop.d byte⟩) fuel

/-- `memset`: the value it returns and the memory it leaves, if its loop ends after at most a number
of turns. -/
def memset (fuel : ℕ) (dest : UInt64) (byte : Int32) (len : UInt64) (memory : FlatMemory) :
    Option (UInt64 × FlatMemory) := do
  let filled ←
    if (dest ||| len) &&& (wordSize - 1) = 0 then
      fillWords fuel (dest + len) (spread (byte &&& 0xFF).toInt64.toUInt64) ⟨dest, memory⟩
    else
      fillBytes fuel (dest + len) (charOf byte) ⟨dest, memory⟩
  return (dest, filled.memory)

/-! ### `memcpy` -/

/-- The pointers and the memory in a loop of `memcpy`. -/
structure CopyLoop where
  d : UInt64
  s : UInt64
  memory : FlatMemory

/-- The loop over words. -/
def copyWords (fuel : ℕ) (stop : UInt64) : CopyLoop → Option CopyLoop :=
  whileLoop (fun loop ↦ loop.d < stop)
    (fun loop ↦ ⟨loop.d + wordSize, loop.s + wordSize,
      storeWord loop.memory loop.d (loadWord loop.memory loop.s)⟩) fuel

/-- The loop over bytes. -/
def copyBytes (fuel : ℕ) (stop : UInt64) : CopyLoop → Option CopyLoop :=
  whileLoop (fun loop ↦ loop.d < stop)
    (fun loop ↦ ⟨loop.d + 1, loop.s + 1, storeByte loop.memory loop.d (loop.memory loop.s)⟩) fuel

/-- What `memcpy` copies by words: all but the last bytes if both pointers are aligned, and nothing
if they are not. -/
def copyAligned (fuel : ℕ) (dest src len : UInt64) (memory : FlatMemory) : Option CopyLoop :=
  if (dest ||| src) &&& (wordSize - 1) = 0 then
    copyWords fuel (dest + len - (wordSize - 1)) ⟨dest, src, memory⟩
  else
    some ⟨dest, src, memory⟩

/-- `memcpy`: the value it returns and the memory it leaves, if each of its loops ends after at most
a number of turns. -/
def memcpy (fuel : ℕ) (dest src len : UInt64) (memory : FlatMemory) :
    Option (UInt64 × FlatMemory) := do
  let copied ← copyAligned fuel dest src len memory
  let copied ← copyBytes fuel (dest + len) copied
  return (dest, copied.memory)

/-! ### Alignment and words -/

/-- The test of both functions for alignment. -/
theorem or_and_eq_zero_iff (first second : UInt64) :
    (first ||| second) &&& (wordSize - 1) = 0 ↔
      first.toNat % 8 = 0 ∧ second.toNat % 8 = 0 := by
  have hmask : (wordSize - 1).toNat = 2 ^ 3 - 1 := rfl
  rw [← UInt64.toNat_inj, UInt64.toNat_and, UInt64.toNat_or, hmask, Nat.and_or_distrib_right,
    Nat.and_two_pow_sub_one_eq_mod, Nat.and_two_pow_sub_one_eq_mod]
  exact Nat.or_eq_zero_iff

theorem toNat_charOf (byte : Int32) : (charOf byte).toNat = byte.toBitVec.toNat % 256 := by
  have htruncated : (byte.toBitVec.signExtend 8).toNat = byte.toBitVec.toNat % 256 := by
    rw [BitVec.signExtend_eq_setWidth_of_le _ (by decide), BitVec.toNat_setWidth]
  exact htruncated

/-- A value is stored as its residue modulo 256. -/
theorem charOf_eq_emod (byte : Int32) : ((charOf byte).toNat : ℤ) = byte.toInt % 256 := by
  have hvalue : byte.toInt = byte.toBitVec.toInt := rfl
  rw [toNat_charOf, hvalue, BitVec.toInt_eq_toNat_cond]
  split <;> omega

/-- The word the spreading begins with. -/
theorem lowByte_eq (byte : Int32) :
    (byte &&& 0xFF).toInt64.toUInt64 = UInt64.ofNat (charOf byte).toNat := by
  have hmask : (255#32).toNat = 2 ^ 8 - 1 := rfl
  have hsign : (byte.toBitVec &&& 255#32).msb = false := by
    rw [BitVec.msb_and]
    exact Bool.and_false _
  have hlow : ((byte.toBitVec &&& 255#32).signExtend 64).toNat = (charOf byte).toNat := by
    rw [BitVec.signExtend_eq_setWidth_of_msb_false hsign, BitVec.toNat_setWidth, BitVec.toNat_and,
      hmask, Nat.and_two_pow_sub_one_eq_mod, toNat_charOf]
    omega
  have hbyte := (charOf byte).toNat_lt
  rw [← UInt64.toNat_inj, UInt64.toNat_ofNat_of_lt' (hbyte.trans (by decide))]
  exact hlow

theorem toNat_spread :
    ∀ byte < 256, (spread (UInt64.ofNat byte)).toNat = byte * 0x0101010101010101 := by
  decide +kernel

/-- The word that is stored has eight bytes with the value. -/
theorem storeWord_spread (memory : FlatMemory) (address : UInt64) (byte : Int32) :
    storeWord memory address (spread (byte &&& 0xFF).toInt64.toUInt64) =
      writeBytes memory address (List.replicate 8 (charOf byte)) := by
  have hword : (spread (UInt64.ofNat (charOf byte).toNat)).toNat =
      littleEndian (List.replicate 8 (charOf byte)) := by
    rw [toNat_spread _ (charOf byte).toNat_lt]
    simp only [littleEndian, List.replicate, List.map_cons, List.map_nil, Nat.ofDigits_cons,
      Nat.ofDigits_nil]
    omega
  have hbytes := toLittleEndian_littleEndian (List.replicate 8 (charOf byte))
  rw [List.length_replicate] at hbytes
  rw [storeWord, lowByte_eq, hword, hbytes]

/-! ### The loops -/

/-- The address behind a region, where it does not wrap around. -/
theorem toNat_add {dest len : UInt64} (hend : dest.toNat + len.toNat < 2 ^ 64) :
    (dest + len).toNat = dest.toNat + len.toNat := by
  rw [UInt64.toNat_add, Nat.mod_eq_of_lt hend]

section Fill

variable {dest len : UInt64} {memory : FlatMemory} {value : UInt8} {size : ℕ} {loop : FillLoop}

/-- A loop of `memset` has filled the cells in front of its pointer, in a whole number of turns. -/
structure Filling (value : UInt8) (dest len : UInt64) (memory : FlatMemory) (size : ℕ)
    (loop : FillLoop) : Prop where
  at_least : dest.toNat ≤ loop.d.toNat
  at_most : loop.d.toNat ≤ dest.toNat + len.toNat
  whole : size ∣ loop.d.toNat - dest.toNat
  filled : Replaced (fun _ ↦ value) dest (loop.d.toNat - dest.toNat) memory loop.memory

/-- A turn fills the next cells, as many as it moves its pointer.

Assumes: the region does not wrap around and is a whole number of turns. -/
theorem Filling.turn (hfilling : Filling value dest len memory size loop)
    (hend : dest.toNat + len.toNat < 2 ^ 64) (hwhole : size ∣ len.toNat)
    (hrunning : loop.d.toNat < dest.toNat + len.toNat) :
    Filling value dest len memory size
      ⟨loop.d + UInt64.ofNat size, writeBytes loop.memory loop.d (List.replicate size value)⟩ ∧
      (loop.d + UInt64.ofNat size).toNat = loop.d.toNat + size := by
  obtain ⟨hleast, hmost, hcount, hfilled⟩ := hfilling
  have hroom : size ≤ len.toNat - (loop.d.toNat - dest.toNat) :=
    Nat.le_of_dvd (by omega) (Nat.dvd_sub hwhole hcount)
  have hmoved : (loop.d + UInt64.ofNat size).toNat = loop.d.toNat + size :=
    toNat_add_ofNat (by omega)
  have hnext : loop.d.toNat + size - dest.toNat = loop.d.toNat - dest.toNat + size := by omega
  have hlength : (List.replicate size value).length = size := List.length_replicate
  have hbytes : ∀ address, InRegion loop.d (List.replicate size value).length address →
      (List.replicate size value)[address.toNat - loop.d.toNat]? = some value := by
    intro address haddress
    rw [InRegion, hlength] at haddress
    rw [List.getElem?_replicate, if_pos (by omega)]
  have hwritten := hfilled.writeBytes loop.d (List.replicate size value) (by omega)
    (by omega) hbytes
  rw [hlength] at hwritten
  refine ⟨⟨?_, ?_, ?_, ?_⟩, hmoved⟩
  · rw [hmoved]
    omega
  · rw [hmoved]
    omega
  · rw [hmoved, hnext]
    exact Nat.dvd_add hcount dvd_rfl
  · rw [hmoved, hnext]
    exact hwritten

/-- A loop of `memset` fills its whole region. -/
theorem fillLoop_fills (value : UInt8) (hsize : 0 < size) (hend : dest.toNat + len.toNat < 2 ^ 64)
    (hwhole : size ∣ len.toNat) {fuel : ℕ} (hfuel : len.toNat ≤ fuel) (memory : FlatMemory) :
    ∃ last, whileLoop (fun loop ↦ loop.d < dest + len)
        (fun loop ↦ FillLoop.mk (loop.d + UInt64.ofNat size)
          (writeBytes loop.memory loop.d (List.replicate size value))) fuel ⟨dest, memory⟩ =
        some last ∧ Replaced (fun _ ↦ value) dest len.toNat memory last.memory := by
  have hbound := toNat_add hend
  have hstart : Filling value dest len memory size ⟨dest, memory⟩ := by
    refine ⟨Nat.le_refl _, Nat.le_add_right _ _, ?_, ?_⟩
    · rw [Nat.sub_self]
      exact Nat.dvd_zero size
    · rw [Nat.sub_self]
      exact replaced_zero _ dest memory
  have hturn (loop : FillLoop) (hfilling : Filling value dest len memory size loop)
      (hrunning : loop.d < dest + len) :
      Filling value dest len memory size
        ⟨loop.d + UInt64.ofNat size, writeBytes loop.memory loop.d (List.replicate size value)⟩ ∧
        dest.toNat + len.toNat - (loop.d + UInt64.ofNat size).toNat <
          dest.toNat + len.toNat - loop.d.toNat := by
    rw [UInt64.lt_iff_toNat_lt, hbound] at hrunning
    obtain ⟨hkept, hmoved⟩ := hfilling.turn hend hwhole hrunning
    exact ⟨hkept, by omega⟩
  have hturns : dest.toNat + len.toNat - dest.toNat ≤ fuel := by omega
  obtain ⟨last, hlast, hfilling, hended⟩ := whileLoop_of_invariant
    (fun loop ↦ dest.toNat + len.toNat - loop.d.toNat) hturn hstart hturns
  refine ⟨last, hlast, ?_⟩
  rw [UInt64.lt_iff_toNat_lt, hbound] at hended
  have hmost := hfilling.at_most
  have hcount : last.d.toNat - dest.toNat = len.toNat := by omega
  rw [← hcount]
  exact hfilling.filled

end Fill

section Copy

variable {dest src len : UInt64} {memory : FlatMemory} {size : ℕ} {loop : CopyLoop}

/-- Two regions of the same length have no address in common. -/
def Apart (first second : UInt64) (count : ℕ) : Prop :=
  ∀ address, InRegion first count address → ¬ InRegion second count address

/-- A loop of `memcpy` has copied the cells in front of its pointers. -/
structure Copying (dest src len : UInt64) (memory : FlatMemory) (loop : CopyLoop) : Prop where
  at_least : dest.toNat ≤ loop.d.toNat
  at_most : loop.d.toNat ≤ dest.toNat + len.toNat
  together : loop.s = src + (loop.d - dest)
  copied : Replaced (fun address ↦ memory (src + (address - dest))) dest
    (loop.d.toNat - dest.toNat) memory loop.memory

/-- A turn reads what the source region was at the start: it is never written to.

Assumes: the regions do not wrap around and have no address in common. -/
theorem Copying.reads (hcopying : Copying dest src len memory loop)
    (hsrcEnd : src.toNat + len.toNat ≤ 2 ^ 64) (hapart : Apart src dest len.toNat)
    (hroom : loop.d.toNat + size ≤ dest.toNat + len.toNat) {address : UInt64}
    (haddress : InRegion loop.d size address) :
    (readBytes loop.memory loop.s size)[address.toNat - loop.d.toNat]? =
      some (memory (src + (address - dest))) := by
  obtain ⟨hleast, hmost, htogether, hcopied⟩ := hcopying
  rw [InRegion] at haddress
  have hoffset : (address - dest).toNat = address.toNat - dest.toNat :=
    UInt64.toNat_sub_of_le _ _ (UInt64.le_iff_toNat_le.mpr (by omega))
  have hcell : (src + (address - dest)).toNat = src.toNat + (address.toNat - dest.toNat) := by
    rw [UInt64.toNat_add, hoffset, Nat.mod_eq_of_lt (by omega)]
  have hold : loop.memory (src + (address - dest)) = memory (src + (address - dest)) := by
    refine hcopied.outside _ fun hinside ↦ hapart (src + (address - dest)) ?_ ?_
    · rw [InRegion]
      omega
    · rw [InRegion] at hinside ⊢
      omega
  have hread : loop.s + UInt64.ofNat (address.toNat - loop.d.toNat) = src + (address - dest) := by
    have hplace : UInt64.ofNat (address.toNat - loop.d.toNat) = address - loop.d := by
      rw [UInt64.ofNat_sub (by omega), UInt64.ofNat_toNat, UInt64.ofNat_toNat]
    rw [htogether, hplace]
    grind
  rw [readBytes, List.getElem?_map, List.getElem?_range (by omega), Option.map_some, hread, hold]

/-- A turn copies the next cells, as many as it moves its pointers.

Assumes: there are so many, the regions do not wrap around and have no address in common. -/
theorem Copying.turn (hcopying : Copying dest src len memory loop)
    (hend : dest.toNat + len.toNat < 2 ^ 64) (hsrcEnd : src.toNat + len.toNat ≤ 2 ^ 64)
    (hapart : Apart src dest len.toNat)
    (hroom : loop.d.toNat + size ≤ dest.toNat + len.toNat) :
    Copying dest src len memory
      ⟨loop.d + UInt64.ofNat size, loop.s + UInt64.ofNat size,
        writeBytes loop.memory loop.d (readBytes loop.memory loop.s size)⟩ ∧
      (loop.d + UInt64.ofNat size).toNat = loop.d.toNat + size := by
  have hleast := hcopying.at_least
  have hmoved : (loop.d + UInt64.ofNat size).toNat = loop.d.toNat + size :=
    toNat_add_ofNat (by omega)
  have hnext : loop.d.toNat + size - dest.toNat = loop.d.toNat - dest.toNat + size := by omega
  have hlength := length_readBytes loop.memory loop.s size
  have hbytes : ∀ address, InRegion loop.d (readBytes loop.memory loop.s size).length address →
      (readBytes loop.memory loop.s size)[address.toNat - loop.d.toNat]? =
        some (memory (src + (address - dest))) := by
    intro address haddress
    rw [hlength] at haddress
    exact hcopying.reads hsrcEnd hapart hroom haddress
  have hwritten := hcopying.copied.writeBytes loop.d (readBytes loop.memory loop.s size) (by omega)
    (by omega) hbytes
  rw [hlength] at hwritten
  refine ⟨⟨?_, ?_, ?_, ?_⟩, hmoved⟩
  · rw [hmoved]
    omega
  · rw [hmoved]
    omega
  · rw [hcopying.together]
    grind
  · rw [hmoved, hnext]
    exact hwritten

/-- A loop of `memcpy` copies cells until its condition is false.

Assumes: while the condition holds there is room for a turn, the regions do not wrap around and have
no address in common. -/
theorem copyLoop_copies (hsize : 0 < size) {bound : UInt64}
    (hbound : ∀ loop, Copying dest src len memory loop → loop.d < bound →
      loop.d.toNat + size ≤ dest.toNat + len.toNat)
    (hend : dest.toNat + len.toNat < 2 ^ 64) (hsrcEnd : src.toNat + len.toNat ≤ 2 ^ 64)
    (hapart : Apart src dest len.toNat) {first : CopyLoop}
    (hfirst : Copying dest src len memory first) {fuel : ℕ} (hfuel : len.toNat ≤ fuel) :
    ∃ last, whileLoop (fun loop ↦ loop.d < bound)
        (fun loop ↦ CopyLoop.mk (loop.d + UInt64.ofNat size) (loop.s + UInt64.ofNat size)
          (writeBytes loop.memory loop.d (readBytes loop.memory loop.s size))) fuel first =
        some last ∧ Copying dest src len memory last ∧ ¬ last.d < bound := by
  have hturn (loop : CopyLoop) (hcopying : Copying dest src len memory loop)
      (hrunning : loop.d < bound) :
      Copying dest src len memory
        ⟨loop.d + UInt64.ofNat size, loop.s + UInt64.ofNat size,
          writeBytes loop.memory loop.d (readBytes loop.memory loop.s size)⟩ ∧
        dest.toNat + len.toNat - (loop.d + UInt64.ofNat size).toNat <
          dest.toNat + len.toNat - loop.d.toNat := by
    have hroom := hbound loop hcopying hrunning
    obtain ⟨hkept, hmoved⟩ := hcopying.turn hend hsrcEnd hapart hroom
    exact ⟨hkept, by omega⟩
  have hleast := hfirst.at_least
  have hturns : dest.toNat + len.toNat - first.d.toNat ≤ fuel := by omega
  exact whileLoop_of_invariant (fun loop ↦ dest.toNat + len.toNat - loop.d.toNat) hturn hfirst
    hturns

end Copy

/-! ### The functions -/

section Functions

variable {dest src len : UInt64} {fuel : ℕ}

/-- `memset` fills its region, word by word or byte by byte.

Assumes: the region does not wrap around. -/
theorem memset_fills (hend : dest.toNat + len.toNat < 2 ^ 64) (hfuel : len.toNat ≤ fuel)
    (byte : Int32) (memory : FlatMemory) :
    ∃ after, memset fuel dest byte len memory = some (dest, after) ∧
      Replaced (fun _ ↦ charOf byte) dest len.toNat memory after := by
  rw [memset]
  by_cases haligned : (dest ||| len) &&& (wordSize - 1) = 0
  · have hwhole : 8 ∣ len.toNat :=
      Nat.dvd_of_mod_eq_zero ((or_and_eq_zero_iff dest len).mp haligned).2
    obtain ⟨last, hlast, hfilled⟩ :=
      fillLoop_fills (charOf byte) (by decide) hend hwhole hfuel memory
    have hwords : fillWords fuel (dest + len) (spread (byte &&& 0xFF).toInt64.toUInt64)
        ⟨dest, memory⟩ = some last := by
      simp only [fillWords, storeWord_spread]
      exact hlast
    rw [if_pos haligned, hwords]
    exact ⟨last.memory, rfl, hfilled⟩
  · obtain ⟨last, hlast, hfilled⟩ :=
      fillLoop_fills (charOf byte) Nat.one_pos hend (Nat.one_dvd _) hfuel memory
    have hbytes : fillBytes fuel (dest + len) (charOf byte) ⟨dest, memory⟩ = some last := hlast
    rw [if_neg haligned, hbytes]
    exact ⟨last.memory, rfl, hfilled⟩

/-- A region up to the last address has no address behind it, and `memset` leaves it as it is. -/
theorem memset_at_top (hend : dest.toNat + len.toNat = 2 ^ 64) (byte : Int32)
    (memory : FlatMemory) : memset fuel dest byte len memory = some (dest, memory) := by
  have hstop : ¬ dest < dest + len := by
    rw [UInt64.lt_iff_toNat_lt, UInt64.toNat_add, hend, Nat.mod_self]
    exact Nat.not_lt_zero _
  have hwords (word : UInt64) :
      fillWords fuel (dest + len) word ⟨dest, memory⟩ = some ⟨dest, memory⟩ :=
    whileLoop_of_not fuel hstop
  have hbytes (value : UInt8) :
      fillBytes fuel (dest + len) value ⟨dest, memory⟩ = some ⟨dest, memory⟩ :=
    whileLoop_of_not fuel hstop
  rw [memset, hwords, hbytes, ite_self]
  rfl

section Copy

variable {src : UInt64} (hend : dest.toNat + len.toNat < 2 ^ 64)
  (hsrcEnd : src.toNat + len.toNat ≤ 2 ^ 64) (hapart : Apart src dest len.toNat)
  (hfuel : len.toNat ≤ fuel)

include hend hsrcEnd hapart hfuel

/-- The loop over words does not copy more than the region.

Assumes: the destination is not null. -/
theorem copyAligned_copies (hdest : dest ≠ 0) (memory : FlatMemory) :
    ∃ loop, copyAligned fuel dest src len memory = some loop ∧
      Copying dest src len memory loop := by
  have hstart : Copying dest src len memory ⟨dest, src, memory⟩ := by
    refine ⟨Nat.le_refl _, Nat.le_add_right _ _, ?_, ?_⟩
    · rw [UInt64.sub_self, UInt64.add_zero]
    · rw [Nat.sub_self]
      exact replaced_zero _ dest memory
  rw [copyAligned]
  by_cases haligned : (dest ||| src) &&& (wordSize - 1) = 0
  · have hnonzero : dest.toNat ≠ 0 := fun hzero ↦ hdest (UInt64.toNat_inj.mp hzero)
    have hmultiple := ((or_and_eq_zero_iff dest src).mp haligned).1
    have hseven : (wordSize - 1).toNat = 7 := rfl
    -- An aligned pointer that is not null is at least 8, so the bound does not wrap.
    have hstop : (dest + len - (wordSize - 1)).toNat = dest.toNat + len.toNat - 7 := by
      rw [UInt64.toNat_sub_of_le _ _ (UInt64.le_iff_toNat_le.mpr (by rw [toNat_add hend]; omega)),
        toNat_add hend, hseven]
    have hroom : ∀ loop, Copying dest src len memory loop →
        loop.d < dest + len - (wordSize - 1) → loop.d.toNat + 8 ≤ dest.toNat + len.toNat := by
      intro loop _ hrunning
      rw [UInt64.lt_iff_toNat_lt, hstop] at hrunning
      omega
    obtain ⟨last, hlast, hcopying, -⟩ :=
      copyLoop_copies (by decide) hroom hend hsrcEnd hapart hstart hfuel
    refine ⟨last, ?_, hcopying⟩
    rw [if_pos haligned, ← hlast]
    simp only [copyWords, storeWord_loadWord]
    rfl
  · exact ⟨_, if_neg haligned, hstart⟩

/-- The loop over bytes copies what is left of the region. -/
theorem copyBytes_copies {memory : FlatMemory} {loop : CopyLoop}
    (hcopying : Copying dest src len memory loop) :
    ∃ last, copyBytes fuel (dest + len) loop = some last ∧
      Replaced (fun address ↦ memory (src + (address - dest))) dest len.toNat memory
        last.memory := by
  have hroom : ∀ loop, Copying dest src len memory loop →
      loop.d < dest + len → loop.d.toNat + 1 ≤ dest.toNat + len.toNat := by
    intro loop _ hrunning
    rwa [UInt64.lt_iff_toNat_lt, toNat_add hend] at hrunning
  obtain ⟨last, hlast, hcopied, hended⟩ :=
    copyLoop_copies Nat.one_pos hroom hend hsrcEnd hapart hcopying hfuel
  have hmost := hcopied.at_most
  have hcount : last.d.toNat - dest.toNat = len.toNat := by
    rw [UInt64.lt_iff_toNat_lt, toNat_add hend] at hended
    omega
  refine ⟨last, ?_, ?_⟩
  · simp only [copyBytes, storeByte_load]
    exact hlast
  · rw [← hcount]
    exact hcopied.copied

/-- `memcpy` copies its region, whatever the alignment of its pointers.

Assumes: the destination is not null, the regions do not wrap around and have no address in
common. -/
theorem memcpy_copies (hdest : dest ≠ 0) (memory : FlatMemory) :
    ∃ after, memcpy fuel dest src len memory = some (dest, after) ∧
      Replaced (fun address ↦ memory (src + (address - dest))) dest len.toNat memory after := by
  obtain ⟨loop, hloop, hcopying⟩ := copyAligned_copies hend hsrcEnd hapart hfuel hdest memory
  obtain ⟨last, hlast, hcopied⟩ := copyBytes_copies hend hsrcEnd hapart hfuel hcopying
  refine ⟨last.memory, ?_, hcopied⟩
  rw [memcpy, hloop, Option.bind_eq_bind, Option.bind_some, hlast]
  rfl

end Copy

/-- The word-wise paths do what the functions mean byte for byte. `memset` leaves every address of
its region equal to its value modulo 256, `memcpy` leaves its region equal to what the source region
was, and neither changes another address, for every length and alignment.

Assumes: the regions do not wrap around, and there is an address behind the one that is written; for
`memcpy`, the destination is not null and the regions do not overlap. -/
theorem wordwise_agrees_bytewise (hend : dest.toNat + len.toNat < 2 ^ 64)
    (hfuel : len.toNat ≤ fuel) (memory : FlatMemory) :
    (∀ byte : Int32, ∃ after, memset fuel dest byte len memory = some (dest, after) ∧
        (∀ address, InRegion dest len.toNat address →
          ((after address).toNat : ℤ) = byte.toInt % 256) ∧
        ∀ address, ¬ InRegion dest len.toNat address → after address = memory address) ∧
      ∀ src : UInt64, dest ≠ 0 → src.toNat + len.toNat ≤ 2 ^ 64 → Apart src dest len.toNat →
        ∃ after, memcpy fuel dest src len memory = some (dest, after) ∧
          readBytes after dest len.toNat = readBytes memory src len.toNat ∧
          ∀ address, ¬ InRegion dest len.toNat address → after address = memory address := by
  constructor
  · intro byte
    obtain ⟨after, hafter, hfilled⟩ := memset_fills hend hfuel byte memory
    refine ⟨after, hafter, fun address haddress ↦ ?_, hfilled.outside⟩
    rw [hfilled.inside address haddress, charOf_eq_emod]
  · intro src hdest hsrcEnd hapart
    obtain ⟨after, hafter, hcopied⟩ := memcpy_copies hend hsrcEnd hapart hfuel hdest memory
    exact ⟨after, hafter, hcopied.readBytes_eq (Nat.le_of_lt hend), hcopied.outside⟩

end Functions

/-- A memory in which every address holds its last byte. -/
def countingMemory : FlatMemory := UInt64.toUInt8

/-- Eleven bytes, which is a word and a part of one. -/
theorem wordwise_agrees_bytewise_eleven :
    (∃ after, memset 11 16 (-1) 11 countingMemory = some (16, after) ∧
        (∀ address, InRegion 16 11 address → ((after address).toNat : ℤ) = -1 % 256) ∧
        ∀ address, ¬ InRegion 16 11 address → after address = countingMemory address) ∧
      ∃ after, memcpy 11 16 64 11 countingMemory = some (16, after) ∧
        readBytes after 16 11 = readBytes countingMemory 64 11 ∧
        ∀ address, ¬ InRegion 16 11 address → after address = countingMemory address := by
  have hapart : Apart 64 16 11 := by
    rintro address ⟨hleast, -⟩ ⟨-, hmost⟩
    have hsrc : (64 : UInt64).toNat = 64 := rfl
    have hdest : (16 : UInt64).toNat = 16 := rfl
    omega
  have hagrees := @wordwise_agrees_bytewise 16 11 11 (by decide) (by decide) countingMemory
  exact ⟨hagrees.1 (-1), hagrees.2 64 (by decide) (by decide) hapart⟩

end Disguise.Runtime
