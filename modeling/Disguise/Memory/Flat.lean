import Mathlib.Data.Nat.Digits.Lemmas

/-!
# A flat memory

A memory of bytes over the 64-bit address space. A run of bytes is read from an address on
(`readBytes`) and written from an address on (`writeBytes`); a word is the run of its eight bytes,
the least significant one first.

`Replaced` says that the cells of a region have got a given content and all others are as before. A
run of bytes written right behind the region extends it (`Replaced.writeBytes`), whatever the length
of the run, so a loop over words and one over bytes are the same to it.
-/

set_option autoImplicit false
set_option relaxedAutoImplicit false

namespace Disguise.Memory

/-! ### Words as bytes -/

/-- The number some bytes stand for, the least significant one first. -/
def littleEndian (bytes : List UInt8) : ℕ := Nat.ofDigits 256 (bytes.map UInt8.toNat)

/-- The bytes of a number, the least significant one first. -/
def toLittleEndian (size value : ℕ) : List UInt8 :=
  (Nat.digitsAppend 256 size value).map UInt8.ofNat

theorem digits_lt (bytes : List UInt8) : ∀ digit ∈ bytes.map UInt8.toNat, digit < 256 := by
  intro digit hdigit
  obtain ⟨byte, -, rfl⟩ := List.mem_map.mp hdigit
  exact byte.toNat_lt

theorem littleEndian_lt (bytes : List UInt8) : littleEndian bytes < 256 ^ bytes.length := by
  have hlt := Nat.ofDigits_lt_base_pow_length (by decide) (digits_lt bytes)
  rwa [List.length_map] at hlt

/-- The bytes of the number some bytes stand for are these bytes. -/
theorem toLittleEndian_littleEndian (bytes : List UInt8) :
    toLittleEndian bytes.length (littleEndian bytes) = bytes := by
  have hdigits := (Nat.setInvOn_digitsAppend_ofDigits (by decide : 1 < 256) bytes.length).1
    ⟨List.length_map _, digits_lt bytes⟩
  rw [toLittleEndian, littleEndian, hdigits, List.map_map]
  exact (List.map_congr_left fun byte _ ↦ UInt8.ofNat_toNat).trans (List.map_id bytes)

/-! ### Runs of bytes -/

/-- The contents of all addresses. -/
abbrev FlatMemory := UInt64 → UInt8

/-- The bytes from an address on. -/
def readBytes (memory : FlatMemory) (address : UInt64) (count : ℕ) : List UInt8 :=
  (List.range count).map fun i ↦ memory (address + UInt64.ofNat i)

/-- A memory with some bytes written from an address on. -/
def writeBytes (memory : FlatMemory) (address : UInt64) (bytes : List UInt8) : FlatMemory :=
  fun cell ↦ (bytes[(cell - address).toNat]?).getD (memory cell)

/-- The word at an address. -/
def loadWord (memory : FlatMemory) (address : UInt64) : UInt64 :=
  UInt64.ofNat (littleEndian (readBytes memory address 8))

/-- A memory with a word written to an address. -/
def storeWord (memory : FlatMemory) (address word : UInt64) : FlatMemory :=
  writeBytes memory address (toLittleEndian 8 word.toNat)

/-- A memory with a byte written to an address. -/
def storeByte (memory : FlatMemory) (address : UInt64) (byte : UInt8) : FlatMemory :=
  writeBytes memory address [byte]

theorem length_readBytes (memory : FlatMemory) (address : UInt64) (count : ℕ) :
    (readBytes memory address count).length = count := by
  rw [readBytes, List.length_map, List.length_range]

/-- The word stored from another place is the run of bytes there. -/
theorem storeWord_loadWord (memory : FlatMemory) (dest src : UInt64) :
    storeWord memory dest (loadWord memory src) =
      writeBytes memory dest (readBytes memory src 8) := by
  have hlength := length_readBytes memory src 8
  have hlt := littleEndian_lt (readBytes memory src 8)
  have hbytes := toLittleEndian_littleEndian (readBytes memory src 8)
  rw [hlength] at hlt hbytes
  rw [storeWord, loadWord, UInt64.toNat_ofNat_of_lt' hlt, hbytes]

/-- The byte stored from another place is the run of one byte there. -/
theorem storeByte_load (memory : FlatMemory) (dest src : UInt64) :
    storeByte memory dest (memory src) = writeBytes memory dest (readBytes memory src 1) := by
  have hfirst : src + UInt64.ofNat 0 = src := UInt64.add_zero src
  rw [storeByte, readBytes, List.range_one, List.map_singleton, hfirst]

/-! ### Regions -/

/-- An address moved on, where it does not wrap around. -/
theorem toNat_add_ofNat {address : UInt64} {count : ℕ} (hend : address.toNat + count < 2 ^ 64) :
    (address + UInt64.ofNat count).toNat = address.toNat + count := by
  have hcount : count < 2 ^ 64 := by omega
  rw [UInt64.toNat_add, UInt64.toNat_ofNat_of_lt' hcount, Nat.mod_eq_of_lt hend]

/-- An address is one of a number of addresses from a first one on. -/
def InRegion (start : UInt64) (count : ℕ) (address : UInt64) : Prop :=
  start.toNat ≤ address.toNat ∧ address.toNat < start.toNat + count

/-- Inside the region it is written to, a run of bytes is what is read. -/
theorem writeBytes_of_inRegion (memory : FlatMemory) {start address : UInt64}
    {bytes : List UInt8} (haddress : InRegion start bytes.length address) :
    some (writeBytes memory start bytes address) = bytes[address.toNat - start.toNat]? := by
  have hoffset : (address - start).toNat = address.toNat - start.toNat :=
    UInt64.toNat_sub_of_le _ _ haddress.1
  have hplace : address.toNat - start.toNat < bytes.length := by
    have hbounds := haddress
    rw [InRegion] at hbounds
    omega
  rw [writeBytes, hoffset, List.getElem?_eq_getElem hplace, Option.getD_some]

/-- Outside that region nothing changes.

Assumes: the region does not reach beyond the last address. -/
theorem writeBytes_of_not_inRegion (memory : FlatMemory) {start address : UInt64}
    {bytes : List UInt8} (hend : start.toNat + bytes.length ≤ 2 ^ 64)
    (haddress : ¬ InRegion start bytes.length address) :
    writeBytes memory start bytes address = memory address := by
  have hoffset : bytes.length ≤ (address - start).toNat := by
    have haddressLt := address.toNat_lt
    have hstartLt := start.toNat_lt
    rw [InRegion] at haddress
    rw [UInt64.toNat_sub]
    omega
  rw [writeBytes, List.getElem?_eq_none hoffset, Option.getD_none]

/-- The cells of a region have a given content, and all others are as before. -/
structure Replaced (content : UInt64 → UInt8) (start : UInt64) (count : ℕ)
    (before after : FlatMemory) : Prop where
  inside : ∀ address, InRegion start count address → after address = content address
  outside : ∀ address, ¬ InRegion start count address → after address = before address

/-- Nothing is replaced in an empty region. -/
theorem replaced_zero (content : UInt64 → UInt8) (start : UInt64) (memory : FlatMemory) :
    Replaced content start 0 memory memory where
  inside address haddress := by
    rw [InRegion] at haddress
    omega
  outside _ _ := rfl

/-- A run of bytes written right behind a region extends it.

Assumes: the bytes are the content of the cells they are written to, and the region does not reach
beyond the last address. -/
theorem Replaced.writeBytes {content : UInt64 → UInt8} {start : UInt64} {count : ℕ}
    {before after : FlatMemory} (hreplaced : Replaced content start count before after)
    (cursor : UInt64) (bytes : List UInt8) (hcursor : cursor.toNat = start.toNat + count)
    (hend : cursor.toNat + bytes.length ≤ 2 ^ 64)
    (hbytes : ∀ address, InRegion cursor bytes.length address →
      bytes[address.toNat - cursor.toNat]? = some (content address)) :
    Replaced content start (count + bytes.length) before
      (Memory.writeBytes after cursor bytes) := by
  constructor
  · intro address haddress
    by_cases hnew : InRegion cursor bytes.length address
    · have hwritten := writeBytes_of_inRegion after hnew
      rw [hbytes address hnew] at hwritten
      exact Option.some.inj hwritten
    · rw [writeBytes_of_not_inRegion after hend hnew]
      refine hreplaced.inside address ?_
      rw [InRegion] at haddress hnew ⊢
      omega
  · intro address haddress
    have hnew : ¬ InRegion cursor bytes.length address := by
      rw [InRegion] at haddress ⊢
      omega
    rw [writeBytes_of_not_inRegion after hend hnew]
    refine hreplaced.outside address ?_
    rw [InRegion] at haddress ⊢
    omega

/-- A region that is replaced by another one reads as that one did before. -/
theorem Replaced.readBytes_eq {dest src : UInt64} {count : ℕ} {before after : FlatMemory}
    (hreplaced : Replaced (fun address ↦ before (src + (address - dest))) dest count before after)
    (hend : dest.toNat + count ≤ 2 ^ 64) :
    readBytes after dest count = readBytes before src count := by
  refine List.map_congr_left fun i hi ↦ ?_
  have hplace : i < count := List.mem_range.mp hi
  have haddress : (dest + UInt64.ofNat i).toNat = dest.toNat + i := toNat_add_ofNat (by omega)
  rw [hreplaced.inside _ ⟨by omega, by omega⟩, UInt64.add_comm dest, UInt64.add_sub_cancel]

end Disguise.Memory
