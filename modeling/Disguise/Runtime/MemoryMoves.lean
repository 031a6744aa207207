import Disguise.Memory.Flat
import Disguise.Process.Loop
import Mathlib.Data.List.Lex
import Mathlib.Order.Basic

/-!
# Moving and comparing memory

`memmove`, `memcmp` and `strlen` of `string.c`, over a flat memory with 64-bit pointers that wrap
around.

`memmove` copies its region however it overlaps with the source: from the start if the destination
is not behind the source, and from the end if it is. In both directions the cells that have been
written are an interval (`Moved`), and the cell that is read next is not in it. `memcmp` orders
regions as the lexicographic order orders their bytes, and `strlen` finds the first zero.
-/

set_option autoImplicit false
set_option relaxedAutoImplicit false

namespace Disguise.Runtime

open Memory Process

/-! ### `memmove` -/

/-- The pointers, the number of bytes that are left, and the memory in a loop of `memmove`. -/
structure MoveLoop where
  tmp : UInt64
  s : UInt64
  count : UInt64
  memory : FlatMemory

/-- The loop from the start of the region. The value of `count` after the last test is not used. -/
def moveUp (fuel : ℕ) : MoveLoop → Option MoveLoop :=
  whileLoop (fun loop ↦ loop.count ≠ 0)
    (fun loop ↦ ⟨loop.tmp + 1, loop.s + 1, loop.count - 1,
      storeByte loop.memory loop.tmp (loop.memory loop.s)⟩) fuel

/-- The loop from the end of the region. -/
def moveDown (fuel : ℕ) : MoveLoop → Option MoveLoop :=
  whileLoop (fun loop ↦ loop.count ≠ 0)
    (fun loop ↦ ⟨loop.tmp - 1, loop.s - 1, loop.count - 1,
      storeByte loop.memory (loop.tmp - 1) (loop.memory (loop.s - 1))⟩) fuel

/-- `memmove`: the value it returns and the memory it leaves, if its loop ends after at most a
number of turns. -/
def memmove (fuel : ℕ) (dest src count : UInt64) (memory : FlatMemory) :
    Option (UInt64 × FlatMemory) := do
  let moved ←
    if dest ≤ src then moveUp fuel ⟨dest, src, count, memory⟩
    else moveDown fuel ⟨dest + count, src + count, count, memory⟩
  return (dest, moved.memory)

/-- The cells of an interval have a given content, and all others are as before. -/
structure Moved (content : UInt64 → UInt8) (first last : ℕ) (before after : FlatMemory) :
    Prop where
  inside : ∀ address, first ≤ address.toNat → address.toNat < last →
    after address = content address
  outside : ∀ address, ¬ (first ≤ address.toNat ∧ address.toNat < last) →
    after address = before address

theorem storeByte_apply (memory : FlatMemory) (cell address : UInt64) (byte : UInt8) :
    storeByte memory cell byte address = if address = cell then byte else memory address := by
  rw [storeByte, writeBytes]
  by_cases hcell : address = cell
  · rw [if_pos hcell, hcell, UInt64.sub_self]
    rfl
  · have hoffset : (address - cell).toNat ≠ 0 := by
      intro hzero
      have hsub : address - cell = 0 := UInt64.toNat_inj.mp hzero
      rw [UInt64.sub_eq_iff_eq_add, UInt64.zero_add] at hsub
      exact hcell hsub
    rw [if_neg hcell, List.getElem?_eq_none (by rw [List.length_singleton]; omega),
      Option.getD_none]

/-- A byte stored next to the interval extends it.

Assumes: the byte is the content of its cell. -/
theorem Moved.store {content : UInt64 → UInt8} {first last first' last' : ℕ}
    {before after : FlatMemory} (hmoved : Moved content first last before after) {cell : UInt64}
    {byte : UInt8} (hbyte : byte = content cell)
    (hinterval : ∀ place, first' ≤ place ∧ place < last' ↔
      (first ≤ place ∧ place < last) ∨ place = cell.toNat) :
    Moved content first' last' before (storeByte after cell byte) := by
  constructor
  · intro address hfirst hlast
    rw [storeByte_apply]
    split_ifs with hcell
    · rw [hbyte, hcell]
    · rcases (hinterval _).mp ⟨hfirst, hlast⟩ with ⟨hold, hold'⟩ | hnew
      · exact hmoved.inside address hold hold'
      · exact absurd (UInt64.toNat_inj.mp hnew) hcell
  · intro address houtside
    rw [storeByte_apply]
    split_ifs with hcell
    · exact absurd ((hinterval _).mpr (Or.inr (congrArg UInt64.toNat hcell))) houtside
    · exact hmoved.outside address fun hold ↦ houtside ((hinterval _).mpr (Or.inl hold))

section Moves

variable {dest src count : UInt64} {memory : FlatMemory} {fuel : ℕ}

/-- The loop from the start has moved the cells in front of its pointer. -/
structure MovingUp (dest src count : UInt64) (memory : FlatMemory) (loop : MoveLoop) : Prop where
  left : loop.count ≤ count
  tmp : loop.tmp = dest + (count - loop.count)
  s : loop.s = src + (count - loop.count)
  moved : Moved (fun address ↦ memory (src + (address - dest))) dest.toNat
    (dest.toNat + (count.toNat - loop.count.toNat)) memory loop.memory

/-- The loop from the end has moved the cells from its pointer on. -/
structure MovingDown (dest src count : UInt64) (memory : FlatMemory) (loop : MoveLoop) : Prop where
  left : loop.count ≤ count
  tmp : loop.tmp = dest + loop.count
  s : loop.s = src + loop.count
  moved : Moved (fun address ↦ memory (src + (address - dest))) (dest.toNat + loop.count.toNat)
    (dest.toNat + count.toNat) memory loop.memory

theorem toNat_sub_one {value : UInt64} (hvalue : value ≠ 0) :
    (value - 1).toNat = value.toNat - 1 := by
  have hpos : (0 : UInt64) < value := UInt64.pos_iff_ne_zero.mpr hvalue
  rw [UInt64.lt_iff_toNat_lt] at hpos
  exact UInt64.toNat_sub_of_le _ _ (UInt64.le_iff_toNat_le.mpr hpos)

/-- A turn from the start.

Assumes: the destination is not behind the source, and the regions do not wrap around. -/
theorem MovingUp.turn {loop : MoveLoop} (hmoving : MovingUp dest src count memory loop)
    (hbelow : dest.toNat ≤ src.toNat) (hdest : dest.toNat + count.toNat ≤ 2 ^ 64)
    (hsrc : src.toNat + count.toNat ≤ 2 ^ 64) (hrunning : loop.count ≠ 0) :
    MovingUp dest src count memory ⟨loop.tmp + 1, loop.s + 1, loop.count - 1,
      storeByte loop.memory loop.tmp (loop.memory loop.s)⟩ := by
  obtain ⟨hleft, htmp, hs, hmoved⟩ := hmoving
  have hfewer := toNat_sub_one hrunning
  have hleft' := UInt64.le_iff_toNat_le.mp hleft
  have hpos : 0 < loop.count.toNat := Nat.pos_of_ne_zero fun hzero ↦
    hrunning (UInt64.toNat_inj.mp hzero)
  have hdone : (count - loop.count).toNat = count.toNat - loop.count.toNat :=
    UInt64.toNat_sub_of_le _ _ hleft
  have htmpNat : loop.tmp.toNat = dest.toNat + (count.toNat - loop.count.toNat) := by
    rw [htmp, UInt64.toNat_add, hdone, Nat.mod_eq_of_lt (by omega)]
  have hsNat : loop.s.toNat = src.toNat + (count.toNat - loop.count.toNat) := by
    rw [hs, UInt64.toNat_add, hdone, Nat.mod_eq_of_lt (by omega)]
  have hbyte : loop.memory loop.s = memory (src + (loop.tmp - dest)) := by
    have hcell : src + (loop.tmp - dest) = loop.s := by
      rw [htmp, hs, UInt64.add_comm dest, UInt64.add_sub_cancel]
    rw [hcell]
    exact hmoved.outside _ (by omega)
  refine ⟨?_, ?_, ?_, hmoved.store hbyte fun place ↦ ?_⟩
  · rw [UInt64.le_iff_toNat_le, hfewer]
    omega
  · rw [htmp]
    grind
  · rw [hs]
    grind
  · rw [hfewer, htmpNat]
    omega

/-- A turn from the end.

Assumes: the source is in front of the destination, and the regions do not wrap around. -/
theorem MovingDown.turn {loop : MoveLoop} (hmoving : MovingDown dest src count memory loop)
    (habove : src.toNat < dest.toNat) (hdest : dest.toNat + count.toNat ≤ 2 ^ 64)
    (hrunning : loop.count ≠ 0) :
    MovingDown dest src count memory ⟨loop.tmp - 1, loop.s - 1, loop.count - 1,
      storeByte loop.memory (loop.tmp - 1) (loop.memory (loop.s - 1))⟩ := by
  obtain ⟨hleft, htmp, hs, hmoved⟩ := hmoving
  have hfewer := toNat_sub_one hrunning
  have hleft' := UInt64.le_iff_toNat_le.mp hleft
  have hpos : 0 < loop.count.toNat := Nat.pos_of_ne_zero fun hzero ↦
    hrunning (UInt64.toNat_inj.mp hzero)
  have htmp' : loop.tmp - 1 = dest + (loop.count - 1) := by
    rw [htmp]
    grind
  have hs' : loop.s - 1 = src + (loop.count - 1) := by
    rw [hs]
    grind
  have htmpNat : (loop.tmp - 1).toNat = dest.toNat + (loop.count.toNat - 1) := by
    rw [htmp', UInt64.toNat_add, hfewer, Nat.mod_eq_of_lt (by omega)]
  have hsNat : (loop.s - 1).toNat = src.toNat + (loop.count.toNat - 1) := by
    rw [hs', UInt64.toNat_add, hfewer, Nat.mod_eq_of_lt (by omega)]
  have hbyte : loop.memory (loop.s - 1) = memory (src + (loop.tmp - 1 - dest)) := by
    have hcell : src + (loop.tmp - 1 - dest) = loop.s - 1 := by
      rw [htmp', hs', UInt64.add_comm dest, UInt64.add_sub_cancel]
    rw [hcell]
    exact hmoved.outside _ (by omega)
  refine ⟨?_, htmp', hs', hmoved.store hbyte fun place ↦ ?_⟩
  · rw [UInt64.le_iff_toNat_le, hfewer]
    omega
  · rw [hfewer, htmpNat]
    omega

/-- The loop from the start moves the whole region. -/
theorem moveUp_moves (hbelow : dest.toNat ≤ src.toNat) (hdest : dest.toNat + count.toNat ≤ 2 ^ 64)
    (hsrc : src.toNat + count.toNat ≤ 2 ^ 64) (hfuel : count.toNat ≤ fuel) :
    ∃ last, moveUp fuel ⟨dest, src, count, memory⟩ = some last ∧
      Replaced (fun address ↦ memory (src + (address - dest))) dest count.toNat memory
        last.memory := by
  have hstart : MovingUp dest src count memory ⟨dest, src, count, memory⟩ := by
    refine ⟨UInt64.le_refl _, ?_, ?_, ?_, ?_⟩
    · rw [UInt64.sub_self, UInt64.add_zero]
    · rw [UInt64.sub_self, UInt64.add_zero]
    · intro address hfirst hlast
      dsimp only at hfirst hlast
      omega
    · intro address houtside
      rfl
  have hturn (loop : MoveLoop) (hmoving : MovingUp dest src count memory loop)
      (hrunning : loop.count ≠ 0) :
      MovingUp dest src count memory ⟨loop.tmp + 1, loop.s + 1, loop.count - 1,
        storeByte loop.memory loop.tmp (loop.memory loop.s)⟩ ∧
        (loop.count - 1).toNat < loop.count.toNat := by
    have hpos : loop.count.toNat ≠ 0 := fun hzero ↦ hrunning (UInt64.toNat_inj.mp hzero)
    refine ⟨hmoving.turn hbelow hdest hsrc hrunning, ?_⟩
    rw [toNat_sub_one hrunning]
    omega
  obtain ⟨last, hlast, hmoving, hended⟩ :=
    whileLoop_of_invariant (fun loop ↦ loop.count.toNat) hturn hstart hfuel
  have hzero : last.count = 0 := not_not.mp hended
  have hmoved := hmoving.moved
  rw [hzero, UInt64.toNat_zero, Nat.sub_zero] at hmoved
  exact ⟨last, hlast, fun address haddress ↦ hmoved.inside address haddress.1 haddress.2,
    hmoved.outside⟩

/-- So does the loop from the end. -/
theorem moveDown_moves (habove : src.toNat < dest.toNat)
    (hdest : dest.toNat + count.toNat ≤ 2 ^ 64) (hfuel : count.toNat ≤ fuel) :
    ∃ last, moveDown fuel ⟨dest + count, src + count, count, memory⟩ = some last ∧
      Replaced (fun address ↦ memory (src + (address - dest))) dest count.toNat memory
        last.memory := by
  have hstart : MovingDown dest src count memory ⟨dest + count, src + count, count, memory⟩ := by
    refine ⟨UInt64.le_refl _, rfl, rfl, ?_, ?_⟩
    · intro address hfirst hlast
      dsimp only at hfirst hlast
      omega
    · intro address houtside
      rfl
  have hturn (loop : MoveLoop) (hmoving : MovingDown dest src count memory loop)
      (hrunning : loop.count ≠ 0) :
      MovingDown dest src count memory ⟨loop.tmp - 1, loop.s - 1, loop.count - 1,
        storeByte loop.memory (loop.tmp - 1) (loop.memory (loop.s - 1))⟩ ∧
        (loop.count - 1).toNat < loop.count.toNat := by
    have hpos : loop.count.toNat ≠ 0 := fun hzero ↦ hrunning (UInt64.toNat_inj.mp hzero)
    refine ⟨hmoving.turn habove hdest hrunning, ?_⟩
    rw [toNat_sub_one hrunning]
    omega
  obtain ⟨last, hlast, hmoving, hended⟩ :=
    whileLoop_of_invariant (fun loop ↦ loop.count.toNat) hturn hstart hfuel
  have hzero : last.count = 0 := not_not.mp hended
  have hmoved := hmoving.moved
  rw [hzero, UInt64.toNat_zero, Nat.add_zero] at hmoved
  exact ⟨last, hlast, fun address haddress ↦ hmoved.inside address haddress.1 haddress.2,
    hmoved.outside⟩

/-- `memmove` leaves in its region what the source region held before, and changes no other address,
however the regions overlap.

Assumes: the regions do not wrap around. -/
theorem memmove_moves (memory : FlatMemory) (hdest : dest.toNat + count.toNat ≤ 2 ^ 64)
    (hsrc : src.toNat + count.toNat ≤ 2 ^ 64) (hfuel : count.toNat ≤ fuel) :
    ∃ after, memmove fuel dest src count memory = some (dest, after) ∧
      readBytes after dest count.toNat = readBytes memory src count.toNat ∧
      ∀ address, ¬ InRegion dest count.toNat address → after address = memory address := by
  by_cases hbelow : dest ≤ src
  · obtain ⟨last, hlast, hreplaced⟩ :=
      moveUp_moves (UInt64.le_iff_toNat_le.mp hbelow) hdest hsrc hfuel
    refine ⟨last.memory, ?_, hreplaced.readBytes_eq hdest, hreplaced.outside⟩
    rw [memmove, if_pos hbelow, hlast]
    rfl
  · have habove : src.toNat < dest.toNat := not_le.mp (mt UInt64.le_iff_toNat_le.mpr hbelow)
    obtain ⟨last, hlast, hreplaced⟩ := moveDown_moves habove hdest hfuel
    refine ⟨last.memory, ?_, hreplaced.readBytes_eq hdest, hreplaced.outside⟩
    rw [memmove, if_neg hbelow, hlast]
    rfl

/-- Eleven bytes moved up by three. -/
theorem memmove_moves_eleven :
    ∃ after, memmove 11 19 16 11 UInt64.toUInt8 = some (19, after) ∧
      readBytes after 19 11 = readBytes UInt64.toUInt8 16 11 ∧
      ∀ address, ¬ InRegion 19 11 address → after address = UInt64.toUInt8 address :=
  memmove_moves UInt64.toUInt8 (by decide) (by decide) (by decide)

end Moves

/-! ### `memcmp` -/

theorem readBytes_succ (memory : FlatMemory) (address : UInt64) (count : ℕ) :
    readBytes memory address (count + 1) =
      memory address :: readBytes memory (address + 1) count := by
  have hplace (i : ℕ) : address + UInt64.ofNat (i + 1) = address + 1 + UInt64.ofNat i := by
    rw [UInt64.ofNat_add]
    grind
  rw [readBytes, List.range_succ_eq_map, List.map_cons, List.map_map]
  refine List.cons_eq_cons.mpr ⟨congrArg memory (UInt64.add_zero address), ?_⟩
  exact List.map_congr_left fun i _ ↦ congrArg memory (hplace i)

/-- The loop of `memcmp` with `n` rounds left. Its result is a difference of two bytes. -/
def compareBytes (memory : FlatMemory) : (n : ℕ) → (s1 s2 : UInt64) → ℤ
  | 0, _, _ => 0
  | n + 1, s1, s2 =>
    let u1 := memory s1
    let u2 := memory s2
    if u1 ≠ u2 then u1.toNat - u2.toNat else compareBytes memory n (s1 + 1) (s2 + 1)

/-- `memcmp`. -/
def memcmp (memory : FlatMemory) (s1 s2 n : UInt64) : ℤ := compareBytes memory n.toNat s1 s2

/-- The regions the other way round give the opposite result. -/
theorem compareBytes_swap (memory : FlatMemory) (n : ℕ) (s1 s2 : UInt64) :
    compareBytes memory n s2 s1 = -compareBytes memory n s1 s2 := by
  induction n generalizing s1 s2 with
  | zero => rfl
  | succ n ih =>
    rw [compareBytes, compareBytes]
    by_cases hequal : memory s1 = memory s2
    · rw [if_neg (not_not.mpr hequal.symm), if_neg (not_not.mpr hequal)]
      exact ih (s1 + 1) (s2 + 1)
    · rw [if_pos (Ne.symm hequal), if_pos hequal, neg_sub]

theorem compareBytes_order (memory : FlatMemory) (n : ℕ) (s1 s2 : UInt64) :
    (compareBytes memory n s1 s2 = 0 ↔ readBytes memory s1 n = readBytes memory s2 n) ∧
      (compareBytes memory n s1 s2 < 0 ↔ readBytes memory s1 n < readBytes memory s2 n) := by
  induction n generalizing s1 s2 with
  | zero => exact ⟨iff_of_true rfl rfl, iff_of_false (lt_irrefl 0) (List.not_lt_nil [])⟩
  | succ n ih =>
    rw [readBytes_succ, readBytes_succ, List.cons_eq_cons, List.cons_lt_cons_iff, compareBytes]
    by_cases hequal : memory s1 = memory s2
    · obtain ⟨hzero, hless⟩ := ih (s1 + 1) (s2 + 1)
      rw [if_neg (not_not.mpr hequal), hzero, hless]
      exact ⟨(and_iff_right hequal).symm,
        ⟨fun hrest ↦ Or.inr ⟨hequal, hrest⟩, fun hcases ↦ hcases.elim
          (fun hfirst ↦ absurd hequal (UInt8.ne_of_lt hfirst)) And.right⟩⟩
    · have hvalues : (memory s1).toNat ≠ (memory s2).toNat :=
        fun hsame ↦ hequal (UInt8.toNat_inj.mp hsame)
      rw [if_pos hequal, UInt8.lt_iff_toNat_lt]
      constructor
      · exact iff_of_false (by omega) fun hboth ↦ hequal hboth.1
      · constructor
        · intro hless
          exact Or.inl (by omega)
        · rintro (hless | hboth)
          · omega
          · exact absurd hboth.1 hequal

/-- `memcmp` compares two regions in the lexicographic order of their bytes: its result is zero if
they are equal, negative if the first one is less, and positive if the second one is. -/
theorem memcmp_order (memory : FlatMemory) (s1 s2 n : UInt64) :
    let first := readBytes memory s1 n.toNat
    let second := readBytes memory s2 n.toNat
    (memcmp memory s1 s2 n = 0 ↔ first = second) ∧ (memcmp memory s1 s2 n < 0 ↔ first < second) ∧
      (0 < memcmp memory s1 s2 n ↔ second < first) := by
  obtain ⟨hzero, hless⟩ := compareBytes_order memory n.toNat s1 s2
  have hgreater := (compareBytes_order memory n.toNat s2 s1).2
  rw [compareBytes_swap, neg_lt_zero] at hgreater
  exact ⟨hzero, hless, hgreater⟩

/-! ### `strlen` -/

/-- The pointer and the length in the loop of `strlen`. -/
structure ScanLoop where
  str : UInt64
  len : UInt64

/-- The loop of `strlen`. -/
def scan (memory : FlatMemory) (fuel : ℕ) : ScanLoop → Option ScanLoop :=
  whileLoop (fun loop ↦ memory loop.str ≠ 0) (fun loop ↦ ⟨loop.str + 1, loop.len + 1⟩) fuel

/-- `strlen`, if its loop ends after at most a number of turns. -/
def strlen (fuel : ℕ) (memory : FlatMemory) (str : UInt64) : Option UInt64 := do
  let scanned ← scan memory fuel ⟨str, 0⟩
  return scanned.len

/-- The first zero from an address on is so many bytes away. -/
def FirstZero (memory : FlatMemory) (str : UInt64) (count : ℕ) : Prop :=
  memory (str + UInt64.ofNat count) = 0 ∧ ∀ i < count, memory (str + UInt64.ofNat i) ≠ 0

theorem firstZero_zero_iff (memory : FlatMemory) (str : UInt64) :
    FirstZero memory str 0 ↔ memory str = 0 := by
  have hplace : str + UInt64.ofNat 0 = str := UInt64.add_zero str
  rw [FirstZero, hplace]
  exact and_iff_left fun i hi ↦ absurd hi (Nat.not_lt_zero i)

theorem firstZero_succ_iff (memory : FlatMemory) (str : UInt64) (count : ℕ) :
    FirstZero memory str (count + 1) ↔
      memory str ≠ 0 ∧ FirstZero memory (str + 1) count := by
  have hplace (i : ℕ) : str + UInt64.ofNat (i + 1) = str + 1 + UInt64.ofNat i := by
    rw [UInt64.ofNat_add]
    grind
  have hfirst : str + UInt64.ofNat 0 = str := UInt64.add_zero str
  constructor
  · rintro ⟨hzero, hnone⟩
    refine ⟨hfirst ▸ hnone 0 (Nat.succ_pos count), hplace count ▸ hzero, fun i hi ↦ ?_⟩
    rw [← hplace]
    exact hnone (i + 1) (Nat.succ_lt_succ hi)
  · rintro ⟨hstr, hzero, hnone⟩
    refine ⟨(hplace count).symm ▸ hzero, fun i hi ↦ ?_⟩
    cases i with
    | zero => exact hfirst.symm ▸ hstr
    | succ i =>
      rw [hplace]
      exact hnone i (Nat.lt_of_succ_lt_succ hi)

/-- A run of the loop that ends has come to the first zero, in as many turns as it counts. -/
theorem scan_eq_some_iff (memory : FlatMemory) (fuel : ℕ) (loop last : ScanLoop) :
    scan memory fuel loop = some last ↔
      ∃ count ≤ fuel, FirstZero memory loop.str count ∧
        last = ⟨loop.str + UInt64.ofNat count, loop.len + UInt64.ofNat count⟩ := by
  have hsame (loop : ScanLoop) :
      (⟨loop.str + UInt64.ofNat 0, loop.len + UInt64.ofNat 0⟩ : ScanLoop) = loop :=
    congrArg₂ ScanLoop.mk (UInt64.add_zero _) (UInt64.add_zero _)
  have hnext (loop : ScanLoop) (count : ℕ) :
      (⟨loop.str + UInt64.ofNat (count + 1), loop.len + UInt64.ofNat (count + 1)⟩ : ScanLoop) =
        ⟨loop.str + 1 + UInt64.ofNat count, loop.len + 1 + UInt64.ofNat count⟩ := by
    rw [UInt64.ofNat_add]
    exact congrArg₂ ScanLoop.mk (by grind) (by grind)
  induction fuel generalizing loop with
  | zero =>
    rw [scan, whileLoop]
    split_ifs with hrunning
    · refine iff_of_false not_false ?_
      rintro ⟨count, hcount, hfirst, -⟩
      obtain rfl : count = 0 := Nat.le_zero.mp hcount
      exact hrunning ((firstZero_zero_iff _ _).mp hfirst)
    · rw [Option.some_inj]
      constructor
      · rintro rfl
        exact ⟨0, le_rfl, (firstZero_zero_iff _ _).mpr (not_not.mp hrunning), (hsame _).symm⟩
      · rintro ⟨count, hcount, -, rfl⟩
        obtain rfl : count = 0 := Nat.le_zero.mp hcount
        exact (hsame _).symm
  | succ fuel ih =>
    rw [scan, whileLoop]
    split_ifs with hrunning
    · refine (ih _).trans ?_
      constructor
      · rintro ⟨count, hcount, hfirst, rfl⟩
        exact ⟨count + 1, Nat.succ_le_succ hcount,
          (firstZero_succ_iff _ _ _).mpr ⟨hrunning, hfirst⟩, (hnext loop count).symm⟩
      · rintro ⟨count, hcount, hfirst, rfl⟩
        cases count with
        | zero => exact absurd ((firstZero_zero_iff _ _).mp hfirst) hrunning
        | succ count =>
          exact ⟨count, Nat.le_of_succ_le_succ hcount,
            ((firstZero_succ_iff _ _ _).mp hfirst).2, hnext loop count⟩
    · have hzero : memory loop.str = 0 := not_not.mp hrunning
      rw [Option.some_inj]
      constructor
      · rintro rfl
        exact ⟨0, Nat.zero_le _, (firstZero_zero_iff _ _).mpr hzero, (hsame _).symm⟩
      · rintro ⟨count, -, hfirst, rfl⟩
        cases count with
        | zero => exact (hsame _).symm
        | succ count => exact absurd hzero ((firstZero_succ_iff _ _ _).mp hfirst).1

/-- A first zero is never `2 ^ 64` or more bytes away, since the addresses wrap around. -/
theorem FirstZero.lt {memory : FlatMemory} {str : UInt64} {count : ℕ}
    (hfirst : FirstZero memory str count) : count < 2 ^ 64 := by
  by_contra hlarge
  have hwrap : UInt64.ofNat (count - 2 ^ 64) = UInt64.ofNat count := by
    rw [← UInt64.toNat_inj, UInt64.toNat_ofNat', UInt64.toNat_ofNat']
    omega
  have hnone := hfirst.2 (count - 2 ^ 64) (by omega)
  rw [hwrap] at hnone
  exact hnone hfirst.1

/-- `strlen` returns a length exactly if the first zero is so many bytes away and the loop may make
so many turns. Without a zero in the whole memory it does not return. -/
theorem strlen_eq_some_iff (fuel : ℕ) (memory : FlatMemory) (str len : UInt64) :
    strlen fuel memory str = some len ↔ len.toNat ≤ fuel ∧ FirstZero memory str len.toNat := by
  rw [strlen, Option.bind_eq_bind, Option.bind_eq_some_iff]
  constructor
  · rintro ⟨last, hlast, hlen⟩
    obtain ⟨count, hcount, hfirst, rfl⟩ := (scan_eq_some_iff memory fuel _ _).mp hlast
    have hvalue : len = UInt64.ofNat count := by
      rw [← Option.some_inj.mp hlen]
      exact UInt64.zero_add _
    have htoNat : len.toNat = count := by
      rw [hvalue, UInt64.toNat_ofNat_of_lt' hfirst.lt]
    rw [htoNat]
    exact ⟨hcount, hfirst⟩
  · rintro ⟨hfuel, hfirst⟩
    refine ⟨_, (scan_eq_some_iff memory fuel _ _).mpr ⟨len.toNat, hfuel, hfirst, rfl⟩, ?_⟩
    show some (0 + UInt64.ofNat len.toNat) = some len
    rw [UInt64.ofNat_toNat, UInt64.zero_add]

end Disguise.Runtime
