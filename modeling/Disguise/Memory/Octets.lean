import Disguise.Memory.Access
import Mathlib.Data.List.FinRange
import Mathlib.Data.Vector.Basic

/-!
# Octet strings of fixed length

Arrays such as `uint8_t rand[16]` are vectors, so that the length of a field never has to be
assumed. The operations are the byte-wise exclusive or of two arrays, the part of an array from an
offset on, the array read from a block of memory, and a loop that assigns the cells of an array one
by one.

A loop over distinct cells leaves in each cell what was assigned to it (`get_assignEach`). The order
of the assignments does not matter, which is how a loop that writes `out[(i + 12) % 16]` is read as
a rotation.
-/

set_option autoImplicit false
set_option relaxedAutoImplicit false

namespace Disguise.Memory

open Process Process.Proc List.Vector

/-- An octet string of a fixed length. -/
abbrev Octets (length : ℕ) := List.Vector UInt8 length

/-! ### Parts of an array -/

section Arrays

variable {α : Type} {n m : ℕ}

/-- The cells of an array from an offset on. -/
def slice (array : List.Vector α n) (offset count : ℕ)
    (hbounds : offset + count ≤ n := by decide) : List.Vector α count :=
  ⟨window array.toList offset count, length_window (by rw [toList_length]; exact hbounds)⟩

@[simp] theorem toList_slice (array : List.Vector α n) {offset count : ℕ}
    (hbounds : offset + count ≤ n) :
    (slice array offset count hbounds).toList = window array.toList offset count := rfl

/-- The first part of a concatenation. -/
theorem slice_append_left (first : List.Vector α n) (second : List.Vector α m)
    {offset count : ℕ} (hbounds : offset + count ≤ n) :
    slice (first ++ second) offset count (by omega) = slice first offset count hbounds := by
  refine List.Vector.eq _ _ ?_
  rw [toList_slice, toList_slice, toList_append,
    window_append_left (by rw [toList_length]; exact hbounds)]

/-- The second part of a concatenation. -/
theorem slice_append_right (first : List.Vector α n) (second : List.Vector α m)
    {offset count : ℕ} (hbounds : offset + count ≤ m) :
    slice (first ++ second) (n + offset) count (by omega) = slice second offset count hbounds := by
  refine List.Vector.eq _ _ ?_
  rw [toList_slice, toList_slice, toList_append,
    window_append_right (by rw [toList_length]; omega), toList_length, Nat.add_sub_cancel_left]

/-- A part of a part is a part. -/
theorem slice_slice (array : List.Vector α n) {offset count inner length : ℕ}
    (hbounds : offset + count ≤ n) (hinner : inner + length ≤ count) :
    slice (slice array offset count hbounds) inner length hinner =
      slice array (offset + inner) length (by omega) := by
  refine List.Vector.eq _ _ ?_
  rw [toList_slice, toList_slice, toList_slice, window_window hinner]

/-- The whole of an array. -/
theorem slice_all (array : List.Vector α n) : slice array 0 n (by omega) = array := by
  refine List.Vector.eq _ _ ?_
  rw [toList_slice, window_all array.toList_length]

/-- An array is determined by two adjacent parts that cover it. -/
theorem eq_append_iff (array : List.Vector α (n + m)) (first : List.Vector α n)
    (second : List.Vector α m) :
    array = first ++ second ↔
      slice array 0 n (by omega) = first ∧ slice array n m (by omega) = second := by
  constructor
  · rintro rfl
    refine ⟨?_, ?_⟩
    · rw [slice_append_left first second (by omega), slice_all]
    · refine (slice_append_right first second (Nat.le_of_eq (Nat.zero_add m))).trans ?_
      exact slice_all second
  · rintro ⟨rfl, rfl⟩
    refine List.Vector.eq _ _ ?_
    have hlength : array.toList.length = n + m := array.toList_length
    rw [toList_append, toList_slice, toList_slice, window_zero, window,
      List.take_of_length_le (l := array.toList.drop n) (by rw [List.length_drop]; omega),
      List.take_append_drop]

end Arrays

/-! ### Arrays read from a block -/

section Blocks

variable {α : Type} {n : ℕ}

/-- The array at an offset of a block, if it lies inside the block. -/
def arrayAt? (block : List α) (offset n : ℕ) : Option (List.Vector α n) :=
  if hbounds : offset + n ≤ block.length then
    some ⟨window block offset n, length_window hbounds⟩
  else
    none

/-- An array that lies inside the block is found. -/
theorem exists_arrayAt? {block : List α} (offset n : ℕ) (hbounds : offset + n ≤ block.length) :
    ∃ array, arrayAt? block offset n = some array :=
  ⟨⟨window block offset n, length_window hbounds⟩, dif_pos hbounds⟩

/-- An array at the start of a block. -/
theorem arrayAt?_append_left (array : List.Vector α n) (rest : List α) :
    arrayAt? (array.toList ++ rest) 0 n = some array := by
  have hbounds : 0 + n ≤ (array.toList ++ rest).length := by
    rw [List.length_append, toList_length]
    omega
  rw [arrayAt?, dif_pos hbounds]
  refine congrArg some (List.Vector.eq _ _ ?_)
  rw [toList_mk, window_append_left (by rw [toList_length]; omega),
    window_all array.toList_length]

/-- An array behind the first part of a block. -/
theorem arrayAt?_append_right {m : ℕ} (first : List.Vector α m) (rest : List α) (offset : ℕ) :
    arrayAt? (first.toList ++ rest) (m + offset) n = arrayAt? rest offset n := by
  have hlength : (first.toList ++ rest).length = m + rest.length := by
    rw [List.length_append, toList_length]
  by_cases hbounds : offset + n ≤ rest.length
  · rw [arrayAt?, arrayAt?, dif_pos (by omega), dif_pos hbounds]
    refine congrArg some (List.Vector.eq _ _ ?_)
    rw [toList_mk, toList_mk, window_append_right (by rw [toList_length]; omega), toList_length,
      Nat.add_sub_cancel_left]
  · rw [arrayAt?, arrayAt?, dif_neg (by omega), dif_neg hbounds]

variable {M O ε : Type} [Fault ε]

/-- Reads an array from a block. -/
def loadArray (block : List α) (offset n : ℕ) : Proc M O ε (List.Vector α n) :=
  orFail (arrayAt? block offset n) Fault.outOfBounds

/-- A read that finds an array returns it. -/
theorem loadArray_eq {block : List α} {offset : ℕ} {array : List.Vector α n}
    (hfound : arrayAt? block offset n = some array) :
    (loadArray block offset n : Proc M O ε (List.Vector α n)) = done array := by
  rw [loadArray, hfound, orFail_some]

/-- A read stays in bounds exactly if the array lies inside the block. -/
@[simp] theorem staysInBounds_loadArray {β : Type} (environment : Environment M)
    (sends waits : ℕ) (block : List α) (offset : ℕ)
    (continuation : List.Vector α n → Proc M O ε β) :
    StaysInBounds environment sends waits (loadArray block offset n >>= continuation) ↔
      offset + n ≤ block.length ∧ ∀ array, arrayAt? block offset n = some array →
        StaysInBounds environment sends waits (continuation array) := by
  rw [loadArray, staysInBounds_orFail]
  by_cases hbounds : offset + n ≤ block.length
  · simp [arrayAt?, hbounds]
  · simp [arrayAt?, hbounds]

end Blocks

/-! ### Loops that assign cells -/

section Loops

variable {α ι : Type} {n : ℕ}

/-- A loop that assigns one cell of an array in each round. -/
def assignEach (rounds : List ι) (place : ι → Fin n) (value : ι → α) (array : List.Vector α n) :
    List.Vector α n :=
  rounds.foldl (fun array round ↦ array.set (place round) (value round)) array

/-- A cell that no round assigns keeps what it holds. -/
theorem get_assignEach_of_forall_ne {place : ι → Fin n} (value : ι → α) {cell : Fin n} :
    ∀ {rounds : List ι} (array : List.Vector α n), (∀ round ∈ rounds, place round ≠ cell) →
      (assignEach rounds place value array).get cell = array.get cell
  | [], _, _ => rfl
  | round :: rounds, array, hother => by
    rw [assignEach, List.foldl_cons]
    refine (get_assignEach_of_forall_ne value _ fun later hlater ↦
      hother later (List.mem_cons_of_mem _ hlater)).trans ?_
    exact get_set_of_ne (hother round List.mem_cons_self) _

/-- Rounds that assign distinct cells leave in each cell what was assigned to it. -/
theorem get_assignEach {place : ι → Fin n} (value : ι → α) (hplace : Function.Injective place)
    {target : ι} : ∀ {rounds : List ι} (array : List.Vector α n), rounds.Nodup → target ∈ rounds →
      (assignEach rounds place value array).get (place target) = value target
  | [], _, _, hmem => absurd hmem List.not_mem_nil
  | round :: rounds, array, hnodup, hmem => by
    obtain ⟨hround, hrounds⟩ := List.nodup_cons.mp hnodup
    rw [assignEach, List.foldl_cons]
    by_cases htarget : target = round
    · subst htarget
      refine (get_assignEach_of_forall_ne value _ fun later hlater heq ↦ ?_).trans
        (get_set_same _ _ _)
      exact hround (hplace heq ▸ hlater)
    · exact get_assignEach value hplace _ hrounds ((List.mem_cons.mp hmem).resolve_left htarget)

/-- A loop over all indices of another array. -/
theorem get_assignEach_finRange {m : ℕ} {place : Fin m → Fin n} (value : Fin m → α)
    (hplace : Function.Injective place) (array : List.Vector α n) (target : Fin m) :
    (assignEach (List.finRange m) place value array).get (place target) = value target :=
  get_assignEach value hplace array (List.nodup_finRange m) (List.mem_finRange target)

end Loops

/-! ### Exclusive or -/

section ExclusiveOr

variable {n : ℕ}

/-- The byte-wise exclusive or. -/
def xorOctets (first second : Octets n) : Octets n := map₂ (· ^^^ ·) first second

@[simp] theorem get_xorOctets (first second : Octets n) (i : Fin n) :
    (xorOctets first second).get i = first.get i ^^^ second.get i :=
  get_map₂ _ _ _ _

theorem xorOctets_comm (first second : Octets n) :
    xorOctets first second = xorOctets second first := by
  apply List.Vector.ext
  intro i
  rw [get_xorOctets, get_xorOctets, UInt8.xor_comm]

/-- A mask put on twice is taken off. -/
@[simp] theorem xorOctets_cancel (text mask : Octets n) :
    xorOctets (xorOctets text mask) mask = text := by
  apply List.Vector.ext
  intro i
  rw [get_xorOctets, get_xorOctets, UInt8.xor_assoc, UInt8.xor_self, UInt8.xor_zero]

end ExclusiveOr

end Disguise.Memory
