import Mathlib.Algebra.Group.Nat.Defs
import Mathlib.Tactic.Common

/-!
# Buffers read and written at offsets

A block of memory as the list of its cells, with the two operations a `memcpy` performs: reading a
run of cells at an offset (`window`) and replacing one (`overwrite`). The operations are total; a
program that reads or writes outside its block has to be modelled with a test of its own, and the
lemmas here assume the bounds where they matter. Offsets and lengths are computed with the
subtraction of `size_t` (`sizeSub`).

The lemmas say what a window of a concatenation is, which is how a message layout is read back field
by field, and what a window of a partly overwritten buffer is.
-/

set_option autoImplicit false
set_option relaxedAutoImplicit false

namespace Disguise.Memory

variable {α : Type}

/-- The `length` cells of a buffer from an offset on. -/
def window (buffer : List α) (offset length : ℕ) : List α :=
  (buffer.drop offset).take length

/-- A buffer with the cells from an offset on replaced by some data. -/
def overwrite (buffer : List α) (offset : ℕ) (data : List α) : List α :=
  buffer.take offset ++ data ++ buffer.drop (offset + data.length)

/-- A buffer cut to a length, or filled up to it, as by `std::vector::resize`. -/
def resize (filler : α) (count : ℕ) (buffer : List α) : List α :=
  (buffer ++ List.replicate count filler).take count

/-- The difference of two `size_t` values, which wraps below zero. -/
def sizeSub (minuend subtrahend : ℕ) : ℕ := (minuend + 2 ^ 64 - subtrahend) % 2 ^ 64

/-- A difference that does not go below zero does not wrap. -/
theorem sizeSub_eq {minuend subtrahend : ℕ} (hle : subtrahend ≤ minuend)
    (hsize : minuend < 2 ^ 64) : sizeSub minuend subtrahend = minuend - subtrahend := by
  rw [sizeSub]
  omega

/-- A window inside the buffer has the length asked for. -/
theorem length_window {buffer : List α} {offset length : ℕ}
    (hbounds : offset + length ≤ buffer.length) :
    (window buffer offset length).length = length := by
  rw [window, List.length_take, List.length_drop]
  omega

/-- A window never has more cells than asked for. -/
theorem length_window_le (buffer : List α) (offset length : ℕ) :
    (window buffer offset length).length ≤ length := by
  rw [window, List.length_take]
  omega

@[simp] theorem window_zero (buffer : List α) (length : ℕ) :
    window buffer 0 length = buffer.take length := by
  rw [window, List.drop_zero]

/-- The window over the whole buffer is the buffer. -/
theorem window_all {buffer : List α} {length : ℕ} (hlength : buffer.length = length) :
    window buffer 0 length = buffer := by
  rw [window_zero, ← hlength, List.take_length]

/-- A window that ends inside the first part of a concatenation is a window of that part. -/
theorem window_append_left {first second : List α} {offset length : ℕ}
    (hbounds : offset + length ≤ first.length) :
    window (first ++ second) offset length = window first offset length := by
  rw [window, window, List.drop_append_of_le_length (by omega),
    List.take_append_of_le_length (by rw [List.length_drop]; omega)]

/-- A window that starts after the first part of a concatenation is a window of the second part. -/
theorem window_append_right {first second : List α} {offset length : ℕ}
    (hbounds : first.length ≤ offset) :
    window (first ++ second) offset length = window second (offset - first.length) length := by
  rw [window, window, List.drop_append, List.drop_of_length_le hbounds, List.nil_append]

/-- A window of a window is a window. -/
theorem window_window {buffer : List α} {offset length inner count : ℕ}
    (hbounds : inner + count ≤ length) :
    window (window buffer offset length) inner count = window buffer (offset + inner) count := by
  rw [window, window, window, List.drop_take, List.take_take, List.drop_drop]
  congr 1
  omega

/-- Overwriting inside the buffer keeps its length. -/
theorem length_overwrite {buffer data : List α} {offset : ℕ}
    (hbounds : offset + data.length ≤ buffer.length) :
    (overwrite buffer offset data).length = buffer.length := by
  rw [overwrite, List.length_append, List.length_append, List.length_take, List.length_drop]
  omega

/-- Data written over the start of a buffer comes before what is left of it. -/
@[simp] theorem overwrite_zero (buffer data : List α) :
    overwrite buffer 0 data = data ++ buffer.drop data.length := by
  rw [overwrite, List.take_zero, List.nil_append, Nat.zero_add]

/-- Data written over the end of a buffer comes after what is left of it. -/
theorem overwrite_end {buffer data : List α} {offset : ℕ}
    (hend : offset + data.length = buffer.length) :
    overwrite buffer offset data = buffer.take offset ++ data := by
  rw [overwrite, hend, List.drop_length, List.append_nil]

/-- Data written behind the first part of a buffer extends that part. -/
theorem overwrite_append (front rest data : List α) :
    overwrite (front ++ rest) front.length data = front ++ data ++ rest.drop data.length := by
  rw [overwrite, List.take_left, ← List.drop_drop, List.drop_left]

/-- A window inside what was written over the start of a buffer is a window of the data. -/
theorem window_overwrite_zero {buffer data : List α} {offset length : ℕ}
    (hbounds : offset + length ≤ data.length) :
    window (overwrite buffer 0 data) offset length = window data offset length := by
  rw [overwrite_zero, window_append_left hbounds]

/-- What was written can be read back. -/
theorem window_overwrite_self {buffer data : List α} {offset : ℕ}
    (hoffset : offset ≤ buffer.length) :
    window (overwrite buffer offset data) offset data.length = data := by
  have htake : (buffer.take offset).length = offset := by
    rw [List.length_take, Nat.min_eq_left hoffset]
  rw [overwrite, List.append_assoc, window_append_right (Nat.le_of_eq htake), htake, Nat.sub_self,
    window_append_left (by omega), window_all rfl]

/-- A window of one cell. -/
theorem window_one {buffer : List α} {offset : ℕ} (hoffset : offset < buffer.length)
    (filler : α) : window buffer offset 1 = [buffer.getD offset filler] := by
  rw [window, List.drop_eq_getElem_cons hoffset, ← List.getElem_eq_getD filler]
  rfl

/-- Overwriting one cell. -/
theorem overwrite_singleton {buffer : List α} {offset : ℕ} (hoffset : offset < buffer.length)
    (cell : α) : overwrite buffer offset [cell] = buffer.set offset cell := by
  rw [overwrite, List.set_eq_take_append_cons_drop, if_pos hoffset, List.append_assoc]
  rfl

/-- A resized buffer has the length asked for. -/
theorem length_resize (filler : α) (count : ℕ) (buffer : List α) :
    (resize filler count buffer).length = count := by
  rw [resize, List.length_take, List.length_append, List.length_replicate]
  omega

/-! ### A buffer filled from both ends

Some data goes to the start of a buffer and some more to its end. The two do not overlap. -/

section Filled

variable {buffer front back data : List α} {offset : ℕ}

/-- The buffer is the data at its start, a gap, and the data at its end. -/
theorem overwrite_both_ends (hgap : front.length ≤ offset)
    (hend : offset + back.length = buffer.length) :
    overwrite (overwrite buffer 0 front) offset back =
      front ++ ((buffer.drop front.length).take (offset - front.length) ++ back) := by
  have hfront : (overwrite buffer 0 front).length = buffer.length := length_overwrite (by omega)
  rw [overwrite_end (by omega), overwrite_zero, ← List.append_assoc, List.take_append,
    List.take_of_length_le hgap]

/-- What was written to the start can be read back. -/
theorem window_filled_front (hgap : front.length ≤ offset)
    (hend : offset + back.length = buffer.length) :
    window (overwrite (overwrite buffer 0 front) offset back) 0 front.length = front := by
  rw [overwrite_both_ends hgap hend, window_append_left (by omega), window_all rfl]

/-- What was written to the end can be read back. -/
theorem window_filled_back (hend : offset + back.length = buffer.length)
    (hgap : front.length ≤ offset) :
    window (overwrite (overwrite buffer 0 front) offset back) offset back.length = back := by
  have hfront : (overwrite buffer 0 front).length = buffer.length := length_overwrite (by omega)
  exact window_overwrite_self (by omega)

/-- New data that reaches up to the end part leaves the end part behind it. -/
theorem overwrite_filled (hgap : front.length ≤ offset)
    (hend : offset + back.length = buffer.length) (hdata : data.length = offset) :
    overwrite (overwrite (overwrite buffer 0 front) offset back) 0 data = data ++ back := by
  have hfront : (overwrite buffer 0 front).length = buffer.length := length_overwrite (by omega)
  have hhead : ((overwrite buffer 0 front).take offset).length = data.length := by
    rw [List.length_take]
    omega
  rw [overwrite_zero, overwrite_end (by omega), ← hhead, List.drop_left]

end Filled

end Disguise.Memory
