import Disguise.Memory.Buffer
import Disguise.Process.Alike
import Disguise.Process.Network

/-!
# Bounded accesses

Reading and writing a block of memory in a process. The C and C++ code tests no bounds, so an access
outside its block is the end of what the code promises: `load` and `store` stop the process with the
error `Fault.outOfBounds` of its error type. `load_eq` and `store_eq` discharge the accesses that
are in bounds, and `load_congr` keeps what a read that happened says about the length of its block.
An access of the same block is alike in two processes that end alike at an access outside it.
`StaysInBounds` says that a run makes no access outside a block; its equations turn a straight-line
process into the conjunction of its bounds.
-/

set_option autoImplicit false
set_option relaxedAutoImplicit false

namespace Disguise.Memory

open Process Process.Proc

/-- An error type with an error for accesses outside a block. -/
class Fault (ε : Type) where
  outOfBounds : ε

variable {M O ε α β : Type} [Fault ε]

/-- Reads a run of cells of a block. -/
def load (block : List α) (offset length : ℕ) : Proc M O ε (List α) := do
  require (offset + length ≤ block.length) Fault.outOfBounds
  return window block offset length

/-- Writes some data into a block. -/
def store (block : List α) (offset : ℕ) (data : List α) : Proc M O ε (List α) := do
  require (offset + data.length ≤ block.length) Fault.outOfBounds
  return overwrite block offset data

/-- A read inside a block returns the cells there. -/
theorem load_eq {block : List α} {offset length : ℕ} (hbounds : offset + length ≤ block.length) :
    (load block offset length : Proc M O ε (List α)) = done (window block offset length) := by
  rw [load, require, if_pos hbounds]
  rfl

/-- A write inside a block replaces the cells there. -/
theorem store_eq {block data : List α} {offset : ℕ}
    (hbounds : offset + data.length ≤ block.length) :
    (store block offset data : Proc M O ε (List α)) = done (overwrite block offset data) := by
  rw [store, require, if_pos hbounds]
  rfl

/-- A write behind the first part of a block extends that part. -/
theorem store_append {front rest data : List α} {offset : ℕ} (hoffset : front.length = offset)
    (hroom : data.length ≤ rest.length) :
    (store (front ++ rest) offset data : Proc M O ε (List α)) =
      done (front ++ data ++ rest.drop data.length) := by
  subst hoffset
  rw [store_eq (by rw [List.length_append]; omega), overwrite_append]

/-- Two continuations of a read are the same process when they agree on what the read can return. -/
theorem load_congr {block : List α} {offset length : ℕ} {first second : List α → Proc M O ε β}
    (hagree : offset + length ≤ block.length →
      first (window block offset length) = second (window block offset length)) :
    (load block offset length >>= first) = (load block offset length >>= second) := by
  by_cases hbounds : offset + length ≤ block.length
  · rw [load_eq hbounds, done_bind, done_bind, hagree hbounds]
  · rw [load, require, if_neg hbounds]
    rfl

section Completes

variable (environment : Environment M) (sends waits : ℕ) (result : β)

@[simp] theorem completes_load (block : List α) (offset length : ℕ)
    (continuation : List α → Proc M O ε β) :
    Completes environment (load block offset length >>= continuation) sends waits result ↔
      offset + length ≤ block.length ∧
        Completes environment (continuation (window block offset length)) sends waits result := by
  simp only [load, sequence_assoc, completes_require, pure_eq, done_bind]

@[simp] theorem completes_store (block : List α) (offset : ℕ) (data : List α)
    (continuation : List α → Proc M O ε β) :
    Completes environment (store block offset data >>= continuation) sends waits result ↔
      offset + data.length ≤ block.length ∧
        Completes environment (continuation (overwrite block offset data)) sends waits result := by
  simp only [store, sequence_assoc, completes_require, pure_eq, done_bind]

end Completes

section Hands

variable (environment : Environment M) (sends waits count : ℕ) (message : M)

@[simp] theorem hands_load (block : List α) (offset length : ℕ)
    (continuation : List α → Proc M O ε β) :
    Hands environment (load block offset length >>= continuation) sends waits count message ↔
      offset + length ≤ block.length ∧
        Hands environment (continuation (window block offset length)) sends waits count
          message := by
  simp only [load, sequence_assoc, hands_require, pure_eq, done_bind]

@[simp] theorem hands_store (block : List α) (offset : ℕ) (data : List α)
    (continuation : List α → Proc M O ε β) :
    Hands environment (store block offset data >>= continuation) sends waits count message ↔
      offset + data.length ≤ block.length ∧
        Hands environment (continuation (overwrite block offset data)) sends waits count
          message := by
  simp only [store, sequence_assoc, hands_require, pure_eq, done_bind]

end Hands

section Alike

variable {ε' β' : Type} [Fault ε'] {sameError : ε → ε' → Prop} {sameResult : β → β' → Prop}

theorem alike_load (block : List α) (offset length : ℕ) (continuation : List α → Proc M O ε β)
    (continuation' : List α → Proc M O ε' β') :
    Alike sameError sameResult (load block offset length >>= continuation)
        (load block offset length >>= continuation') ↔
      (¬ offset + length ≤ block.length → sameError Fault.outOfBounds Fault.outOfBounds) ∧
        (offset + length ≤ block.length →
          Alike sameError sameResult (continuation (window block offset length))
            (continuation' (window block offset length))) := by
  simp only [load, sequence_assoc, alike_require, pure_eq, done_bind]

theorem alike_store (block : List α) (offset : ℕ) (data : List α)
    (continuation : List α → Proc M O ε β) (continuation' : List α → Proc M O ε' β') :
    Alike sameError sameResult (store block offset data >>= continuation)
        (store block offset data >>= continuation') ↔
      (¬ offset + data.length ≤ block.length → sameError Fault.outOfBounds Fault.outOfBounds) ∧
        (offset + data.length ≤ block.length →
          Alike sameError sameResult (continuation (overwrite block offset data))
            (continuation' (overwrite block offset data))) := by
  simp only [store, sequence_assoc, alike_require, pure_eq, done_bind]

end Alike

section Respects

variable (good : O → Prop) (tolerated : ε → Prop) (promised : β → Prop)
  (environment : Environment M) (sends waits : ℕ)

@[simp] theorem respects_load (block : List α) (offset length : ℕ)
    (continuation : List α → Proc M O ε β) :
    Respects good tolerated promised environment (load block offset length >>= continuation) sends
        waits ↔
      (¬ offset + length ≤ block.length → tolerated Fault.outOfBounds) ∧
        (offset + length ≤ block.length → Respects good tolerated promised environment
          (continuation (window block offset length)) sends waits) := by
  simp only [load, sequence_assoc, respects_require, pure_eq, done_bind]

@[simp] theorem respects_store (block : List α) (offset : ℕ) (data : List α)
    (continuation : List α → Proc M O ε β) :
    Respects good tolerated promised environment (store block offset data >>= continuation) sends
        waits ↔
      (¬ offset + data.length ≤ block.length → tolerated Fault.outOfBounds) ∧
        (offset + data.length ≤ block.length → Respects good tolerated promised environment
          (continuation (overwrite block offset data)) sends waits) := by
  simp only [store, sequence_assoc, respects_require, pure_eq, done_bind]

end Respects

section StaysInBounds

variable (environment : Environment M) (sends waits : ℕ)

/-- A run does not end with an access outside a block. -/
def StaysInBounds (process : Proc M O ε α) : Prop :=
  (execute environment process sends waits).outcome ≠ .error Fault.outOfBounds

@[simp] theorem staysInBounds_done (value : β) :
    StaysInBounds environment sends waits (done value : Proc M O ε β) := by
  simp [StaysInBounds, execute]

@[simp] theorem staysInBounds_fail (error : ε) :
    StaysInBounds environment sends waits (fail error : Proc M O ε β) ↔
      error ≠ Fault.outOfBounds := by
  simp [StaysInBounds, execute]

@[simp] theorem staysInBounds_transmit (message : M) (continuation : Bool → Proc M O ε β) :
    StaysInBounds environment sends waits (transmit message >>= continuation) ↔
      StaysInBounds environment (sends + 1) waits (continuation (environment.accepts sends)) :=
  Iff.rfl

@[simp] theorem staysInBounds_receive (continuation : M → Proc M O ε β) :
    StaysInBounds environment sends waits (receive >>= continuation) ↔
      StaysInBounds environment sends (waits + 1) (continuation (environment.delivers waits)) :=
  Iff.rfl

@[simp] theorem staysInBounds_observe (observation : O) (continuation : Unit → Proc M O ε β) :
    StaysInBounds environment sends waits (observe observation >>= continuation) ↔
      StaysInBounds environment sends waits (continuation ()) :=
  Iff.rfl

@[simp] theorem staysInBounds_require (condition : Prop) [Decidable condition] (error : ε)
    (continuation : Unit → Proc M O ε β) :
    StaysInBounds environment sends waits (require condition error >>= continuation) ↔
      (¬ condition → error ≠ Fault.outOfBounds) ∧
        (condition → StaysInBounds environment sends waits (continuation ())) := by
  by_cases hcondition : condition <;> simp [require, hcondition]

@[simp] theorem staysInBounds_orFail (value : Option α) (error : ε)
    (continuation : α → Proc M O ε β) :
    StaysInBounds environment sends waits (orFail value error >>= continuation) ↔
      (value = none → error ≠ Fault.outOfBounds) ∧ ∀ found, value = some found →
        StaysInBounds environment sends waits (continuation found) := by
  cases value <;> simp [orFail]

@[simp] theorem staysInBounds_load (block : List α) (offset length : ℕ)
    (continuation : List α → Proc M O ε β) :
    StaysInBounds environment sends waits (load block offset length >>= continuation) ↔
      offset + length ≤ block.length ∧
        StaysInBounds environment sends waits (continuation (window block offset length)) := by
  by_cases hbounds : offset + length ≤ block.length
  · simp only [load_eq hbounds, done_bind, hbounds, true_and]
  · simp [load, require, hbounds]

@[simp] theorem staysInBounds_store (block : List α) (offset : ℕ) (data : List α)
    (continuation : List α → Proc M O ε β) :
    StaysInBounds environment sends waits (store block offset data >>= continuation) ↔
      offset + data.length ≤ block.length ∧
        StaysInBounds environment sends waits (continuation (overwrite block offset data)) := by
  by_cases hbounds : offset + data.length ≤ block.length
  · simp only [store_eq hbounds, done_bind, hbounds, true_and]
  · simp [store, require, hbounds]

end StaysInBounds

end Disguise.Memory
