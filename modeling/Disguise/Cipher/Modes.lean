import Mathlib.Algebra.Group.Nat.Defs
import Mathlib.Algebra.Order.Group.Nat
import Mathlib.Data.List.Basic
import Mathlib.Tactic.Common

/-!
# Modes of operation

Two ways to use a block cipher on a text of several blocks, for any type of blocks and any way to
mask one with another. In cipher block chaining each block is masked with the ciphertext block
before it (`chain`), and the text comes back (`unchain_chain`). In counter mode the cells of the
text are masked with the cells of a pad, one block of the pad for each block of the text begun
(`counterMode`).

A text may be given to a mode in several calls that share a context (`callEach`). Chaining does not
see where the calls are divided (`callEach_flatten`). Counter mode does, since a block that a call
has begun is not finished by the next one, but no two calls mask with the same block of the pad
(`blocksBefore_injective`).
-/

set_option autoImplicit false
set_option relaxedAutoImplicit false

namespace Disguise.Cipher

/-! ### Calls that share a context -/

section Calls

variable {Context Cell : Type}
  (transform : Context → List Cell → Option (Context × List Cell))

/-- A sequence of calls, each from the context that the call before left. -/
def callEach : Context → List (List Cell) → Option (Context × List (List Cell))
  | context, [] => some (context, [])
  | context, call :: calls => do
    let (next, output) ← transform context call
    let (last, outputs) ← callEach next calls
    return (last, output :: outputs)

/-- Two calls whose outputs are put together. -/
def callBoth (context : Context) (first second : List Cell) : Option (Context × List Cell) := do
  let (next, output) ← transform context first
  let (last, rest) ← transform next second
  return (last, output ++ rest)

variable {transform}

/-- Where a call may be divided at the texts that are whole, calls on whole texts do together what
one call does on all of them.

Assumes: a call on nothing does nothing, and a call divides behind every whole text. -/
theorem callEach_flatten {whole : List Cell → Prop}
    (hnil : ∀ context, transform context [] = some (context, []))
    (hdivide : ∀ context first second, whole first →
      transform context (first ++ second) = callBoth transform context first second)
    {calls : List (List Cell)} (hwhole : ∀ call ∈ calls, whole call) (context : Context) :
    (callEach transform context calls).map (fun result ↦ (result.1, result.2.flatten)) =
      transform context calls.flatten := by
  induction calls generalizing context with
  | nil => exact (hnil context).symm
  | cons call calls ih =>
    have hrest : ∀ later ∈ calls, whole later :=
      fun later hlater ↦ hwhole later (List.mem_cons_of_mem _ hlater)
    rw [List.flatten_cons, hdivide context call _ (hwhole call List.mem_cons_self)]
    unfold callEach callBoth
    cases hcall : transform context call with
    | none => rfl
    | some result =>
      obtain ⟨next, output⟩ := result
      simp only [Option.bind_eq_bind, Option.bind_some, ← ih hrest next]
      cases callEach transform next calls with
      | none => rfl
      | some result => rfl

/-- Where a call keeps the length of its text, every call does. -/
theorem callEach_lengths
    (hlength : ∀ context text left output,
      transform context text = some (left, output) → output.length = text.length)
    {calls outputs : List (List Cell)} {context left : Context}
    (hcalls : callEach transform context calls = some (left, outputs)) :
    outputs.map List.length = calls.map List.length := by
  induction calls generalizing context outputs with
  | nil =>
    obtain ⟨-, rfl⟩ := Prod.mk.inj (Option.some.inj hcalls)
    rfl
  | cons call calls ih =>
    obtain ⟨⟨next, output⟩, hcall, hrest⟩ := Option.bind_eq_some_iff.mp hcalls
    obtain ⟨⟨last, outputs'⟩, hlater, hresult⟩ := Option.bind_eq_some_iff.mp hrest
    obtain ⟨rfl, rfl⟩ := Prod.mk.inj (Option.some.inj hresult)
    rw [List.map_cons, List.map_cons, hlength _ _ _ _ hcall, ih hlater]

end Calls

/-! ### Cipher block chaining -/

section Chaining

variable {Block : Type} (encrypt decrypt : Block → Block) (mask : Block → Block → Block)

/-- The ciphertext of a list of blocks behind an initial block. -/
def chain : Block → List Block → List Block
  | _, [] => []
  | before, block :: blocks =>
    encrypt (mask block before) :: chain (encrypt (mask block before)) blocks

/-- The text of a list of ciphertext blocks. -/
def unchain : Block → List Block → List Block
  | _, [] => []
  | before, block :: blocks => mask (decrypt block) before :: unchain block blocks

variable {encrypt decrypt mask}

/-- The text comes back.

Assumes: `decrypt` undoes `encrypt`, and a mask put on twice is taken off. -/
theorem unchain_chain (hdecrypt : Function.LeftInverse decrypt encrypt)
    (hmask : ∀ block other, mask (mask block other) other = block)
    (before : Block) (blocks : List Block) :
    unchain decrypt mask before (chain encrypt mask before blocks) = blocks := by
  induction blocks generalizing before with
  | nil => rfl
  | cons block blocks ih => rw [chain, unchain, hdecrypt, hmask, ih]

end Chaining

/-! ### Counter mode -/

section Counter

variable {Cell : Type} (mask : Cell → Cell → Cell) (size : ℕ) (pad : ℕ → ℕ → Cell)

/-- The cells of a text masked with the blocks of the pad from a number on. -/
def counterMode (start : ℕ) (text : List Cell) : List Cell :=
  text.mapIdx fun i cell ↦ mask cell (pad (start + i / size) (i % size))

/-- How many blocks a text of some length begins. -/
def blocksBegun (length : ℕ) : ℕ := (length + size - 1) / size

/-- How many blocks the calls before call `k` begin. -/
def blocksBefore : List (List Cell) → ℕ → ℕ
  | _, 0 => 0
  | [], _ + 1 => 0
  | call :: calls, k + 1 => blocksBegun size call.length + blocksBefore calls k

variable {mask size pad}

@[simp] theorem length_counterMode (start : ℕ) (text : List Cell) :
    (counterMode mask size pad start text).length = text.length := by
  rw [counterMode, List.length_mapIdx]

/-- A text masked twice comes back. -/
theorem counterMode_counterMode (hmask : ∀ cell other, mask (mask cell other) other = cell)
    (start : ℕ) (text : List Cell) :
    counterMode mask size pad start (counterMode mask size pad start text) = text := by
  rw [counterMode, counterMode, List.mapIdx_mapIdx]
  refine List.mapIdx_eq_iff.mpr fun i ↦ ?_
  show text[i]? = text[i]?.map fun cell ↦ mask (mask cell (pad (start + i / size) (i % size)))
    (pad (start + i / size) (i % size))
  rw [funext fun cell ↦ hmask cell (pad (start + i / size) (i % size))]
  exact Option.map_id'.symm

/-- A cell of a text is in a block that the text begins. -/
theorem div_lt_blocksBegun {i length : ℕ} (hsize : 0 < size) (hi : i < length) :
    i / size < blocksBegun size length := by
  rw [blocksBegun, Nat.div_lt_iff_lt_mul hsize, ← Nat.succ_le_iff]
  have hround := Nat.div_add_mod (length + size - 1) size
  have hmod := Nat.mod_lt (length + size - 1) hsize
  rw [Nat.mul_comm] at hround
  omega

/-- A later call starts behind the blocks of an earlier one. -/
theorem blocksBefore_add_le {calls : List (List Cell)} {k later : ℕ} (hlater : k < later)
    (hk : k < calls.length) (hcalls : later ≤ calls.length) :
    blocksBefore size calls k + blocksBegun size calls[k].length ≤
      blocksBefore size calls later := by
  induction calls generalizing k later with
  | nil => exact absurd hk (Nat.not_lt_zero _)
  | cons call calls ih =>
    cases later with
    | zero => exact absurd hlater (Nat.not_lt_zero _)
    | succ later =>
      rw [blocksBefore]
      cases k with
      | zero =>
        rw [blocksBefore, Nat.zero_add, List.getElem_cons_zero]
        exact Nat.le_add_right _ _
      | succ k =>
        have hbefore := ih (Nat.lt_of_succ_lt_succ hlater) (Nat.lt_of_succ_lt_succ hk)
          (Nat.le_of_succ_le_succ hcalls)
        rw [blocksBefore, List.getElem_cons_succ, Nat.add_assoc]
        exact Nat.add_le_add_left hbefore _

/-- A block that a text begins is before the number behind all the calls. -/
theorem blocksBefore_lt (hsize : 0 < size) {calls : List (List Cell)} {k i : ℕ}
    (hk : k < calls.length) (hi : i < calls[k].length) :
    blocksBefore size calls k + i / size < blocksBefore size calls calls.length :=
  (Nat.add_lt_add_left (div_lt_blocksBegun hsize hi) _).trans_le (blocksBefore_add_le hk hk le_rfl)

/-- Only the lengths of the calls count. -/
theorem blocksBefore_congr {calls other : List (List Cell)}
    (hlengths : other.map List.length = calls.map List.length) (k : ℕ) :
    blocksBefore size other k = blocksBefore size calls k := by
  induction k generalizing calls other with
  | zero => rw [blocksBefore, blocksBefore]
  | succ k ih =>
    cases calls with
    | nil =>
      obtain rfl : other = [] := List.map_eq_nil_iff.mp hlengths
      rfl
    | cons call calls =>
      obtain ⟨first, rest, rfl, hfirst, hrest⟩ := List.map_eq_cons_iff.mp hlengths
      rw [blocksBefore, blocksBefore, hfirst, ih hrest]

/-- Two cells of the texts of some calls are masked with the same block of the pad only if they are
in the same block of the same call. -/
theorem blocksBefore_injective (hsize : 0 < size) {calls : List (List Cell)} {k other i j : ℕ}
    (hk : k < calls.length) (hother : other < calls.length) (hi : i < calls[k].length)
    (hj : j < calls[other].length)
    (hblock : blocksBefore size calls k + i / size = blocksBefore size calls other + j / size) :
    k = other ∧ i / size = j / size := by
  have hbegun := div_lt_blocksBegun hsize hi
  have hbegun' := div_lt_blocksBegun hsize hj
  generalize i / size = block, j / size = block' at *
  rcases Nat.lt_trichotomy k other with hlt | heq | hgt
  · have hbefore : _ + blocksBegun size _ ≤ blocksBefore size calls other :=
      blocksBefore_add_le hlt hk hother.le
    omega
  · subst heq
    exact ⟨rfl, Nat.add_left_cancel hblock⟩
  · have hbefore : _ + blocksBegun size _ ≤ blocksBefore size calls k :=
      blocksBefore_add_le hgt hother hk.le
    omega

/-- Calls that each mask from the number their context stands for on, and leave the context of the
number behind the blocks they have begun. -/
theorem callEach_counterMode {Context : Type}
    (transform : Context → List Cell → Option (Context × List Cell)) (context : ℕ → Context)
    (hcall : ∀ start text, transform (context start) text =
      some (context (start + blocksBegun size text.length), counterMode mask size pad start text))
    (calls : List (List Cell)) (start : ℕ) :
    callEach transform (context start) calls =
      some (context (start + blocksBefore size calls calls.length),
        calls.mapIdx fun k call ↦
          counterMode mask size pad (start + blocksBefore size calls k) call) := by
  induction calls generalizing start with
  | nil => rfl
  | cons call calls ih =>
    have hnext (k : ℕ) : start + blocksBefore size (call :: calls) (k + 1) =
        start + blocksBegun size call.length + blocksBefore size calls k :=
      (Nat.add_assoc _ _ _).symm
    unfold callEach
    rw [hcall, List.mapIdx_cons, List.length_cons]
    simp only [Option.bind_eq_bind, Option.bind_some, ih, hnext]
    rfl

/-- What such calls have made of some texts is undone by the same calls from the first context. -/
theorem callEach_counterMode_undone {Context : Type}
    (transform : Context → List Cell → Option (Context × List Cell)) (context : ℕ → Context)
    (hcall : ∀ start text, transform (context start) text =
      some (context (start + blocksBegun size text.length), counterMode mask size pad start text))
    (hmask : ∀ cell other, mask (mask cell other) other = cell)
    (calls : List (List Cell)) (start : ℕ) :
    callEach transform (context start) (calls.mapIdx fun k call ↦
        counterMode mask size pad (start + blocksBefore size calls k) call) =
      some (context (start + blocksBefore size calls calls.length), calls) := by
  have hlengths : (calls.mapIdx fun k call ↦
      counterMode mask size pad (start + blocksBefore size calls k) call).map List.length =
        calls.map List.length := by
    refine List.ext_getElem? fun k ↦ ?_
    rw [List.getElem?_map, List.getElem?_mapIdx, List.getElem?_map, Option.map_map]
    exact congrArg (Option.map · _) (funext fun call ↦ length_counterMode _ call)
  rw [callEach_counterMode transform context hcall, List.length_mapIdx, blocksBefore_congr hlengths]
  refine congrArg (fun texts ↦ some (_, texts)) ?_
  refine List.mapIdx_eq_iff.mpr fun k ↦ ?_
  simp only [List.getElem?_mapIdx, Option.map_map, blocksBefore_congr hlengths]
  have hundone : (counterMode mask size pad (start + blocksBefore size calls k) ∘
      counterMode mask size pad (start + blocksBefore size calls k)) = id :=
    funext fun call ↦ counterMode_counterMode hmask _ call
  show calls[k]? = calls[k]?.map _
  rw [hundone]
  exact (congrFun Option.map_id calls[k]?).symm

end Counter

end Disguise.Cipher
