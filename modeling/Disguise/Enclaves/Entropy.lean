import Disguise.Process.History
import Disguise.Runtime.StringFunctions

/-!
# The entropy of the enclaves

`magic_random_init` and `syscall` of `hacks.h`, the only source of randomness that libsodium has in
the enclaves. The pool has 512 bytes that are the same at every start, and `SYS_getrandom` hands
them out one after the other. When it is empty the calls do not fail: they return that they have
written nothing.

The pool and the buffers of the calls are in one flat memory, and the rest of the program may write
to it between two calls, only not to the pool. The pointer that `malloc` returns is a parameter.
-/

set_option autoImplicit false
set_option relaxedAutoImplicit false

namespace Disguise.Enclaves

open Memory Process Disguise.Runtime

/-! ### The code -/

/-- `entropy_bytes` and `remaining_bytes`, with the memory. -/
structure Entropy where
  entropyBytes : UInt64
  remainingBytes : UInt64
  memory : FlatMemory

/-- The loop of `magic_random_init`, up to a value of `i`. -/
def fillEntropy (entropyBytes : UInt64) (memory : FlatMemory) : (i : ℕ) → FlatMemory
  | 0 => memory
  | i + 1 => storeByte (fillEntropy entropyBytes memory i) (entropyBytes + UInt64.ofNat i)
      (UInt8.ofNat (i % 255))

/-- `magic_random_init`, with the pointer `malloc(512)` returns. The enclave exits if it is null. -/
def magicRandomInit (allocated : UInt64) (memory : FlatMemory) : Option Entropy :=
  if allocated = 0 then none
  else some ⟨allocated, 512, fillEntropy allocated memory 512⟩

/-- `SYS_getrandom`. -/
def sysGetrandom : Int64 := 278

/-- The variables in the loop of `syscall`. -/
structure DrawLoop where
  entropy : Entropy
  done : UInt64

/-- The condition of the loop. -/
abbrev DrawLoop.Running (count : UInt64) (loop : DrawLoop) : Prop :=
  0 < loop.entropy.remainingBytes ∧ loop.done < count

/-- A turn of the loop. -/
def DrawLoop.turn (buffer : UInt64) (loop : DrawLoop) : DrawLoop where
  entropy :=
    { entropyBytes := loop.entropy.entropyBytes + 1
      remainingBytes := loop.entropy.remainingBytes - 1
      memory := storeByte loop.entropy.memory (buffer + loop.done)
        (loop.entropy.memory loop.entropy.entropyBytes) }
  done := loop.done + 1

/-- `syscall`, called with a buffer and a length. There are no more turns than bytes that remain. -/
def syscall (number : Int64) (buffer count : UInt64) (entropy : Entropy) :
    Option (Int64 × Entropy) :=
  if number ≠ sysGetrandom then some (-1, entropy)
  else do
    let drawn ← whileLoop (DrawLoop.Running count) (DrawLoop.turn buffer)
      entropy.remainingBytes.toNat ⟨entropy, 0⟩
    return (drawn.done.toInt64, drawn.entropy)

/-! ### One call -/

/-- The pool of every start. -/
def pool : List UInt8 := (List.range 512).map fun i ↦ UInt8.ofNat (i % 255)

theorem length_pool : pool.length = 512 := by
  rw [pool, List.length_map, List.length_range]

/-- The loop of `magic_random_init` writes the first bytes of the pool.

Assumes: the pool does not wrap around. -/
theorem fillEntropy_replaced (allocated : UInt64) (memory : FlatMemory) {i : ℕ}
    (hend : allocated.toNat + i < 2 ^ 64) :
    Replaced (fun address ↦ UInt8.ofNat ((address - allocated).toNat % 255)) allocated i memory
      (fillEntropy allocated memory i) := by
  induction i with
  | zero => exact replaced_zero _ allocated memory
  | succ i ih =>
    have hcursor : (allocated + UInt64.ofNat i).toNat = allocated.toNat + i :=
      toNat_add_ofNat (by omega)
    refine (ih (by omega)).writeBytes (allocated + UInt64.ofNat i) [UInt8.ofNat (i % 255)] hcursor
      ?_ fun address haddress ↦ ?_
    · rw [hcursor, List.length_singleton]
      omega
    · rw [InRegion, List.length_singleton] at haddress
      have hplace : address.toNat = allocated.toNat + i := by omega
      have hoffset : (address - allocated).toNat = i := by
        rw [UInt64.toNat_sub_of_le _ _ (UInt64.le_iff_toNat_le.mpr (by omega))]
        omega
      rw [hoffset, hcursor, hplace, Nat.sub_self]
      rfl

/-- `magic_random_init` leaves the pool at its pointer. -/
theorem readBytes_fillEntropy (allocated : UInt64) (memory : FlatMemory)
    (hend : allocated.toNat + 512 < 2 ^ 64) :
    readBytes (fillEntropy allocated memory 512) allocated 512 = pool := by
  have hfilled := fillEntropy_replaced allocated memory hend
  refine List.map_congr_left fun i hi ↦ ?_
  have hplace : i < 512 := List.mem_range.mp hi
  have hsmall : i < 2 ^ 64 := by omega
  have haddress : (allocated + UInt64.ofNat i).toNat = allocated.toNat + i :=
    toNat_add_ofNat (by omega)
  rw [hfilled.inside _ ⟨by omega, by omega⟩, UInt64.add_comm allocated, UInt64.add_sub_cancel,
    UInt64.toNat_ofNat_of_lt' hsmall]

section Draw

variable {buffer count : UInt64} {entropy : Entropy}

/-- How many bytes a call hands out. -/
def available (count : UInt64) (entropy : Entropy) : UInt64 :=
  if count ≤ entropy.remainingBytes then count else entropy.remainingBytes

theorem available_toNat (count : UInt64) (entropy : Entropy) :
    (available count entropy).toNat = min count.toNat entropy.remainingBytes.toNat := by
  rw [available]
  split_ifs with henough
  · exact (min_eq_left (UInt64.le_iff_toNat_le.mp henough)).symm
  · have hfewer := mt UInt64.le_iff_toNat_le.mpr henough
    exact (min_eq_right (by omega)).symm

/-- The loop of `syscall` copies from the pool to the buffer. -/
structure Drawing (buffer count : UInt64) (entropy : Entropy) (loop : DrawLoop) : Prop where
  left : loop.entropy.remainingBytes = entropy.remainingBytes - loop.done
  at_most : loop.done ≤ available count entropy
  copying : Copying buffer entropy.entropyBytes (available count entropy) entropy.memory
    ⟨buffer + loop.done, loop.entropy.entropyBytes, loop.entropy.memory⟩

/-- The loop makes another turn exactly if it has not handed out all it can. -/
theorem Drawing.running_iff {loop : DrawLoop} (hdrawing : Drawing buffer count entropy loop) :
    loop.Running count ↔ loop.done < available count entropy := by
  have hmost := UInt64.le_iff_toNat_le.mp hdrawing.at_most
  have hleft : loop.entropy.remainingBytes.toNat =
      entropy.remainingBytes.toNat - loop.done.toNat := by
    rw [hdrawing.left]
    refine UInt64.toNat_sub_of_le _ _ (UInt64.le_iff_toNat_le.mpr ?_)
    rw [available_toNat] at hmost
    omega
  have hzero : (0 : UInt64).toNat = 0 := rfl
  rw [DrawLoop.Running, UInt64.lt_iff_toNat_lt, UInt64.lt_iff_toNat_lt, UInt64.lt_iff_toNat_lt,
    hleft, available_toNat, hzero]
  omega

/-- A turn hands out the next byte.

Assumes: the buffer and the pool do not wrap around and have no address in common. -/
theorem Drawing.turn {loop : DrawLoop} (hdrawing : Drawing buffer count entropy loop)
    (hend : buffer.toNat + (available count entropy).toNat < 2 ^ 64)
    (hsrcEnd : entropy.entropyBytes.toNat + (available count entropy).toNat ≤ 2 ^ 64)
    (hapart : Apart entropy.entropyBytes buffer (available count entropy).toNat)
    (hrunning : loop.done < available count entropy) :
    Drawing buffer count entropy (loop.turn buffer) ∧
      (loop.turn buffer).done.toNat = loop.done.toNat + 1 := by
  have hless := UInt64.lt_iff_toNat_lt.mp hrunning
  have hplace : (buffer + loop.done).toNat = buffer.toNat + loop.done.toNat :=
    toNat_add (by omega)
  have hone : (1 : UInt64).toNat = 1 := rfl
  have hdone : (loop.done + 1).toNat = loop.done.toNat + 1 := toNat_add (by omega)
  have hroom : (buffer + loop.done).toNat + 1 ≤
      buffer.toNat + (available count entropy).toNat := by
    omega
  obtain ⟨hcopying, -⟩ := hdrawing.copying.turn hend hsrcEnd hapart hroom
  refine ⟨⟨?_, ?_, ?_⟩, hdone⟩
  · show loop.entropy.remainingBytes - 1 = entropy.remainingBytes - (loop.done + 1)
    rw [hdrawing.left]
    grind
  · show loop.done + 1 ≤ available count entropy
    rw [UInt64.le_iff_toNat_le, hdone]
    omega
  · have hnext : buffer + (loop.done + 1) = buffer + loop.done + 1 :=
      (UInt64.add_assoc _ _ _).symm
    show Copying buffer entropy.entropyBytes (available count entropy) entropy.memory
      ⟨buffer + (loop.done + 1), loop.entropy.entropyBytes + 1,
        storeByte loop.entropy.memory (buffer + loop.done)
          (loop.entropy.memory loop.entropy.entropyBytes)⟩
    rw [hnext, storeByte_load]
    exact hcopying

/-- `SYS_getrandom` hands out the next bytes of the pool, as many as are asked for or remain.

Assumes: the buffer and the pool do not wrap around and have no address in common. -/
theorem syscall_getrandom (hend : buffer.toNat + (available count entropy).toNat < 2 ^ 64)
    (hsrcEnd : entropy.entropyBytes.toNat + (available count entropy).toNat ≤ 2 ^ 64)
    (hapart : Apart entropy.entropyBytes buffer (available count entropy).toNat) :
    ∃ memory, syscall sysGetrandom buffer count entropy =
        some ((available count entropy).toInt64,
          ⟨entropy.entropyBytes + available count entropy,
            entropy.remainingBytes - available count entropy, memory⟩) ∧
      Replaced (fun address ↦ entropy.memory (entropy.entropyBytes + (address - buffer))) buffer
        (available count entropy).toNat entropy.memory memory := by
  have hstart : Drawing buffer count entropy ⟨entropy, 0⟩ := by
    refine ⟨(UInt64.sub_zero _).symm, UInt64.le_iff_toNat_le.mpr (Nat.zero_le _), ?_⟩
    have hbuffer : buffer + 0 = buffer := UInt64.add_zero buffer
    rw [hbuffer]
    refine ⟨Nat.le_refl _, Nat.le_add_right _ _, ?_, ?_⟩
    · rw [UInt64.sub_self, UInt64.add_zero]
    · rw [Nat.sub_self]
      exact replaced_zero _ buffer entropy.memory
  have hturn (loop : DrawLoop) (hdrawing : Drawing buffer count entropy loop)
      (hrunning : loop.Running count) :
      Drawing buffer count entropy (loop.turn buffer) ∧
        (available count entropy).toNat - (loop.turn buffer).done.toNat <
          (available count entropy).toNat - loop.done.toNat := by
    have hless := hdrawing.running_iff.mp hrunning
    obtain ⟨hkept, hdone⟩ := hdrawing.turn hend hsrcEnd hapart hless
    rw [UInt64.lt_iff_toNat_lt] at hless
    exact ⟨hkept, by omega⟩
  have hturns : (available count entropy).toNat - (0 : UInt64).toNat ≤
      entropy.remainingBytes.toNat := by
    rw [available_toNat]
    omega
  obtain ⟨last, hlast, hdrawing, hended⟩ := whileLoop_of_invariant
    (fun loop ↦ (available count entropy).toNat - loop.done.toNat) hturn hstart hturns
  have hmost := UInt64.le_iff_toNat_le.mp hdrawing.at_most
  have hnot := mt hdrawing.running_iff.mpr hended
  rw [UInt64.lt_iff_toNat_lt] at hnot
  have hall : last.done = available count entropy := UInt64.toNat_inj.mp (by omega)
  obtain ⟨hleft, -, hcopying⟩ := hdrawing
  rw [hall] at hleft hcopying
  have hplace : (buffer + available count entropy).toNat - buffer.toNat =
      (available count entropy).toNat := by
    rw [toNat_add hend, Nat.add_sub_cancel_left]
  have hpointer : last.entropy.entropyBytes =
      entropy.entropyBytes + available count entropy := by
    have htogether := hcopying.together
    dsimp only at htogether
    rw [htogether, UInt64.add_comm buffer, UInt64.add_sub_cancel]
  have hcopied := hcopying.copied
  dsimp only at hcopied
  rw [hplace] at hcopied
  refine ⟨last.entropy.memory, ?_, hcopied⟩
  rw [syscall, if_neg (not_not.mpr rfl), hlast, Option.bind_eq_bind, Option.bind_some, hall,
    ← hpointer, ← hleft]
  rfl

end Draw

/-! ### Runs -/

/-- A call: its number, how many bytes it asks for, the value it returns, and what it has written to
its buffer. -/
structure Call where
  number : Int64
  count : UInt64
  value : Int64
  bytes : List UInt8

/-- A buffer has an address behind it and no address in common with the pool. -/
def Usable (allocated buffer count : UInt64) : Prop :=
  buffer.toNat + count.toNat < 2 ^ 64 ∧
    ∀ address, InRegion allocated 512 address → ¬ InRegion buffer count.toNat address

/-- A step of the enclave: a call, or anything that does not write to the pool. -/
inductive EntropyStep (allocated : UInt64) : Entropy → List Call → Entropy → Prop where
  | call {number : Int64} {buffer count : UInt64} {before after : Entropy} {value : Int64}
      (hbuffer : Usable allocated buffer count)
      (hcall : syscall number buffer count before = some (value, after)) :
      EntropyStep allocated before
        [⟨number, count, value, readBytes after.memory buffer value.toNatClampNeg⟩] after
  | other {before : Entropy} {memory : FlatMemory}
      (hpool : ∀ address, InRegion allocated 512 address →
        memory address = before.memory address) :
      EntropyStep allocated before [] { before with memory := memory }

/-- How many random bytes a call asks for. -/
def Call.requested (call : Call) : ℕ := if call.number = sysGetrandom then call.count.toNat else 0

/-- How many random bytes the calls of a run ask for. -/
def requested (history : List Call) : ℕ := (history.map Call.requested).sum

theorem requested_append (history events : List Call) :
    requested (history ++ events) = requested history + requested events := by
  rw [requested, List.map_append, List.sum_append]
  rfl

/-- The value of a call is the number of bytes it has handed out, or the error. -/
def Call.Answered (call : Call) : Prop :=
  call.value.toInt = if call.number = sysGetrandom then (call.bytes.length : ℤ) else -1

/-- What holds after every run: the bytes of the pool up to the pointer are handed out, and the
whole pool is in the memory. -/
structure Pooled (allocated : UInt64) (history : List Call) (entropy : Entropy) : Prop where
  entropyBytes : entropy.entropyBytes.toNat = allocated.toNat + min (requested history) 512
  remainingBytes : entropy.remainingBytes.toNat = 512 - requested history
  unspoilt : readBytes entropy.memory allocated 512 = pool
  handedOut : history.flatMap Call.bytes = pool.take (requested history)
  answered : ∀ call ∈ history, call.Answered

/-- A value below `2 ^ 63` is the same as a `long`. -/
theorem toInt_toInt64 {value : UInt64} (hsmall : value.toNat < 2 ^ 63) :
    value.toInt64.toInt = value.toNat := by
  have hbits : value.toInt64.toInt = value.toBitVec.toInt := rfl
  rw [hbits, BitVec.toInt_eq_toNat_of_lt]
  · rfl
  · show 2 * value.toNat < 2 ^ 64
    omega

/-- A part of a region reads as that part of what the region reads as. -/
theorem readBytes_part (memory : FlatMemory) (start : UInt64) {first count size : ℕ}
    (hsize : first + count ≤ size) :
    readBytes memory (start + UInt64.ofNat first) count =
      ((readBytes memory start size).drop first).take count := by
  refine List.ext_getElem ?_ fun i hi _ ↦ ?_
  · rw [length_readBytes, List.length_take, List.length_drop, length_readBytes]
    omega
  · have hplace : start + UInt64.ofNat first + UInt64.ofNat i =
        start + UInt64.ofNat (first + i) := by
      rw [UInt64.ofNat_add, UInt64.add_assoc]
    rw [List.getElem_take, List.getElem_drop]
    simp only [readBytes, List.getElem_map, List.getElem_range, hplace]

/-- A region that is left alone reads as before. -/
theorem readBytes_congr {before after : FlatMemory} {start : UInt64} {count : ℕ}
    (hend : start.toNat + count < 2 ^ 64)
    (hsame : ∀ address, InRegion start count address → after address = before address) :
    readBytes after start count = readBytes before start count := by
  refine List.map_congr_left fun i hi ↦ hsame _ ?_
  have hi' : i < count := List.mem_range.mp hi
  have haddress : (start + UInt64.ofNat i).toNat = start.toNat + i := toNat_add_ofNat (by omega)
  exact ⟨by omega, by omega⟩

section Runs

variable {allocated : UInt64} {history : List Call} {entropy : Entropy}
  (hend : allocated.toNat + 512 < 2 ^ 64)

include hend

/-- A call for random bytes gets the next ones, and fewer than it asks for at the end of the
pool. -/
theorem Pooled.getrandom (hpooled : Pooled allocated history entropy) {buffer count : UInt64}
    (husable : Usable allocated buffer count) :
    ∃ value after, syscall sysGetrandom buffer count entropy = some (value, after) ∧
      value.toInt = min count.toNat (512 - requested history) ∧
      Pooled allocated (history ++ [⟨sysGetrandom, count, value,
        readBytes after.memory buffer value.toNatClampNeg⟩]) after := by
  obtain ⟨hpointer, hremaining, hunspoilt, hhanded, hanswered⟩ := hpooled
  obtain ⟨hbuffer, hapart⟩ := husable
  have hcount := available_toNat count entropy
  rw [hremaining] at hcount
  have hpart : entropy.entropyBytes = allocated + UInt64.ofNat (min (requested history) 512) := by
    rw [← UInt64.toNat_inj, toNat_add_ofNat (by omega), hpointer]
  have hsource : Apart entropy.entropyBytes buffer (available count entropy).toNat := by
    intro address hinside hoverlap
    rw [InRegion] at hinside hoverlap
    exact hapart address ⟨by omega, by omega⟩ ⟨hoverlap.1, by omega⟩
  obtain ⟨memory, hcall, hreplaced⟩ := syscall_getrandom (by omega) (by omega) hsource
  have hvalue : (available count entropy).toInt64.toInt = (available count entropy).toNat :=
    toInt_toInt64 (by omega)
  have hclamped : (available count entropy).toInt64.toNatClampNeg =
      (available count entropy).toNat := by
    rw [Int64.toNatClampNeg, hvalue, Int.toNat_natCast]
  have hlast : requested [⟨sysGetrandom, count, (available count entropy).toInt64,
      readBytes memory buffer (available count entropy).toNat⟩] = count.toNat :=
    Nat.add_zero count.toNat
  have hbytes : readBytes memory buffer (available count entropy).toNat =
      (pool.drop (requested history)).take count.toNat := by
    rw [hreplaced.readBytes_eq (by omega), hpart, readBytes_part entropy.memory allocated
      (show min (requested history) 512 + (available count entropy).toNat ≤ 512 by omega),
      hunspoilt]
    have hdropped : pool.drop (min (requested history) 512) = pool.drop (requested history) := by
      rw [List.drop_eq_drop_iff, length_pool]
      omega
    rw [hdropped, List.take_eq_take_iff, List.length_drop, length_pool]
    omega
  refine ⟨_, _, hcall, ?_, ?_⟩
  · rw [hvalue, hcount]
  rw [hclamped]
  constructor
  · rw [requested_append, hlast, toNat_add (by omega), hpointer, hcount]
    omega
  · rw [requested_append, hlast, UInt64.toNat_sub_of_le _ _ (UInt64.le_iff_toNat_le.mpr (by omega)),
      hremaining, hcount]
    omega
  · rw [← hunspoilt]
    refine readBytes_congr hend fun address haddress ↦ hreplaced.outside address ?_
    intro hinside
    rw [InRegion] at hinside
    exact hapart address haddress ⟨hinside.1, by omega⟩
  · rw [List.flatMap_append, List.flatMap_singleton, hhanded, requested_append, hlast,
      List.take_add, hbytes]
  · intro call hcall
    rcases List.mem_append.mp hcall with hold | hnew
    · exact hanswered call hold
    · rw [List.mem_singleton.mp hnew, Call.Answered, if_pos rfl, hvalue, length_readBytes]

/-- A step hands out the next bytes of the pool, or none. -/
theorem Pooled.step {before after : Entropy} {events : List Call}
    (hpooled : Pooled allocated history before)
    (hstep : EntropyStep allocated before events after) :
    Pooled allocated (history ++ events) after := by
  cases hstep with
  | @call number buffer count _ _ value husable hcall =>
    by_cases hnumber : number = sysGetrandom
    · subst hnumber
      obtain ⟨value', after', hcall', -, hkept⟩ := hpooled.getrandom hend husable
      rw [hcall, Option.some_inj, Prod.mk_inj] at hcall'
      obtain ⟨rfl, rfl⟩ := hcall'
      exact hkept
    · rw [syscall, if_pos hnumber, Option.some_inj, Prod.mk_inj] at hcall
      obtain ⟨rfl, rfl⟩ := hcall
      obtain ⟨hpointer, hremaining, hunspoilt, hhanded, hanswered⟩ := hpooled
      have hnone : requested [⟨number, count, -1, readBytes before.memory buffer 0⟩] = 0 := by
        rw [requested, List.map_singleton, List.sum_singleton, Call.requested, if_neg hnumber]
      have hclamped : (-1 : Int64).toNatClampNeg = 0 := rfl
      rw [hclamped]
      refine ⟨?_, ?_, hunspoilt, ?_, ?_⟩
      · rw [requested_append, hnone, Nat.add_zero, hpointer]
      · rw [requested_append, hnone, Nat.add_zero, hremaining]
      · rw [List.flatMap_append, List.flatMap_singleton, requested_append, hnone, Nat.add_zero,
          hhanded]
        exact List.append_nil _
      · intro call hcall
        rcases List.mem_append.mp hcall with hold | hnew
        · exact hanswered call hold
        · rw [List.mem_singleton.mp hnew, Call.Answered, if_neg hnumber]
          rfl
  | other hpool =>
    rw [List.append_nil]
    exact ⟨hpooled.entropyBytes, hpooled.remainingBytes,
      (readBytes_congr hend hpool).trans hpooled.unspoilt, hpooled.handedOut, hpooled.answered⟩

/-- Nothing is handed out at the start. -/
theorem pooled_start {memory : FlatMemory} {first : Entropy}
    (hinit : magicRandomInit allocated memory = some first) : Pooled allocated [] first := by
  rw [magicRandomInit] at hinit
  split_ifs at hinit with hnull
  obtain rfl := Option.some_inj.mp hinit
  exact ⟨rfl, rfl, readBytes_fillEntropy allocated memory hend, rfl,
    fun _ hcall ↦ absurd hcall List.not_mem_nil⟩

/-- Whatever an enclave does between its calls, the random bytes it gets are those of the pool in
their order, the same at every start, each of them once. A call gets as many as it asks for until
the pool is empty and returns how many it has got; it always returns, and every other call fails.

Assumes: the pool has an address behind it, and is written to by no other part of the program. -/
theorem getrandom_hands_out_pool {memory : FlatMemory} {first state : Entropy}
    (hinit : magicRandomInit allocated memory = some first)
    (hrun : Recorded (EntropyStep allocated) first history state) :
    history.flatMap Call.bytes = pool.take (requested history) ∧
      (∀ call ∈ history, call.Answered) ∧
      ∀ buffer count, Usable allocated buffer count →
        ∃ value after, syscall sysGetrandom buffer count state = some (value, after) ∧
          value.toInt = min count.toNat (512 - requested history) := by
  have hpooled := hrun.invariant (pooled_start hend hinit)
    fun _ _ _ _ hbefore hstep ↦ hbefore.step hend hstep
  refine ⟨hpooled.handedOut, hpooled.answered, fun buffer count husable ↦ ?_⟩
  obtain ⟨value, after, hcall, hvalue, -⟩ := hpooled.getrandom hend husable
  exact ⟨value, after, hcall, hvalue⟩

end Runs

/-- The second of two calls for 300 bytes gets the last 212. -/
theorem getrandom_hands_out_pool_twice :
    ∃ first state history, magicRandomInit 4096 (fun _ ↦ 0) = some first ∧
      Recorded (EntropyStep 4096) first history state ∧
      history.map Call.count = [300, 300] ∧ history.map (·.value.toInt) = [300, 212] ∧
      history.flatMap Call.bytes = pool := by
  have hend : (4096 : UInt64).toNat + 512 < 2 ^ 64 := by decide
  have husable : Usable 4096 8192 300 := by
    refine ⟨by decide, fun address hpool hbuffer ↦ ?_⟩
    have hpoolEnd : address.toNat < 4096 + 512 := hpool.2
    have hbufferStart : 8192 ≤ address.toNat := hbuffer.1
    omega
  let first : Entropy := ⟨4096, 512, fillEntropy 4096 (fun _ ↦ 0) 512⟩
  have hinit : magicRandomInit 4096 (fun _ ↦ 0) = some first := if_neg (by decide)
  obtain ⟨value, before, hcall, hvalue⟩ :=
    (getrandom_hands_out_pool hend hinit .start).2.2 8192 300 husable
  have hrun : Recorded (EntropyStep 4096) first _ before :=
    .step .start (.call husable hcall)
  obtain ⟨last, state, hcall', hlast⟩ :=
    (getrandom_hands_out_pool hend hinit hrun).2.2 8192 300 husable
  have hruns := Recorded.step hrun (EntropyStep.call husable hcall')
  refine ⟨first, state, _, hinit, hruns, rfl, ?_, ?_⟩
  · show [value.toInt, last.toInt] = [300, 212]
    rw [hvalue, hlast]
    rfl
  · have hlength : pool.length ≤ 600 := by
      rw [length_pool]
      decide
    exact (getrandom_hands_out_pool hend hinit hruns).1.trans (List.take_of_length_le hlength)

end Disguise.Enclaves
