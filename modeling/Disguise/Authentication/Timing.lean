import Mathlib.Algebra.Group.Nat.Defs
import Mathlib.Data.Int.Init
import Mathlib.Tactic.Common

/-!
# The clock of the enclaves

`gettimeofday` of `hacks.h`, which derives the time of day from the cycle counter, and the parts of
`eapp_entry` and `ltoa` that turn two time stamps into printed numbers. Both enclaves have the same
code for them. The arithmetic of the counter is that of `unsigned long`, so the product with a
million wraps; the differences are taken in `long` and do not.

`ltoa` writes the digits from the last one on and then exchanges them in place. Its result here is
what it leaves in front of the terminating null character.

The printed numbers are the time between two readings exactly if the products of both wrap equally
often and are rounded alike (`durationRight_iff`). The first product wraps after about 51 hours.
-/

set_option autoImplicit false
set_option relaxedAutoImplicit false

namespace Disguise.Authentication.Enclave

/-- `struct timeval`. -/
structure Timeval where
  tvSec : ℤ
  tvUsec : ℤ
  deriving DecidableEq, Repr

/-- `gettimeofday`, for a reading of the cycle counter. -/
def gettimeofday (cycles : UInt64) : Timeval :=
  let totalUsec := cycles * 1000000 / 100000000
  { tvSec := (totalUsec / 1000000).toNat, tvUsec := (totalUsec % 1000000).toNat }

/-- The three numbers `eapp_entry` prints. -/
structure Elapsed where
  seconds : ℤ
  microseconds : ℤ
  milliseconds : ℤ
  deriving DecidableEq, Repr

/-- The time between two stamps, with a second borrowed when the microseconds run backwards. -/
def elapsed (delayStart delayEnd : Timeval) : Elapsed :=
  let seconds := delayEnd.tvSec - delayStart.tvSec
  let microseconds := delayEnd.tvUsec - delayStart.tvUsec
  let borrowed :=
    if microseconds < 0 then (seconds - 1, microseconds + 1000000) else (seconds, microseconds)
  { seconds := borrowed.1
    microseconds := borrowed.2
    milliseconds := borrowed.1 * 1000 + borrowed.2.tdiv 1000 }

/-- The loop of `ltoa` that writes the digits of a number behind `str`, the last digit first. -/
def writeDigits (str : List Char) (num : ℕ) : List Char :=
  if num ≠ 0 then writeDigits (str ++ [Char.ofNat (num % 10 + 48)]) (num / 10) else str
termination_by num

/-- The loop of `ltoa` that exchanges the characters between two places, from the outside in. -/
def swapBetween (str : List Char) (start stop : ℕ) : List Char :=
  if start < stop then
    swapBetween ((str.set start (str.getD stop '0')).set stop (str.getD start '0')) (start + 1)
      (stop - 1)
  else str
termination_by stop - start

/-- `ltoa`. -/
def ltoa (num : ℤ) : String :=
  if num = 0 then "0"
  else
    let str := writeDigits [] num.natAbs
    let str := if num < 0 then str ++ ['-'] else str
    String.ofList (swapBetween str 0 (str.length - 1))

/-! ### Durations -/

/-- A time stamp has less than a million microseconds. -/
def Timeval.Normalised (stamp : Timeval) : Prop := 0 ≤ stamp.tvUsec ∧ stamp.tvUsec < 1000000

/-- A time stamp is not after another one. -/
def Timeval.NotAfter (earlier later : Timeval) : Prop :=
  earlier.tvSec < later.tvSec ∨ earlier.tvSec = later.tvSec ∧ earlier.tvUsec ≤ later.tvUsec

/-- The microseconds between two readings of a counter of 100 cycles a microsecond. -/
def usecBetween (startCycles endCycles : UInt64) : ℤ :=
  (endCycles.toNat / 100 : ℕ) - (startCycles.toNat / 100 : ℕ)

/-- What is wanted of the times derived from two readings: the stamps are normalised and do not run
backwards, and the numbers printed are the time between the readings. -/
structure DurationRight (startCycles endCycles : UInt64) : Prop where
  start_normalised : (gettimeofday startCycles).Normalised
  end_normalised : (gettimeofday endCycles).Normalised
  ordered : (gettimeofday startCycles).NotAfter (gettimeofday endCycles)
  microseconds_bounds :
    0 ≤ (elapsed (gettimeofday startCycles) (gettimeofday endCycles)).microseconds ∧
      (elapsed (gettimeofday startCycles) (gettimeofday endCycles)).microseconds < 1000000
  total : (elapsed (gettimeofday startCycles) (gettimeofday endCycles)).seconds * 1000000 +
      (elapsed (gettimeofday startCycles) (gettimeofday endCycles)).microseconds =
    usecBetween startCycles endCycles
  milliseconds : (elapsed (gettimeofday startCycles) (gettimeofday endCycles)).milliseconds =
    usecBetween startCycles endCycles / 1000

/-- How often the product of a reading with a million wraps. -/
def wraps (cycles : UInt64) : ℕ := cycles.toNat * 1000000 / 2 ^ 64

/-- The hundredths of a microsecond of a reading are fewer than those its wraps drop, so that the
quotient is rounded down once more. -/
def RoundedDown (cycles : UInt64) : Prop :=
  cycles.toNat % 100 * 1000000 < wraps cycles * 2 ^ 64 % 100000000

/-- The products of both readings wrap equally often and are rounded in the same way. -/
def SameWraps (startCycles endCycles : UInt64) : Prop :=
  wraps startCycles = wraps endCycles ∧ (RoundedDown startCycles ↔ RoundedDown endCycles)

/-- The microseconds `gettimeofday` computes before it splits them. -/
def totalUsec (cycles : UInt64) : ℕ := cycles.toNat * 1000000 % 2 ^ 64 / 100000000

/-- The stamp of a number of microseconds. -/
def stampOf (usec : ℕ) : Timeval :=
  { tvSec := (usec / 1000000 : ℕ), tvUsec := (usec % 1000000 : ℕ) }

theorem gettimeofday_eq (cycles : UInt64) : gettimeofday cycles = stampOf (totalUsec cycles) := by
  have htotal : (cycles * 1000000 / 100000000).toNat = totalUsec cycles := by
    rw [UInt64.toNat_div, UInt64.toNat_mul]
    rfl
  unfold gettimeofday
  generalize cycles * 1000000 / 100000000 = total at htotal ⊢
  simp only [UInt64.toNat_div, UInt64.toNat_mod, htotal]
  rfl

/-- The wrapped quotient of a reading is off by what its wraps drop, and by the rounding. -/
theorem totalUsec_add (cycles : UInt64) :
    ∃ rounding ≤ 1, (RoundedDown cycles ↔ rounding = 1) ∧
      totalUsec cycles + wraps cycles * 2 ^ 64 / 100000000 + rounding = cycles.toNat / 100 := by
  have hlt := cycles.toNat_lt
  by_cases hdown : RoundedDown cycles
  · refine ⟨1, Nat.le_refl 1, iff_of_true hdown rfl, ?_⟩
    simp only [RoundedDown, totalUsec, wraps] at hdown ⊢
    omega
  · refine ⟨0, Nat.zero_le 1, iff_of_false hdown Nat.zero_ne_one, ?_⟩
    simp only [RoundedDown, totalUsec, wraps] at hdown ⊢
    omega

/-- The wrapped quotients have the right distance exactly if both readings wrap alike: one more wrap
drops more than any rounding makes up for. -/
theorem totalUsec_sub_eq_iff {startCycles endCycles : UInt64} (hle : startCycles ≤ endCycles) :
    (totalUsec endCycles : ℤ) - totalUsec startCycles =
        (endCycles.toNat / 100 : ℕ) - (startCycles.toNat / 100 : ℕ) ↔
      SameWraps startCycles endCycles := by
  have hreadings : startCycles.toNat ≤ endCycles.toNat := hle
  have hwraps : wraps startCycles ≤ wraps endCycles :=
    Nat.div_le_div_right (Nat.mul_le_mul_right _ hreadings)
  obtain ⟨startRounding, hstartLe, hstartDown, hstart⟩ := totalUsec_add startCycles
  obtain ⟨endRounding, hendLe, hendDown, hend⟩ := totalUsec_add endCycles
  rw [SameWraps, hstartDown, hendDown]
  constructor
  · intro hdifference
    have hequal : wraps startCycles = wraps endCycles := by omega
    rw [hequal] at hstart
    exact ⟨hequal, by omega⟩
  · rintro ⟨hequal, hrounding⟩
    rw [hequal] at hstart
    omega

theorem gettimeofday_normalised (cycles : UInt64) : (gettimeofday cycles).Normalised := by
  rw [gettimeofday_eq, Timeval.Normalised, stampOf]
  dsimp only
  omega

theorem gettimeofday_notAfter {startCycles endCycles : UInt64}
    (hordered : totalUsec startCycles ≤ totalUsec endCycles) :
    (gettimeofday startCycles).NotAfter (gettimeofday endCycles) := by
  rw [gettimeofday_eq, gettimeofday_eq, Timeval.NotAfter, stampOf, stampOf]
  dsimp only
  omega

/-- The borrow keeps the microseconds in range, and the time between two stamps is what their totals
are apart. -/
theorem elapsed_stampOf (first second : ℕ) :
    let delay := elapsed (stampOf first) (stampOf second)
    0 ≤ delay.microseconds ∧ delay.microseconds < 1000000 ∧
      delay.seconds * 1000000 + delay.microseconds = (second : ℤ) - first ∧
      delay.milliseconds = delay.seconds * 1000 + delay.microseconds / 1000 := by
  dsimp only [elapsed, stampOf]
  split_ifs with hborrow
  · refine ⟨by omega, by omega, by omega, ?_⟩
    rw [Int.tdiv_eq_ediv_of_nonneg (by omega)]
  · refine ⟨by omega, by omega, by omega, ?_⟩
    rw [Int.tdiv_eq_ediv_of_nonneg (by omega)]

/-- The durations are right exactly if the products of both readings with a million wrap alike, in
particular as long as neither wraps. -/
theorem durationRight_iff {startCycles endCycles : UInt64} (hle : startCycles ≤ endCycles) :
    DurationRight startCycles endCycles ↔ SameWraps startCycles endCycles := by
  have hreadings : startCycles.toNat ≤ endCycles.toNat := hle
  obtain ⟨hleast, hmost, htotal, hmilliseconds⟩ :=
    elapsed_stampOf (totalUsec startCycles) (totalUsec endCycles)
  rw [← gettimeofday_eq, ← gettimeofday_eq] at hleast hmost htotal hmilliseconds
  rw [← totalUsec_sub_eq_iff hle, ← usecBetween]
  constructor
  · intro hright
    rw [← htotal, hright.total]
  · intro hdifference
    have hordered : totalUsec startCycles ≤ totalUsec endCycles := by
      rw [usecBetween] at hdifference
      omega
    refine ⟨gettimeofday_normalised _, gettimeofday_normalised _,
      gettimeofday_notAfter hordered, ⟨hleast, hmost⟩, htotal.trans hdifference, ?_⟩
    rw [← hdifference, ← htotal, hmilliseconds]
    omega

/-- Readings at the start and after a second. -/
theorem durationRight_second : DurationRight 0 100000000 ↔ SameWraps 0 100000000 :=
  durationRight_iff (by decide)

/-- Two readings after about 51 hours, between which the product with a million wraps: the clock
runs backwards. -/
theorem duration_wraps : ¬ DurationRight 18446744073700 18446744073800 := by
  intro hright
  have hordered := hright.ordered
  rw [Timeval.NotAfter] at hordered
  exact absurd hordered (by decide)

end Disguise.Authentication.Enclave
