import Mathlib.Algebra.Ring.Int.Defs

/-!
# The deadline of a wait

`pthreads_monitor_wait` of `src/src/monitor.c` adds a timeout in microseconds to
the current time, with the division and the remainder of C, which round towards
zero.  Seconds, microseconds and nanoseconds are signed machine words.
-/

namespace Pthreads.MonitorDeadlines

/-- `struct timeval`. -/
structure Timeval where
  tvSec : Int64
  tvUsec : Int64
deriving DecidableEq, Repr

/-- `struct timespec`. -/
structure Timespec where
  tvSec : Int64
  tvNsec : Int64
deriving DecidableEq, Repr

/-- The call in which a wait ends. -/
inductive PosixCall where
  | condWait
  | condTimedwait (spec : Timespec)
deriving DecidableEq, Repr

/-- The three assignments to `time` in `pthreads_monitor_wait`. -/
def advance (time : Timeval) (timeout : Int64) : Timeval :=
  let time := { time with tvSec := time.tvSec + timeout / 1000000 }
  let time :=
    { time with tvSec := time.tvSec + (time.tvUsec + timeout % 1000000) / 1000000 }
  { time with tvUsec := (time.tvUsec + timeout % 1000000) % 1000000 }

/-- The two assignments to `spec`. -/
def Timeval.toTimespec (time : Timeval) : Timespec where
  tvSec := time.tvSec
  tvNsec := time.tvUsec * 1000

/-- The call that `pthreads_monitor_wait` makes on the condition variable, when
`gettimeofday` gives the clock; there is none if the clock is not available.  The
parameter is a `long`, taken to have 64 bits: where it has 32, the timeout is cut off. -/
def monitorWaitCall (clock : Option Timeval) (timeout : Int64) : Option PosixCall :=
  if timeout = 0 then
    some .condWait
  else
    clock.map fun time => .condTimedwait (advance time timeout).toTimespec

/-- `pthreads_monitor_wait`, given what the call returns. -/
def monitorWait (answer : PosixCall → Int) (clock : Option Timeval) (timeout : Int64) : Int :=
  match monitorWaitCall clock timeout with
  | none => -1
  | some call => answer call

/-- `ThreadedBase::wait`; the timeout is zero unless it is given. -/
def wait (answer : PosixCall → Int) (clock : Option Timeval) (timeout : Option Int64) : Bool :=
  monitorWait answer clock (timeout.getD 0) = 0

/-- What a `timeval` denotes, in microseconds. -/
def Timeval.microseconds (time : Timeval) : Int :=
  time.tvSec.toInt * 1000000 + time.tvUsec.toInt

/-- What a `timespec` denotes, in nanoseconds. -/
def Timespec.nanoseconds (spec : Timespec) : Int :=
  spec.tvSec.toInt * 1000000000 + spec.tvNsec.toInt

/-- What `pthread_cond_timedwait` demands; on another deadline it fails with `EINVAL`. -/
def Timespec.Normalised (spec : Timespec) : Prop :=
  0 ≤ spec.tvNsec.toInt ∧ spec.tvNsec.toInt < 1000000000

/-- What `gettimeofday` promises. -/
def Timeval.Normalised (time : Timeval) : Prop :=
  0 ≤ time.tvUsec.toInt ∧ time.tvUsec.toInt < 1000000

/-- Neither sum of seconds overflows. -/
def Timeval.Admits (time : Timeval) (timeout : Int64) : Prop :=
  Int64.minValue.toInt ≤ time.tvSec.toInt + timeout.toInt.tdiv 1000000 ∧
    time.tvSec.toInt + timeout.toInt.tdiv 1000000 +
      (time.tvUsec.toInt + timeout.toInt.tmod 1000000).tdiv 1000000 ≤ Int64.maxValue.toInt

section Words

theorem toInt_range : Int64.minValue.toInt = -9223372036854775808 ∧
    Int64.maxValue.toInt = 9223372036854775807 := by
  decide

/-- A sum that fits in a word is the sum of the integers. -/
theorem toInt_add_of_fits {first second : Int64}
    (low : Int64.minValue.toInt ≤ first.toInt + second.toInt)
    (high : first.toInt + second.toInt ≤ Int64.maxValue.toInt) :
    (first + second).toInt = first.toInt + second.toInt := by
  obtain ⟨least, greatest⟩ := toInt_range
  rw [Int64.toInt_add]
  apply Int.bmod_eq_of_le <;> omega

theorem toInt_mul_of_fits {first second : Int64}
    (low : Int64.minValue.toInt ≤ first.toInt * second.toInt)
    (high : first.toInt * second.toInt ≤ Int64.maxValue.toInt) :
    (first * second).toInt = first.toInt * second.toInt := by
  obtain ⟨least, greatest⟩ := toInt_range
  rw [Int64.toInt_mul]
  apply Int.bmod_eq_of_le <;> omega

/-- A quotient by a million does not overflow. -/
theorem toInt_div_million (number : Int64) :
    (number / 1000000).toInt = number.toInt.tdiv 1000000 :=
  Int64.toInt_div_of_ne_right number 1000000 (by decide)

theorem toInt_mod_million (number : Int64) :
    (number % 1000000).toInt = number.toInt.tmod 1000000 :=
  Int64.toInt_mod number 1000000

/-- Rounding towards zero, in terms of rounding down. -/
theorem tdiv_million_cases (number : Int) :
    (0 ≤ number ∧ number.tdiv 1000000 = number / 1000000 ∧
        number.tmod 1000000 = number % 1000000) ∨
      (number < 0 ∧ number.tdiv 1000000 = -(-number / 1000000) ∧
        number.tmod 1000000 = -(-number % 1000000)) := by
  by_cases negative : number < 0
  · have opposite : 0 ≤ -number := by omega
    rw [← Int.tdiv_eq_ediv_of_nonneg opposite, ← Int.tmod_eq_emod_of_nonneg opposite,
      Int.neg_tdiv, Int.neg_tmod, Int.neg_neg, Int.neg_neg]
    exact Or.inr ⟨negative, rfl, rfl⟩
  · have nonnegative : 0 ≤ number := Int.not_lt.mp negative
    exact Or.inl ⟨nonnegative, Int.tdiv_eq_ediv_of_nonneg nonnegative,
      Int.tmod_eq_emod_of_nonneg nonnegative⟩

/-- The remainder of C lies strictly between the negative and the positive divisor. -/
theorem tmod_million_bounds (number : Int) :
    -1000000 < number.tmod 1000000 ∧ number.tmod 1000000 < 1000000 :=
  ⟨Int.lt_tmod_of_pos number (by decide), Int.tmod_lt_of_pos number (by decide)⟩

end Words

section Advance

variable {time : Timeval} {timeout : Int64}

/-- The microseconds before the carry fit easily. -/
theorem toInt_sum (normalised : time.Normalised) :
    (time.tvUsec + timeout % 1000000).toInt =
      time.tvUsec.toInt + timeout.toInt.tmod 1000000 := by
  obtain ⟨low, high⟩ := normalised
  obtain ⟨above, below⟩ := tmod_million_bounds timeout.toInt
  obtain ⟨least, greatest⟩ := toInt_range
  rw [← toInt_mod_million timeout] at above below ⊢
  apply toInt_add_of_fits <;> omega

/-- The carry is zero or one. -/
theorem carry_bounds (normalised : time.Normalised) :
    0 ≤ (time.tvUsec.toInt + timeout.toInt.tmod 1000000).tdiv 1000000 ∧
      (time.tvUsec.toInt + timeout.toInt.tmod 1000000).tdiv 1000000 ≤ 1 := by
  obtain ⟨low, high⟩ := normalised
  obtain ⟨above, below⟩ := tmod_million_bounds timeout.toInt
  rcases tdiv_million_cases (time.tvUsec.toInt + timeout.toInt.tmod 1000000) with
    ⟨nonnegative, carry, -⟩ | ⟨negative, carry, -⟩ <;> omega

theorem advance_tvSec (normalised : time.Normalised) (admits : time.Admits timeout) :
    (advance time timeout).tvSec.toInt = time.tvSec.toInt + timeout.toInt.tdiv 1000000 +
      (time.tvUsec.toInt + timeout.toInt.tmod 1000000).tdiv 1000000 := by
  obtain ⟨low, high⟩ := admits
  obtain ⟨carryLow, carryHigh⟩ := @carry_bounds time timeout normalised
  have whole : (time.tvSec + timeout / 1000000).toInt =
      time.tvSec.toInt + timeout.toInt.tdiv 1000000 := by
    rw [← toInt_div_million] at low high ⊢
    apply toInt_add_of_fits <;> omega
  have carry : ((time.tvUsec + timeout % 1000000) / 1000000).toInt =
      (time.tvUsec.toInt + timeout.toInt.tmod 1000000).tdiv 1000000 := by
    rw [toInt_div_million, toInt_sum normalised]
  simp only [advance]
  rw [toInt_add_of_fits, whole, carry]
  · rw [whole, carry]
    omega
  · rw [whole, carry]
    exact high

theorem advance_tvUsec (normalised : time.Normalised) :
    (advance time timeout).tvUsec.toInt =
      (time.tvUsec.toInt + timeout.toInt.tmod 1000000).tmod 1000000 := by
  simp only [advance]
  rw [toInt_mod_million, toInt_sum normalised]

/-- The three steps lose nothing: quotient, carry and rest add up. -/
theorem advance_microseconds (normalised : time.Normalised) (admits : time.Admits timeout) :
    (advance time timeout).microseconds = time.microseconds + timeout.toInt := by
  simp only [Timeval.microseconds, advance_tvSec normalised admits, advance_tvUsec normalised]
  have quotient := Int.mul_tdiv_add_tmod timeout.toInt 1000000
  have carry := Int.mul_tdiv_add_tmod
    (time.tvUsec.toInt + timeout.toInt.tmod 1000000) 1000000
  omega

/-- The microseconds stay normalised unless a negative rest outweighs them, which
no carry makes good. -/
theorem advance_normalised_iff (normalised : time.Normalised) :
    (advance time timeout).Normalised ↔ 0 ≤ time.tvUsec.toInt + timeout.toInt.tmod 1000000 := by
  obtain ⟨above, below⟩ := tmod_million_bounds timeout.toInt
  obtain ⟨low, high⟩ := normalised
  simp only [Timeval.Normalised, advance_tvUsec ⟨low, high⟩]
  rcases tdiv_million_cases (time.tvUsec.toInt + timeout.toInt.tmod 1000000) with
    ⟨nonnegative, -, rest⟩ | ⟨negative, -, rest⟩ <;> omega

/-- A thousandfold number of microseconds fits in a word. -/
theorem toTimespec_tvNsec (normalised : time.Normalised) :
    (advance time timeout).toTimespec.tvNsec.toInt =
      (advance time timeout).tvUsec.toInt * 1000 := by
  obtain ⟨above, below⟩ := tmod_million_bounds
    (time.tvUsec.toInt + timeout.toInt.tmod 1000000)
  obtain ⟨least, greatest⟩ := toInt_range
  have thousand : (1000 : Int64).toInt = 1000 := by decide
  rw [← advance_tvUsec normalised] at above below
  simp only [Timeval.toTimespec]
  rw [toInt_mul_of_fits, thousand] <;> rw [thousand] <;> omega

theorem toTimespec_nanoseconds (normalised : time.Normalised) :
    (advance time timeout).toTimespec.nanoseconds =
      (advance time timeout).microseconds * 1000 := by
  simp only [Timespec.nanoseconds, toTimespec_tvNsec normalised, Timeval.microseconds]
  have seconds : (advance time timeout).toTimespec.tvSec = (advance time timeout).tvSec := rfl
  rw [seconds]
  omega

theorem toTimespec_normalised_iff (normalised : time.Normalised) :
    (advance time timeout).toTimespec.Normalised ↔ (advance time timeout).Normalised := by
  simp only [Timespec.Normalised, Timeval.Normalised, toTimespec_tvNsec normalised]
  omega

end Advance

/-- The deadline of every wait with a timeout denotes the current time plus the
timeout.  It is normalised as well exactly if the microseconds of the current time
and the remainder of the timeout add up to nothing negative. -/
theorem monitorWaitCall_deadline {time : Timeval} {timeout : Int64} (timed : timeout ≠ 0)
    (normalised : time.Normalised) (admits : time.Admits timeout) :
    (∃ spec, monitorWaitCall (some time) timeout = some (.condTimedwait spec) ∧
        spec.Normalised ∧
        spec.nanoseconds = (time.microseconds + timeout.toInt) * 1000) ↔
      0 ≤ time.tvUsec.toInt + timeout.toInt.tmod 1000000 := by
  have exact := @toTimespec_nanoseconds time timeout normalised
  rw [advance_microseconds normalised admits] at exact
  have range := (@toTimespec_normalised_iff time timeout normalised).trans
    (advance_normalised_iff normalised)
  simp only [monitorWaitCall, timed, if_false, Option.map_some, Option.some.injEq,
    PosixCall.condTimedwait.injEq]
  constructor
  · rintro ⟨spec, rfl, inRange, -⟩
    exact range.mp inRange
  · intro nonnegative
    exact ⟨_, rfl, range.mpr nonnegative, exact⟩

/-- A library that rejects deadlines that are not normalised makes such a wait fail
at once, whatever it answers otherwise. -/
theorem wait_negativeRest {answer : PosixCall → Int} {time : Timeval} {timeout : Int64}
    (rejects : ∀ spec : Timespec, ¬ spec.Normalised → answer (.condTimedwait spec) ≠ 0)
    (timed : timeout ≠ 0) (normalised : time.Normalised)
    (negative : time.tvUsec.toInt + timeout.toInt.tmod 1000000 < 0) :
    wait answer (some time) (some timeout) = false := by
  have outOfRange : ¬ (advance time timeout).toTimespec.Normalised := by
    rw [toTimespec_normalised_iff normalised, advance_normalised_iff normalised]
    exact Int.not_le.mpr negative
  simpa [wait, monitorWait, monitorWaitCall, timed] using rejects _ outOfRange

/-- Half a second before the next full one, a wait of 700 milliseconds carries. -/
theorem monitorWaitCall_deadline_carries :
    ∃ spec, monitorWaitCall (some ⟨1700000000, 500000⟩) 700000 = some (.condTimedwait spec) ∧
      spec.Normalised ∧ spec.nanoseconds = 1700000001200000000 := by
  have normalised : Timeval.Normalised ⟨1700000000, 500000⟩ := by
    simp only [Timeval.Normalised]
    decide
  have admits : Timeval.Admits ⟨1700000000, 500000⟩ 700000 := by
    simp only [Timeval.Admits]
    decide
  exact (monitorWaitCall_deadline (by decide) normalised admits).mpr (by decide)

/-- On a full second, a timeout of minus one microsecond gives minus a thousand
nanoseconds. -/
theorem negativeTimeout_notNormalised :
    ¬ ∀ (time : Timeval) (timeout : Int64), timeout ≠ 0 → time.Normalised →
      time.Admits timeout →
        ∃ spec, monitorWaitCall (some time) timeout = some (.condTimedwait spec) ∧
          spec.Normalised ∧
          spec.nanoseconds = (time.microseconds + timeout.toInt) * 1000 := by
  intro claim
  have normalised : Timeval.Normalised ⟨1700000000, 0⟩ := by
    simp only [Timeval.Normalised]
    decide
  have admits : Timeval.Admits ⟨1700000000, 0⟩ (-1) := by
    simp only [Timeval.Admits]
    decide
  obtain ⟨spec, called, inRange, -⟩ := claim ⟨1700000000, 0⟩ (-1) (by decide) normalised admits
  have computed : monitorWaitCall (some ⟨1700000000, 0⟩) (-1) =
      some (.condTimedwait ⟨1700000000, -1000⟩) := by decide
  rw [computed] at called
  cases called
  have negative : ¬ (0 ≤ (-1000 : Int64).toInt) := by decide
  exact negative inRange.1

end Pthreads.MonitorDeadlines
