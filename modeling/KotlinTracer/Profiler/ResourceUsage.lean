import KotlinTracer.Trace.Storage
import Mathlib.Algebra.Order.Ring.Int
import Mathlib.Tactic.Linarith

set_option relaxedAutoImplicit false
set_option autoImplicit false

/-!
# Resource usage of a coroutine

The accounting of `profiler/profiler.cpp` on Linux: what `calculate_resource_usage` adds to the
record of a coroutine, given the thread's previous and current answers of `getrusage`.

## Main definitions

* `KotlinTracer.TimeVal`, `KotlinTracer.RUsage` — `timeval` and the fields of `rusage` that are
  read.
* `KotlinTracer.Credit`, `KotlinTracer.resourceCredit` — the amounts one call adds.
* `KotlinTracer.CoroutineInfo.addCredit` — a record with the amounts added.
* `KotlinTracer.RUsage.Valid`, `KotlinTracer.RUsage.Le` — what `getrusage` promises: no negative
  amounts, less than a second of microseconds, and answers of one thread that do not decrease.

## Main results

* `KotlinTracer.Credit.amount_eq` — an amount is the difference of the two answers.
* `KotlinTracer.RUsage.Le.amount_le` — between two answers of one thread no amount decreases.
-/

namespace KotlinTracer

/-- `timeval`. -/
structure TimeVal where
  tvSec : ℤ := 0
  tvUsec : ℤ := 0
deriving DecidableEq

/-- The fields of `rusage` that the profiler reads. -/
structure RUsage where
  ruUtime : TimeVal := {}
  ruStime : TimeVal := {}
  ruNvcsw : ℤ := 0
  ruNivcsw : ℤ := 0
deriving DecidableEq

/-- `calculate_elapsed_time`, in microseconds. -/
def calculateElapsedTime (endTime beginTime : TimeVal) : TraceTime :=
  (endTime.tvSec - beginTime.tvSec) * 1000000 + (endTime.tvUsec - beginTime.tvUsec)

/-- The amounts that one call of `calculate_resource_usage` adds. -/
structure Credit where
  wall : TraceTime
  system : TraceTime
  user : TraceTime
  voluntary : ℤ
  involuntary : ℤ
deriving DecidableEq

/-- The amounts of a call at `now`, with the thread's usage `last` before and `current` now. -/
def resourceCredit (info : CoroutineInfo) (last current : RUsage) (now : TraceTime) : Credit where
  wall := now - info.lastResume
  system := calculateElapsedTime current.ruStime last.ruStime
  user := calculateElapsedTime current.ruUtime last.ruUtime
  voluntary := current.ruNvcsw - last.ruNvcsw
  involuntary := current.ruNivcsw - last.ruNivcsw

/-- `+=` of a signed amount on a `uint64_t`, which wraps. -/
def addUInt64 (x : ℕ) (amount : ℤ) : ℕ := ((x + amount) % 2 ^ 64).toNat

/-- The record of a coroutine with the amounts of a credit added. -/
@[simps] def CoroutineInfo.addCredit (info : CoroutineInfo) (credit : Credit) : CoroutineInfo :=
  { info with
    wallClockRunningTime := info.wallClockRunningTime + credit.wall
    cpuSystemClockRunningTimeUs := info.cpuSystemClockRunningTimeUs + credit.system
    cpuUserClockRunningTimeUs := info.cpuUserClockRunningTimeUs + credit.user
    voluntarySwitches := addUInt64 info.voluntarySwitches credit.voluntary
    involuntarySwitches := addUInt64 info.involuntarySwitches credit.involuntary }

/-- Adding a non-negative amount to a `uint64_t` gives at most the sum. -/
lemma addUInt64_le {x : ℕ} {amount : ℤ} (h : 0 ≤ amount) :
    (addUInt64 x amount : ℤ) ≤ x + amount := by
  rw [addUInt64, Int.toNat_of_nonneg (Int.emod_nonneg _ (by norm_num))]
  omega

/-! ## The answers of `getrusage` -/

/-- A `timeval` in microseconds. -/
def TimeVal.toUs (t : TimeVal) : ℤ := t.tvSec * 1000000 + t.tvUsec

/-- A time that is not negative, with less than a second of microseconds. -/
def TimeVal.Valid (t : TimeVal) : Prop := 0 ≤ t.tvSec ∧ 0 ≤ t.tvUsec ∧ t.tvUsec < 1000000

instance (t : TimeVal) : Decidable t.Valid := inferInstanceAs (Decidable (_ ∧ _ ∧ _))

/-- The four quantities of `rusage` that are credited to coroutines. -/
inductive Resource
  | user
  | system
  | voluntary
  | involuntary
deriving DecidableEq

/-- A quantity of an answer of `getrusage`: microseconds, or a number of switches. -/
def RUsage.amount (u : RUsage) : Resource → ℤ
  | .user => u.ruUtime.toUs
  | .system => u.ruStime.toUs
  | .voluntary => u.ruNvcsw
  | .involuntary => u.ruNivcsw

/-- A quantity of a credit. -/
def Credit.amount (credit : Credit) : Resource → ℤ
  | .user => credit.user
  | .system => credit.system
  | .voluntary => credit.voluntary
  | .involuntary => credit.involuntary

/-- What is credited to a coroutine of a quantity. -/
def CoroutineInfo.amount (info : CoroutineInfo) : Resource → ℤ
  | .user => info.cpuUserClockRunningTimeUs
  | .system => info.cpuSystemClockRunningTimeUs
  | .voluntary => info.voluntarySwitches
  | .involuntary => info.involuntarySwitches

/-- What every answer of `getrusage` satisfies. -/
structure RUsage.Valid (u : RUsage) : Prop where
  utime : u.ruUtime.Valid
  stime : u.ruStime.Valid
  nvcsw : 0 ≤ u.ruNvcsw
  nivcsw : 0 ≤ u.ruNivcsw

/-- A `timeval` does not decrease: seconds first, then microseconds. -/
def TimeVal.Le (s t : TimeVal) : Prop :=
  s.tvSec < t.tvSec ∨ s.tvSec = t.tvSec ∧ s.tvUsec ≤ t.tvUsec

instance (s t : TimeVal) : Decidable (s.Le t) := inferInstanceAs (Decidable (_ ∨ _ ∧ _))

/-- Every quantity of the usage does not decrease. -/
structure RUsage.Le (u v : RUsage) : Prop where
  utime : u.ruUtime.Le v.ruUtime
  stime : u.ruStime.Le v.ruStime
  nvcsw : u.ruNvcsw ≤ v.ruNvcsw
  nivcsw : u.ruNivcsw ≤ v.ruNivcsw

instance (u : RUsage) : Decidable u.Valid :=
  decidable_of_iff (u.ruUtime.Valid ∧ u.ruStime.Valid ∧ 0 ≤ u.ruNvcsw ∧ 0 ≤ u.ruNivcsw)
    ⟨fun h => ⟨h.1, h.2.1, h.2.2.1, h.2.2.2⟩, fun h => ⟨h.utime, h.stime, h.nvcsw, h.nivcsw⟩⟩

instance (u v : RUsage) : Decidable (u.Le v) :=
  decidable_of_iff (u.ruUtime.Le v.ruUtime ∧ u.ruStime.Le v.ruStime ∧ u.ruNvcsw ≤ v.ruNvcsw ∧
      u.ruNivcsw ≤ v.ruNivcsw)
    ⟨fun h => ⟨h.1, h.2.1, h.2.2.1, h.2.2.2⟩, fun h => ⟨h.utime, h.stime, h.nvcsw, h.nivcsw⟩⟩

/-- The zero usage, the value of the thread-local variable before it is first written. -/
lemma RUsage.valid_default : ({} : RUsage).Valid :=
  ⟨by decide, by decide, le_rfl, le_rfl⟩

/-- Every valid usage is at least the zero usage. -/
lemma RUsage.Valid.default_le {u : RUsage} (h : u.Valid) : ({} : RUsage).Le u := by
  have htime : ∀ t : TimeVal, t.Valid → ({} : TimeVal).Le t := by
    intro t ht
    obtain ⟨h1, h2, _⟩ := ht
    rcases h1.lt_or_eq with hlt | heq
    · exact Or.inl hlt
    · exact Or.inr ⟨heq, h2⟩
  exact ⟨htime _ h.utime, htime _ h.stime, h.nvcsw, h.nivcsw⟩

/-- The elapsed time is the difference of the two times in microseconds. -/
lemma calculateElapsedTime_eq (s t : TimeVal) :
    calculateElapsedTime t s = t.toUs - s.toUs := by
  simp only [calculateElapsedTime, TimeVal.toUs]
  ring

/-- The order of valid times is the order of their microseconds: the borrow of a second is
covered by the bound on the microseconds. -/
lemma TimeVal.Le.toUs_le {s t : TimeVal} (hs : s.Valid) (ht : t.Valid) (h : s.Le t) :
    s.toUs ≤ t.toUs := by
  obtain ⟨_, _, hsu⟩ := hs
  obtain ⟨_, htu, _⟩ := ht
  simp only [TimeVal.toUs]
  rcases h with h | ⟨h1, h2⟩ <;> omega

/-- Every quantity of the usage does not decrease, in microseconds and numbers. -/
lemma RUsage.Le.amount_le {u v : RUsage} (hu : u.Valid) (hv : v.Valid) (h : u.Le v)
    (r : Resource) : u.amount r ≤ v.amount r := by
  cases r with
  | user => exact h.utime.toUs_le hu.utime hv.utime
  | system => exact h.stime.toUs_le hu.stime hv.stime
  | voluntary => exact h.nvcsw
  | involuntary => exact h.nivcsw

/-- A credited amount is the difference of the two answers of `getrusage`. -/
lemma Credit.amount_eq (info : CoroutineInfo) (last current : RUsage) (now : TraceTime)
    (r : Resource) :
    (resourceCredit info last current now).amount r = current.amount r - last.amount r := by
  cases r <;> simp [resourceCredit, Credit.amount, RUsage.amount, calculateElapsedTime_eq]

/-- A credit adds at most its amount to the record; less only when a switch counter wraps. -/
lemma CoroutineInfo.amount_addCredit_le {info : CoroutineInfo} {credit : Credit} {r : Resource}
    (h : 0 ≤ credit.amount r) :
    (info.addCredit credit).amount r ≤ info.amount r + credit.amount r := by
  cases r with
  | user => exact le_rfl
  | system => exact le_rfl
  | voluntary => exact addUInt64_le h
  | involuntary => exact addUInt64_le h

end KotlinTracer
