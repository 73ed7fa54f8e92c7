import DistributedNas.Library.PriorityQueue

/-
This file models the timer of the scheduler and the parts of `Schedualer::Add` and `Schedualer::Cycle`.
-/

namespace DistributedNas.Timing
open Library

/-- These are the fields of `it_value`. -/
structure Timespec where
  tvSec : Int
  tvNsec : Int
  deriving DecidableEq, Repr

/-- An armed timer has an expiry, in nanoseconds. -/
abbrev Timer := Option Int

/-- `timer_settime` disarms the timer on the zero value and otherwise sets it relative to the present. -/
def timerSettime (now : Int) (value : Timespec) : Timer :=
  if value.tvSec = 0 ∧ value.tvNsec = 0 then none
  else some (now + value.tvSec * 1000000000 + value.tvNsec)

/-- `timer_gettime` gives the time until the expiry, and zero for a disarmed timer. -/
def timerGettime (timer : Timer) (now : Int) : Timespec :=
  match timer with
  | none => ⟨0, 0⟩
  | some expiry => ⟨max 0 (expiry - now) / 1000000000, max 0 (expiry - now) % 1000000000⟩

/-- `Timer::Arm` sets a delay in milliseconds, and one nanosecond for a delay that is not positive. -/
def arm (now milli : Int) : Timer :=
  timerSettime now (if 0 < milli then ⟨milli / 1000, milli % 1000 * 1000000⟩ else ⟨0, 1⟩)

/-- `Timer::CheckDeadline` adds the milliseconds of the fraction to the whole seconds. -/
def checkDeadline (timer : Timer) (now : Int) : Int :=
  (timerGettime timer now).tvNsec / 1000000 + (timerGettime timer now).tvSec

/-- The expiry that `Timer::Arm` sets is never the present. -/
theorem arm_eq (now milli : Int) :
    arm now milli = some (if 0 < milli then now + milli * 1000000 else now + 1) := by
  unfold arm timerSettime
  split
  · next positive =>
      rw [if_neg (by simp only; omega)]
      simp only [Option.some.injEq]
      omega
  · simp

@[simp] theorem checkDeadline_none (now : Int) : checkDeadline none now = 0 := rfl

/-- A `time_point` and a `duration` of the system clock count nanoseconds in 64 bits, and they wrap around. -/
def nanoseconds64 (value : Int) : Int := value.bmod (2 ^ 64)

/-- This instant fits into a `time_point`. -/
def Representable (instant : Int) : Prop := -2 ^ 63 ≤ instant ∧ instant < 2 ^ 63

instance (instant : Int) : Decidable (Representable instant) := inferInstanceAs (Decidable (_ ∧ _))

theorem nanoseconds64_eq_iff (value : Int) : nanoseconds64 value = value ↔ Representable value := by
  unfold nanoseconds64 Representable
  rw [Int.bmod_eq_iff (by decide)]
  omega

theorem representable_nanoseconds64 (value : Int) : Representable (nanoseconds64 value) := by
  have low : -(2 ^ 64 / 2 : Int) ≤ nanoseconds64 value := Int.le_bmod (by decide)
  have high : nanoseconds64 value < (2 ^ 64 + 1) / 2 := Int.bmod_lt (by decide)
  unfold Representable
  omega

/-- Only a value beyond the upper end of the range becomes smaller. -/
theorem le_nanoseconds64_iff (value : Int) : value ≤ nanoseconds64 value ↔ value < 2 ^ 63 := by
  obtain ⟨low, high⟩ := representable_nanoseconds64 value
  constructor
  · intro least
    omega
  · intro below
    by_cases fits : Representable value
    · exact ((nanoseconds64_eq_iff value).mpr fits).ge
    · unfold Representable at fits
      omega

/-- A queued job waits for its deadline, in nanoseconds. -/
abbrev Entry (Job : Type*) := Job × Int

/-- `ComperFunc` puts the earliest deadline on top. -/
def comperFunc {Job : Type*} (lhs rhs : Entry Job) : Bool := decide (rhs.2 < lhs.2)

theorem isTopItem_comperFunc {Job : Type*} {queue : List (Entry Job)} {entry : Entry Job} :
    IsTopItem comperFunc queue entry ↔ entry ∈ queue ∧ ∀ other ∈ queue, entry.2 ≤ other.2 := by
  simp [IsTopItem, comperFunc]

/-- The scheduler has a queue of jobs and one timer. -/
structure Schedualer (Job : Type*) where
  mPq : List (Entry Job)
  mTimer : Timer
  deriving DecidableEq

/-- A new scheduler has an empty queue and a timer that is not armed. -/
def Schedualer.initial {Job : Type*} : Schedualer Job := ⟨[], none⟩

/-- `Add` reads the clock for the deadline, for each of both checks, and when it arms the timer.
The timer may expire during the call before it is armed again. -/
structure AddClock where
  now : Int
  first : Int
  second : Int
  armed : Int
  expired : Bool
  deriving DecidableEq, Repr

/-- The readings of the clock come in the order of the calls. -/
def AddClock.Ordered (clock : AddClock) : Prop :=
  clock.now ≤ clock.first ∧ clock.first ≤ clock.second ∧ clock.second ≤ clock.armed

instance (clock : AddClock) : Decidable clock.Ordered := inferInstanceAs (Decidable (_ ∧ _))

/-- All readings of an `Add` may fall on one instant. -/
def AddClock.at (now : Int) : AddClock := ⟨now, now, now, now, false⟩

section
variable {Job : Type*} (schedualer : Schedualer Job)

/-- A job added with this delay is due at this instant. -/
def requested (now milli : Int) : Int := now + milli * 1000000

/-- The deadline in the queue is this instant as a `time_point`. -/
def deadline (now milli : Int) : Int := nanoseconds64 (requested now milli)

theorem deadline_eq_iff (now milli : Int) :
    deadline now milli = requested now milli ↔ Representable (requested now milli) :=
  nanoseconds64_eq_iff _

/-- `Add` arms the timer when a check is above the delay or gives zero. -/
def Schedualer.rearms (milli : Int) (clock : AddClock) : Bool :=
  checkDeadline schedualer.mTimer clock.first > milli ∨ checkDeadline schedualer.mTimer clock.second = 0

/-- This is the body of `Schedualer::Add`. -/
def Schedualer.add (cb : Job) (milli : Int) (clock : AddClock) : Schedualer Job where
  mPq := (cb, deadline clock.now milli) :: schedualer.mPq
  mTimer := if schedualer.rearms milli clock then arm clock.armed milli else schedualer.mTimer

/-- `Cycle` first pops a job with the earliest deadline. -/
def Schedualer.popJob (place : Nat) : Option (Entry Job × Schedualer Job) :=
  (popTop comperFunc schedualer.mPq place).map fun popped => (popped.1, ⟨popped.2, schedualer.mTimer⟩)

/-- The time from the clock reading to the deadline is a `duration`, which `duration_cast` cuts to milliseconds. -/
def remaining (deadline now : Int) : Int := (nanoseconds64 (deadline - now)).tdiv 1000000

/-- `Cycle` last arms the timer for the job on top when the queue is not empty. -/
def Schedualer.armNext (place : Nat) (now armed : Int) : Option (Schedualer Job) :=
  if schedualer.mPq.isEmpty then some schedualer
  else (popTop comperFunc schedualer.mPq place).map fun popped =>
    ⟨schedualer.mPq, arm armed (remaining popped.1.2 now)⟩

variable {schedualer}

/-- The timer is armed after each `Add`. -/
theorem Schedualer.add_armed (cb : Job) (milli : Int) (clock : AddClock) :
    (schedualer.add cb milli clock).mTimer.isSome := by
  unfold add
  simp only
  split
  · simp [arm_eq]
  · next kept =>
      cases armed : schedualer.mTimer with
      | some expiry => rfl
      | none => simp [rearms, armed] at kept

/-- The popped job has the earliest deadline, and the other jobs stay. -/
theorem Schedualer.popJob_spec {place : Nat} {entry : Entry Job} {rest : Schedualer Job}
    (popped : schedualer.popJob place = some (entry, rest)) :
    (∀ other ∈ schedualer.mPq, entry.2 ≤ other.2) ∧ schedualer.mPq.Perm (entry :: rest.mPq) ∧
      rest.mTimer = schedualer.mTimer := by
  obtain ⟨⟨top, others⟩, taken, same⟩ := Option.map_eq_some_iff.mp popped
  obtain ⟨rfl, rfl⟩ := Prod.mk.inj same
  obtain ⟨least, perm⟩ := popTop_eq_some taken
  exact ⟨(isTopItem_comperFunc.mp least).2, perm, rfl⟩

/-- A job is popped only while one is queued. -/
theorem Schedualer.queued_of_popJob {place : Nat} {popped : Entry Job × Schedualer Job}
    (taken : schedualer.popJob place = some popped) : schedualer.mPq ≠ [] := by
  obtain ⟨-, perm, -⟩ := popJob_spec taken
  intro empty
  rw [empty] at perm
  exact List.cons_ne_nil _ _ perm.nil_eq.symm

/-- The timer is armed for the earliest deadline of a queue that is not empty. -/
theorem Schedualer.armNext_spec {place : Nat} {now armed : Int} {next : Schedualer Job}
    (rearmed : schedualer.armNext place now armed = some next) :
    next.mPq = schedualer.mPq ∧
      (schedualer.mPq = [] ∧ next.mTimer = schedualer.mTimer ∨
        ∃ entry ∈ schedualer.mPq, (∀ other ∈ schedualer.mPq, entry.2 ≤ other.2) ∧
          next.mTimer = arm armed (remaining entry.2 now)) := by
  unfold armNext at rearmed
  split at rearmed
  · next empty =>
      obtain rfl := Option.some.inj rearmed
      exact ⟨rfl, Or.inl ⟨List.isEmpty_iff.mp empty, rfl⟩⟩
  · obtain ⟨⟨top, others⟩, taken, rfl⟩ := Option.map_eq_some_iff.mp rearmed
    have least := isTopItem_comperFunc.mp (popTop_eq_some taken).1
    exact ⟨rfl, Or.inr ⟨top, least.1, least.2, rfl⟩⟩

end

end DistributedNas.Timing
