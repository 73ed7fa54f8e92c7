import DistributedNas.Library.Transition
import DistributedNas.Schedualer.Timer

/-
This file compares the expiry of the timer with the earliest deadline after each step of the scheduler.
-/

namespace DistributedNas.Timing
open Library

/-- Each `Add` and each `Cycle` is one step at one instant. -/
inductive Event (Job : Type*) where
  | add (cb : Job) (milli now : Int)
  | cycle (now : Int) (place next : Nat)
  deriving DecidableEq, Repr

/-- The last step was at some instant. -/
structure Moment (Job : Type*) where
  now : Int
  schedualer : Schedualer Job
  deriving DecidableEq

/-- An expired timer triggers `Cycle` before any later step. -/
def eventStep {Job : Type*} (moment : Moment Job) : Event Job → Option (Moment Job)
  | .add cb milli now =>
      if moment.now ≤ now ∧ ∀ expiry ∈ moment.schedualer.mTimer, now < expiry then
        some ⟨now, moment.schedualer.add cb milli (.at now)⟩
      else none
  | .cycle now place next =>
      if moment.now ≤ now ∧ ∃ expiry ∈ moment.schedualer.mTimer, expiry ≤ now then
        (Schedualer.popJob ⟨moment.schedualer.mPq, none⟩ place).bind fun popped =>
          (popped.2.armNext next now now).map fun schedualer => ⟨now, schedualer⟩
      else none

section
variable {Job : Type*}

/-- The timer expires by the earliest deadline, or in one nanosecond when that deadline has passed. -/
def Moment.Punctual (moment : Moment Job) : Prop :=
  moment.schedualer.mPq ≠ [] → ∃ expiry ∈ moment.schedualer.mTimer,
    ∀ entry ∈ moment.schedualer.mPq, expiry ≤ max entry.2 (moment.now + 1)

/-- The remaining time to a deadline is computed without becoming a millisecond longer. -/
def Measured (deadline now : Int) : Prop :=
  nanoseconds64 (deadline - now) ≤ deadline - now ∨ nanoseconds64 (deadline - now) < 1000000

/-- An `Add` arms the timer only for the earliest deadline and keeps only an early enough one.
A `Cycle` measures the time to the earliest deadline that it leaves. -/
def Timely (moment : Moment Job) : Event Job → Prop
  | .cycle now place _ => ∀ popped ∈ Schedualer.popJob ⟨moment.schedualer.mPq, none⟩ place,
      ∀ entry ∈ popped.2.mPq, (∀ other ∈ popped.2.mPq, entry.2 ≤ other.2) → Measured entry.2 now
  | .add _ milli now =>
      if moment.schedualer.rearms milli (.at now) then
        milli ≤ 0 ∨ requested now milli < 2 ^ 63 ∧ ∀ entry ∈ moment.schedualer.mPq, requested now milli ≤ entry.2
      else ∀ expiry ∈ moment.schedualer.mTimer, expiry ≤ max (deadline now milli) (now + 1)

/-- An empty queue has no armed timer, and another queue has a punctual one. -/
structure Settled (moment : Moment Job) : Prop where
  idle : moment.schedualer.mPq = [] → moment.schedualer.mTimer = none
  punctual : moment.Punctual

theorem settled_initial (now : Int) : Settled (⟨now, .initial⟩ : Moment Job) :=
  ⟨fun _ => rfl, fun waiting => absurd rfl waiting⟩

variable {moment next : Moment Job}

/-- A number of whole milliseconds is positive from the first millisecond on. -/
theorem remaining_cases (deadline now : Int) :
    nanoseconds64 (deadline - now) < 1000000 ∧ remaining deadline now ≤ 0 ∨
      0 < remaining deadline now ∧ 1000000 ≤ nanoseconds64 (deadline - now) ∧
        remaining deadline now * 1000000 ≤ nanoseconds64 (deadline - now) := by
  unfold remaining
  by_cases negative : nanoseconds64 (deadline - now) < 0
  · have whole := Int.tdiv_nonneg (a := -nanoseconds64 (deadline - now)) (b := 1000000) (by omega) (by decide)
    rw [Int.neg_tdiv] at whole
    omega
  · rw [Int.tdiv_eq_ediv_of_nonneg (by omega)]
    omega

/-- The timer of a `Cycle` suits a deadline exactly when the time to it was measured. -/
theorem arm_remaining_le_iff (deadline now : Int) :
    (if 0 < remaining deadline now then now + remaining deadline now * 1000000 else now + 1) ≤
      max deadline (now + 1) ↔ Measured deadline now := by
  have early := le_nanoseconds64_iff (deadline - now)
  have fits := nanoseconds64_eq_iff (deadline - now)
  obtain ⟨low, high⟩ := representable_nanoseconds64 (deadline - now)
  unfold Measured
  unfold Representable at fits
  rcases remaining_cases deadline now with ⟨short, none⟩ | ⟨some, long, whole⟩
  · rw [if_neg (by omega)]
    exact iff_of_true (le_max_right _ _) (Or.inr short)
  · rw [if_pos some]
    omega

/-- After a `Cycle` the timer is punctual exactly when the time to the earliest deadline was measured. -/
theorem settled_cycle_iff {now : Int} {place top : Nat}
    (stepped : eventStep moment (.cycle now place top) = some next) :
    (next.schedualer.mPq = [] → next.schedualer.mTimer = none) ∧
      (next.Punctual ↔ Timely moment (.cycle now place top)) := by
  simp only [eventStep] at stepped
  split at stepped
  · obtain ⟨⟨entry, rest⟩, popped, continued⟩ := Option.bind_eq_some_iff.mp stepped
    obtain ⟨schedualer, rearmed, rfl⟩ := Option.map_eq_some_iff.mp continued
    obtain ⟨-, -, disarmed⟩ := Schedualer.popJob_spec popped
    have timely : Timely moment (.cycle now place top) ↔
        ∀ entry ∈ rest.mPq, (∀ other ∈ rest.mPq, entry.2 ≤ other.2) → Measured entry.2 now := by
      simp only [Timely, popped, Option.mem_some_iff, forall_eq']
    rw [timely]
    obtain ⟨same, ⟨empty, kept⟩ | ⟨earliest, member, least, armed⟩⟩ := Schedualer.armNext_spec rearmed
    · change rest.mPq = [] at empty
      refine ⟨fun _ => kept.trans disarmed, iff_of_true (fun waiting => absurd (same.trans empty) waiting) ?_⟩
      simp [empty]
    · refine ⟨fun none => ?_, ?_⟩
      · rw [← same, none] at member
        cases member
      · change earliest ∈ rest.mPq at member
        change schedualer.mPq = rest.mPq at same
        rw [arm_eq] at armed
        have suits := arm_remaining_le_iff earliest.2 now
        have punctual : Moment.Punctual ⟨now, schedualer⟩ ↔ ∀ entry ∈ rest.mPq,
            (if 0 < remaining earliest.2 now then now + remaining earliest.2 now * 1000000 else now + 1) ≤
              max entry.2 (now + 1) := by
          rw [Moment.Punctual, same, armed]
          simp only [ne_eq, List.ne_nil_of_mem member, not_false_eq_true, forall_const, Option.mem_some_iff,
            exists_eq_left']
        rw [punctual]
        constructor
        · intro early entry queued first
          have equal : entry.2 = earliest.2 := le_antisymm (first earliest member) (least entry queued)
          rw [equal]
          exact suits.mp (early earliest member)
        · intro measured entry queued
          have first := suits.mpr (measured earliest member least)
          have later := least entry queued
          omega
  · cases stepped

/-- A timer armed by an `Add` suits an earlier job unless a positive delay ends after its deadline. -/
theorem arm_le_iff (now milli earlier : Int) :
    (if 0 < milli then now + milli * 1000000 else now + 1) ≤ max earlier (now + 1) ↔
      milli ≤ 0 ∨ requested now milli ≤ earlier := by
  unfold requested
  split <;> omega

/-- An enabled `Add` happens before the expiry, and this is the state after it. -/
theorem eventStep_add {cb : Job} {milli now : Int}
    (stepped : eventStep moment (.add cb milli now) = some next) :
    moment.now ≤ now ∧ (∀ expiry ∈ moment.schedualer.mTimer, now < expiry) ∧
      next = ⟨now, moment.schedualer.add cb milli (.at now)⟩ := by
  simp only [eventStep] at stepped
  split at stepped
  · next enabled => exact ⟨enabled.1, enabled.2, (Option.some.inj stepped).symm⟩
  · cases stepped

/-- After an `Add` the timer has to suit the added job and each earlier one. -/
theorem punctual_add (schedualer : Schedualer Job) (cb : Job) (milli now : Int) :
    (⟨now, schedualer.add cb milli (.at now)⟩ : Moment Job).Punctual ↔
      ∃ expiry ∈ (schedualer.add cb milli (.at now)).mTimer,
        expiry ≤ max (deadline now milli) (now + 1) ∧
          ∀ entry ∈ schedualer.mPq, expiry ≤ max entry.2 (now + 1) := by
  have waiting : (schedualer.add cb milli (.at now)).mPq = (cb, deadline now milli) :: schedualer.mPq := rfl
  simp only [Moment.Punctual, waiting, ne_eq, reduceCtorEq, not_false_eq_true, forall_const,
    List.forall_mem_cons]

/-- An `Add` leaves a punctual timer exactly when it is timely. -/
theorem punctual_add_iff (settled : Settled moment) {cb : Job} {milli now : Int}
    (stepped : eventStep moment (.add cb milli now) = some next) :
    next.Punctual ↔ Timely moment (.add cb milli now) := by
  obtain ⟨later, -, rfl⟩ := eventStep_add stepped
  rw [punctual_add, Timely]
  by_cases rearms : moment.schedualer.rearms milli (.at now)
  · rw [Schedualer.add, if_pos rearms, if_pos rearms]
    simp only [AddClock.at, arm_eq, Option.mem_some_iff, exists_eq_left', arm_le_iff, deadline, le_nanoseconds64_iff]
    by_cases positive : milli ≤ 0 <;> simp [positive]
  · rw [Schedualer.add, if_neg rearms, if_neg rearms]
    constructor
    · rintro ⟨other, same, suits, -⟩ kept found
      obtain rfl := Option.mem_unique same found
      exact suits
    · intro suits
      have waiting : moment.schedualer.mPq ≠ [] := by
        intro empty
        exact rearms (by simp [Schedualer.rearms, settled.idle empty])
      obtain ⟨expiry, armed, early⟩ := settled.punctual waiting
      refine ⟨expiry, armed, suits expiry armed, fun entry member => ?_⟩
      have before := early entry member
      omega

/-- Each step decides by its timeliness whether the timer is punctual after it. -/
theorem punctual_step_iff (settled : Settled moment) {event : Event Job}
    (stepped : eventStep moment event = some next) : next.Punctual ↔ Timely moment event := by
  cases event with
  | add cb milli now => exact punctual_add_iff settled stepped
  | cycle now place top => exact (settled_cycle_iff stepped).2

/-- A punctual step from a settled state leads to a settled state. -/
theorem Settled.step {event : Event Job} (punctual : next.Punctual)
    (stepped : eventStep moment event = some next) : Settled next := by
  cases event with
  | cycle now place top => exact ⟨(settled_cycle_iff stepped).1, punctual⟩
  | add cb milli now =>
      obtain ⟨-, -, rfl⟩ := eventStep_add stepped
      exact ⟨fun empty => (List.cons_ne_nil _ _ empty).elim, punctual⟩

instance (deadline now : Int) : Decidable (Measured deadline now) := inferInstanceAs (Decidable (_ ∨ _))

instance [DecidableEq Job] (moment : Moment Job) (event : Event Job) : Decidable (Timely moment event) :=
  match event with
  | .cycle _ place _ => inferInstanceAs (Decidable (∀ popped ∈ Schedualer.popJob ⟨moment.schedualer.mPq, none⟩ place,
      ∀ entry ∈ popped.2.mPq, (∀ other ∈ popped.2.mPq, _) → _))
  | .add _ milli now => inferInstanceAs (Decidable (if moment.schedualer.rearms milli (.at now) then _ else _))

end

/-- The timer never sleeps past the earliest deadline in exactly the runs whose steps are timely. -/
theorem punctual_iff_timely {Job : Type*} {start : Int} {events : List (Event Job)} {final : Moment Job}
    (reached : run eventStep ⟨start, .initial⟩ events = some final) :
    Throughout eventStep Moment.Punctual ⟨start, .initial⟩ events ↔
      Meets eventStep Timely ⟨start, .initial⟩ events :=
  throughout_iff_meets (fun _ _ _ settled stepped => punctual_step_iff settled stepped)
    (fun _ _ _ _ punctual stepped => Settled.step punctual stepped) (settled_initial start) reached

/-- A later job keeps the timer, an earlier one arms it again, and each `Cycle` arms it for the next job. -/
def threeJobs : List (Event Nat) :=
  [.add 0 500 0, .add 1 1000 0, .add 2 100 0, .cycle 100000000 0 1, .cycle 500000000 1 0, .cycle 1000000000 0 0]

/-- The timer is punctual throughout the run of three jobs. -/
theorem threeJobs_punctual : Throughout eventStep Moment.Punctual ⟨0, .initial⟩ threeJobs := by
  have reached : run eventStep ⟨0, .initial⟩ threeJobs = some ⟨1000000000, .initial⟩ := by decide
  exact (punctual_iff_timely reached).mpr (by decide)

/-- A long delay is added first, and a shorter one follows at the same instant. -/
def shorterDelay : List (Event Nat) := [.add 0 16000 0, .add 1 1000 0]

/-- The second job waits for one second, and the timer sleeps for sixteen. -/
theorem shorterDelay_late :
    (run eventStep ⟨0, .initial⟩ shorterDelay).isSome ∧
      ¬ Throughout eventStep Moment.Punctual ⟨0, .initial⟩ shorterDelay := by
  refine ⟨by decide, fun throughout => ?_⟩
  have second := ((throughout _ rfl).2 ⟨0, ⟨[(1, 1000000000), (0, 16000000000)], some 16000000000⟩⟩
    (by decide)).1
  obtain ⟨expiry, armed, early⟩ := second (by decide)
  have late := early (1, 1000000000) (by decide)
  obtain rfl := Option.some.inj armed
  revert late
  decide

end DistributedNas.Timing
