import DistributedNas.Schedualer.Jobs

/-
This file compares the instants at which `Cycle` fires a job with the deadline of the job.
-/

namespace DistributedNas.Timing
open Library

section
variable {Job : Type*}

/-- The job that `Cycle` takes was added for an instant that has come whenever the job can be passed to `NotifyAll`. -/
def FiresDue (situation : Situation Job) : Action Job → Prop
  | .start place => ∀ popped ∈ situation.schedualer.popJob place,
      popped.1 ∈ situation.added ∧ ∀ time, situation.now ≤ time → popped.1.2 ≤ time
  | _ => True

instance [DecidableEq Job] (situation : Situation Job) (action : Action Job) : Decidable (FiresDue situation action) :=
  match action with
  | .start place =>
      decidable_of_iff (∀ popped ∈ situation.schedualer.popJob place,
          popped.1 ∈ situation.added ∧ popped.1.2 ≤ situation.now)
        ⟨fun due popped member => ⟨(due popped member).1, fun _ later => (due popped member).2.trans later⟩,
          fun due popped member => ⟨(due popped member).1, (due popped member).2 situation.now le_rfl⟩⟩
  | .add .. | .expire _ | .finish .. => inferInstanceAs (Decidable True)

/-- This is the number of queued jobs that are due at an instant. -/
def dueBy (queue : List (Entry Job)) (time : Int) : Nat := queue.countP fun entry => entry.2 ≤ time

/-- A timer sleeps for a positive number of milliseconds, and else for one nanosecond. -/
def slept (milli : Int) : Int := if 0 < milli then milli * 1000000 else 1

/-- The deadline of each job can be stored, and at the expiry that a `Cycle` arms more jobs are due than expiries wait
for their `Cycle`. -/
def ArmsDue (situation : Situation Job) : Action Job → Prop
  | .add _ milli clock => Representable (requested clock.now milli)
  | .finish _ now armed expired => ∀ entry ∈ situation.schedualer.mPq,
      (∀ other ∈ situation.schedualer.mPq, entry.2 ≤ other.2) →
        situation.pending + expired.toNat < dueBy situation.schedualer.mPq (armed + slept (remaining entry.2 now))
  | .expire _ | .start _ => True

instance (situation : Situation Job) (action : Action Job) : Decidable (ArmsDue situation action) :=
  match action with
  | .add _ milli clock => inferInstanceAs (Decidable (Representable (requested clock.now milli)))
  | .finish .. => inferInstanceAs (Decidable (∀ entry ∈ situation.schedualer.mPq,
      (∀ other ∈ situation.schedualer.mPq, _) → _))
  | .expire _ | .start _ => inferInstanceAs (Decidable True)

/-- There is a due job for each waiting expiry, and one more will be due when the timer expires. -/
structure Situation.Timely (situation : Situation Job) : Prop where
  due : situation.pending ≤ dueBy situation.schedualer.mPq situation.now
  armed : ∀ expiry, situation.schedualer.mTimer = some expiry →
    situation.pending < dueBy situation.schedualer.mPq expiry
  accounts : situation.Accounts

variable {situation next : Situation Job} {queue rest : List (Entry Job)} {entry : Entry Job}

/-- More jobs are due at a later instant. -/
theorem dueBy_mono {first second : Int} (later : first ≤ second) : dueBy queue first ≤ dueBy queue second := by
  apply List.countP_mono_left
  intro entry _ due
  simp only [decide_eq_true_eq] at due ⊢
  exact due.trans later

theorem dueBy_cons_of_le {time : Int} (due : entry.2 ≤ time) : dueBy (entry :: queue) time = dueBy queue time + 1 := by
  simp [dueBy, due]

theorem dueBy_le_cons (time : Int) : dueBy queue time ≤ dueBy (entry :: queue) time :=
  (List.sublist_cons_self entry queue).countP_le

/-- A job that leaves the queue takes at most one from the number of due jobs. -/
theorem dueBy_le_of_perm (taken : queue.Perm (entry :: rest)) (time : Int) :
    dueBy queue time ≤ dueBy rest time + 1 := by
  rw [dueBy, taken.countP_eq, List.countP_cons]
  unfold dueBy
  split <;> omega

theorem arm_slept (now milli : Int) : arm now milli = some (now + slept milli) := by
  rw [arm_eq, slept]
  split <;> rfl

/-- A new job is due when the timer that `Add` arms for it expires. -/
theorem requested_le_of_arm {clock : AddClock} (ordered : clock.Ordered) {milli expiry : Int}
    (set : arm clock.armed milli = some expiry) : clock.armed ≤ expiry ∧ requested clock.now milli ≤ expiry := by
  obtain ⟨first, second, third⟩ := ordered
  rw [arm_eq] at set
  obtain rfl := Option.some.inj set
  unfold requested
  split <;> omega

theorem timely_initial (now : Int) : (Situation.initial now : Situation Job).Timely where
  due := Nat.zero_le _
  armed := by
    intro expiry set
    cases set
  accounts := List.Perm.refl _

/-- An expiry inside an operation has its own due job. -/
theorem Situation.Timely.expires (timely : situation.Timely) {armed : Int} {expired arms : Bool}
    (later : situation.now ≤ armed) (expires : Expires situation.schedualer.mTimer armed expired arms) :
    situation.pending + expired.toNat ≤ dueBy situation.schedualer.mPq armed := by
  cases expired with
  | false => exact timely.due.trans (dueBy_mono later)
  | true =>
      obtain ⟨-, expiry, set, passed⟩ := expires rfl
      exact (timely.armed expiry set).trans_le (dueBy_mono passed)

/-- A move that arms the timer late enough keeps a due job for each expiry. -/
theorem Situation.Timely.step (timely : situation.Timely) {action : Action Job} (condition : ArmsDue situation action)
    (moves : Moves situation action next) : next.Timely := by
  have accounts : next.Accounts := timely.accounts.step (by
    rintro cb milli clock rfl
    exact condition) moves
  cases moves with
  | add cb milli clock defined later ordered expires =>
      have passed : situation.now ≤ clock.armed := by
        obtain ⟨first, second, third⟩ := ordered
        omega
      have still := timely.expires passed expires
      refine ⟨still.trans (dueBy_le_cons _), fun expiry set => ?_, accounts⟩
      have exact_deadline := (deadline_eq_iff clock.now milli).mpr condition
      simp only [Schedualer.add] at set ⊢
      split at set
      · obtain ⟨first, second⟩ := requested_le_of_arm ordered set
        rw [dueBy_cons_of_le (exact_deadline ▸ second)]
        exact Nat.lt_succ_of_le (still.trans (dueBy_mono first))
      · next kept =>
          have quiet : clock.expired = false := by
            by_contra disturbed
            exact kept (expires (Bool.not_eq_false _ ▸ disturbed)).1
          rw [quiet]
          exact (timely.armed expiry set).trans_le (dueBy_le_cons _)
  | expire now expiry defined later armed expired =>
      refine ⟨(timely.armed expiry armed).trans_le (dueBy_mono expired), fun other set => ?_, accounts⟩
      cases set
  | startEmpty place between waiting empty =>
      refine ⟨(Nat.sub_le _ _).trans timely.due, fun expiry set => ?_, accounts⟩
      exact (Nat.sub_le _ _).trans_lt (timely.armed expiry set)
  | start place entry rest between waiting popped =>
      obtain ⟨-, taken, same⟩ := Schedualer.popJob_spec popped
      refine ⟨?_, fun expiry set => ?_, accounts⟩
      · have before := timely.due
        have lost := dueBy_le_of_perm taken situation.now
        simp only
        omega
      · have before := timely.armed expiry (same ▸ set)
        have lost := dueBy_le_of_perm taken expiry
        simp only
        omega
  | finish place now armed expired schedualer inCallback later ordered expires rearmed =>
      obtain ⟨same, ended⟩ := Schedualer.armNext_spec rearmed
      have still := timely.expires (later.trans ordered) expires
      refine ⟨by simp only [same]; exact still, fun expiry set => ?_, accounts⟩
      simp only [same] at set ⊢
      rcases ended with ⟨empty, kept⟩ | ⟨entry, member, least, rearms⟩
      · have quiet : expired = false := by
          by_contra disturbed
          have arms := (expires (Bool.not_eq_false _ ▸ disturbed)).1
          simp [empty] at arms
        rw [quiet]
        exact timely.armed expiry (kept ▸ set)
      · rw [rearms, arm_slept] at set
        obtain rfl := Option.some.inj set
        exact condition entry member least

/-- A waiting expiry finds a due job on top. -/
theorem Situation.Timely.firesDue (timely : situation.Timely) {action : Action Job}
    (moves : Moves situation action next) : FiresDue situation action := by
  cases moves with
  | start place entry rest between waiting popped =>
      intro taken member
      obtain ⟨least, perm, -⟩ := Schedualer.popJob_spec member
      have queued : taken.1 ∈ situation.schedualer.mPq := perm.mem_iff.mpr List.mem_cons_self
      refine ⟨timely.accounts.mem_iff.mpr (List.mem_append_right _ queued), fun time later => ?_⟩
      obtain ⟨other, inside, due⟩ := List.countP_pos_iff.mp (Nat.lt_of_lt_of_le waiting timely.due)
      simp only [decide_eq_true_eq] at due
      exact ((least other inside).trans due).trans later
  | startEmpty place between waiting empty =>
      intro taken member
      exact absurd empty (Schedualer.queued_of_popJob member)
  | _ => trivial

/-- No job fires early in a run in which each `Cycle` arms the timer for an instant with enough due jobs. -/
theorem firesDue_of_armsDue {now : Int} {actions : List (Action Job)} {final : Situation Job}
    (condition : Meets actionStep ArmsDue (.initial now) actions)
    (reached : run actionStep (.initial now) actions = some final) :
    Meets actionStep FiresDue (.initial now) actions ∧ final.Accounts := by
  have kept : ∀ (situation : Situation Job) (action : Action Job) (next : Situation Job), situation.Timely →
      ArmsDue situation action → actionStep situation action = some next → next.Timely :=
    fun _ _ _ timely condition stepped => Situation.Timely.step timely condition (moves_of_actionStep stepped)
  have ends := run_invariant_of_meets Situation.Timely kept (timely_initial now) condition reached
  refine ⟨Meets.of_invariant kept ?_ (timely_initial now) condition reached, ends.accounts⟩
  exact fun _ _ _ timely _ stepped => Situation.Timely.firesDue timely (moves_of_actionStep stepped)

end

/-- The first `Cycle` arms the timer for exactly the remaining millisecond. Its callback adds a third job, whose expiry
comes before the `Cycle` ends, when the second job is due as well. -/
def wholeMillisecond : List (Action Nat) :=
  [.add 0 1 (.at 0), .add 1 2 (.at 0), .expire 1000000, .start 1, .add 2 1 (.at 1000000), .expire 2000000,
    .finish 0 2000000 2000000 false, .start 1]

/-- All jobs of this run fire at their deadline. -/
theorem wholeMillisecond_due : Meets actionStep FiresDue (.initial 0) wholeMillisecond ∧
    ∃ final, run actionStep (.initial 0) wholeMillisecond = some final ∧ final.Accounts := by
  obtain ⟨final, reached⟩ : ∃ final, run actionStep (.initial 0) wholeMillisecond = some final :=
    Option.isSome_iff_exists.mp (by decide)
  obtain ⟨due, accounts⟩ := firesDue_of_armsDue (by decide) reached
  exact ⟨due, final, reached, accounts⟩

/-- The first `Cycle` ends half a millisecond before the second deadline, which truncates to one nanosecond. -/
def halfMillisecond : List (Action Nat) :=
  [.add 0 1 (.at 0), .add 1 2 (.at 0), .expire 1000000, .start 1, .finish 0 1500000 1500000 false, .expire 1500001,
    .start 0]

/-- The second job fires almost half a millisecond early. -/
theorem halfMillisecond_early :
    (run actionStep (.initial 0) halfMillisecond).isSome ∧
      ¬ Meets actionStep FiresDue (.initial 0) halfMillisecond := by
  decide

end DistributedNas.Timing
