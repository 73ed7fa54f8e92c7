import DistributedNas.Library.Transition
import DistributedNas.Schedualer.Timer

/-
This file follows the jobs of the scheduler from `Add` through expiries to the `Cycle` that fires them.
-/

namespace DistributedNas.Timing
open Library

/-- The scheduler is between two operations or inside a callback, or its behaviour is undefined. -/
inductive Phase where
  | between
  | inCallback
  | undefined
  deriving DecidableEq, Repr

/-- A `Cycle` starts, runs the callback with its `Add` calls, and finishes, where the timer may expire before `Arm`. -/
inductive Action (Job : Type*) where
  | add (cb : Job) (milli : Int) (clock : AddClock)
  | expire (now : Int)
  | start (place : Nat)
  | finish (place : Nat) (now armed : Int) (expired : Bool)
  deriving DecidableEq, Repr

/-- A fired job is kept with the queue from which its `Cycle` took it. -/
structure Firing (Job : Type*) where
  entry : Entry Job
  queue : List (Entry Job)
  deriving DecidableEq

/-- The pending count says how many expiries still wait for their `Cycle`, and each added job is kept with the
instant at which it is due. -/
structure Situation (Job : Type*) where
  now : Int
  schedualer : Schedualer Job
  pending : Nat
  phase : Phase
  added : List (Entry Job)
  fired : List (Firing Job)
  deriving DecidableEq

/-- A new scheduler has no job and no expiry. -/
def Situation.initial {Job : Type*} (now : Int) : Situation Job := ⟨now, .initial, 0, .between, [], []⟩

/-- The timer does not expire up to this instant. -/
def Unexpired (timer : Timer) (now : Int) : Prop := ∀ expiry ∈ timer, now < expiry

instance (timer : Timer) (now : Int) : Decidable (Unexpired timer now) :=
  inferInstanceAs (Decidable (∀ expiry ∈ timer, now < expiry))

/-- An expiry inside an operation is one that comes before its `Arm`; each other one comes before or after it. -/
def Expires (timer : Timer) (armed : Int) (expired arms : Bool) : Prop :=
  expired → arms ∧ ∃ expiry ∈ timer, expiry ≤ armed

instance (timer : Timer) (armed : Int) (expired arms : Bool) : Decidable (Expires timer armed expired arms) :=
  inferInstanceAs (Decidable (_ → _))

/-- An expiry waits for its `Cycle` while an operation runs, and `top` and `pop` are undefined on an empty queue. -/
def actionStep {Job : Type*} (situation : Situation Job) : Action Job → Option (Situation Job)
  | .add cb milli clock =>
      if situation.phase ≠ .undefined ∧ situation.now ≤ clock.now ∧ clock.Ordered ∧
          Expires situation.schedualer.mTimer clock.armed clock.expired (situation.schedualer.rearms milli clock) then
        some { situation with
          now := clock.armed
          schedualer := situation.schedualer.add cb milli clock
          pending := situation.pending + clock.expired.toNat
          added := (cb, requested clock.now milli) :: situation.added }
      else none
  | .expire now =>
      if situation.phase ≠ .undefined ∧ situation.now ≤ now ∧
          ∃ expiry ∈ situation.schedualer.mTimer, expiry ≤ now then
        some { situation with
          now := now
          schedualer := ⟨situation.schedualer.mPq, none⟩
          pending := situation.pending + 1 }
      else none
  | .start place =>
      if situation.phase = .between ∧ 0 < situation.pending then
        if situation.schedualer.mPq.isEmpty then
          some { situation with pending := situation.pending - 1, phase := .undefined }
        else (situation.schedualer.popJob place).map fun popped =>
          { situation with
            schedualer := popped.2
            pending := situation.pending - 1
            phase := .inCallback
            fired := ⟨popped.1, situation.schedualer.mPq⟩ :: situation.fired }
      else none
  | .finish place now armed expired =>
      if situation.phase = .inCallback ∧ situation.now ≤ now ∧ now ≤ armed ∧
          Expires situation.schedualer.mTimer armed expired (!situation.schedualer.mPq.isEmpty) then
        (situation.schedualer.armNext place now armed).map fun schedualer =>
          { situation with
            now := armed
            schedualer := schedualer
            pending := situation.pending + expired.toNat
            phase := .between }
      else none

section
variable {Job : Type*}

/-- A firing takes a job whose deadline is minimal among those queued. -/
def Firing.Earliest (firing : Firing Job) : Prop :=
  firing.entry ∈ firing.queue ∧ ∀ other ∈ firing.queue, firing.entry.2 ≤ other.2

instance [DecidableEq Job] (firing : Firing Job) : Decidable firing.Earliest := inferInstanceAs (Decidable (_ ∧ _))

/-- No job is lost, duplicated, stranded, or fired before an earlier one, and each has the deadline it was added with. -/
structure Conserved (situation : Situation Job) : Prop where
  jobs : situation.added.Perm (situation.fired.map Firing.entry ++ situation.schedualer.mPq)
  earliest : ∀ firing ∈ situation.fired, firing.Earliest
  triggered : situation.phase = .between → situation.schedualer.mPq ≠ [] →
    situation.schedualer.mTimer.isSome ∨ 0 < situation.pending
  defined : situation.phase ≠ .undefined

instance [DecidableEq Job] (situation : Situation Job) : Decidable (Conserved situation) :=
  decidable_of_iff
    (situation.added.Perm (situation.fired.map Firing.entry ++ situation.schedualer.mPq) ∧
      (∀ firing ∈ situation.fired, firing.Earliest) ∧
      (situation.phase = .between → situation.schedualer.mPq ≠ [] →
        situation.schedualer.mTimer.isSome ∨ 0 < situation.pending) ∧
      situation.phase ≠ .undefined)
    ⟨fun parts => ⟨parts.1, parts.2.1, parts.2.2.1, parts.2.2.2⟩,
      fun conserved => ⟨conserved.jobs, conserved.earliest, conserved.triggered, conserved.defined⟩⟩

/-- A `Cycle` starts only while a job is queued, and the deadline of each job fits into a `time_point`. -/
def StartsQueued (situation : Situation Job) : Action Job → Prop
  | .start _ => situation.schedualer.mPq ≠ []
  | .add _ milli clock => Representable (requested clock.now milli)
  | .expire _ | .finish .. => True

instance [DecidableEq Job] (situation : Situation Job) (action : Action Job) :
    Decidable (StartsQueued situation action) :=
  match action with
  | .start _ => inferInstanceAs (Decidable (_ ≠ _))
  | .add _ milli clock => inferInstanceAs (Decidable (Representable (requested clock.now milli)))
  | .expire _ | .finish .. => inferInstanceAs (Decidable True)

theorem conserved_initial (now : Int) : Conserved (.initial now : Situation Job) where
  jobs := List.Perm.refl _
  earliest := by simp [Situation.initial]
  triggered := fun _ waiting => absurd rfl waiting
  defined := by simp [Situation.initial]

variable {situation next : Situation Job}

/-- This relation lists what a step of the scheduler can do. -/
inductive Moves (situation : Situation Job) : Action Job → Situation Job → Prop
  | add (cb : Job) (milli : Int) (clock : AddClock) (defined : situation.phase ≠ .undefined)
      (later : situation.now ≤ clock.now) (ordered : clock.Ordered)
      (expires : Expires situation.schedualer.mTimer clock.armed clock.expired
        (situation.schedualer.rearms milli clock)) :
      Moves situation (.add cb milli clock)
        { situation with
          now := clock.armed
          schedualer := situation.schedualer.add cb milli clock
          pending := situation.pending + clock.expired.toNat
          added := (cb, requested clock.now milli) :: situation.added }
  | expire (now expiry : Int) (defined : situation.phase ≠ .undefined) (later : situation.now ≤ now)
      (armed : situation.schedualer.mTimer = some expiry) (expired : expiry ≤ now) :
      Moves situation (.expire now)
        { situation with
          now := now
          schedualer := ⟨situation.schedualer.mPq, none⟩
          pending := situation.pending + 1 }
  | startEmpty (place : Nat) (between : situation.phase = .between) (waiting : 0 < situation.pending)
      (empty : situation.schedualer.mPq = []) :
      Moves situation (.start place) { situation with pending := situation.pending - 1, phase := .undefined }
  | start (place : Nat) (entry : Entry Job) (rest : Schedualer Job) (between : situation.phase = .between)
      (waiting : 0 < situation.pending) (popped : situation.schedualer.popJob place = some (entry, rest)) :
      Moves situation (.start place)
        { situation with
          schedualer := rest
          pending := situation.pending - 1
          phase := .inCallback
          fired := ⟨entry, situation.schedualer.mPq⟩ :: situation.fired }
  | finish (place : Nat) (now armed : Int) (expired : Bool) (schedualer : Schedualer Job)
      (inCallback : situation.phase = .inCallback) (later : situation.now ≤ now) (ordered : now ≤ armed)
      (expires : Expires situation.schedualer.mTimer armed expired (!situation.schedualer.mPq.isEmpty))
      (rearmed : situation.schedualer.armNext place now armed = some schedualer) :
      Moves situation (.finish place now armed expired)
        { situation with
          now := armed
          schedualer := schedualer
          pending := situation.pending + expired.toNat
          phase := .between }

/-- Each step of the scheduler is one of the listed moves. -/
theorem moves_of_actionStep {action : Action Job} (stepped : actionStep situation action = some next) :
    Moves situation action next := by
  cases action with
  | add cb milli clock =>
      simp only [actionStep] at stepped
      split at stepped
      · next enabled =>
          obtain rfl := Option.some.inj stepped
          exact .add cb milli clock enabled.1 enabled.2.1 enabled.2.2.1 enabled.2.2.2
      · cases stepped
  | expire now =>
      simp only [actionStep] at stepped
      split at stepped
      · next enabled =>
          obtain rfl := Option.some.inj stepped
          obtain ⟨defined, later, expiry, armed, expired⟩ := enabled
          exact .expire now expiry defined later armed expired
      · cases stepped
  | start place =>
      simp only [actionStep] at stepped
      split at stepped
      · next enabled =>
          split at stepped
          · next empty =>
              obtain rfl := Option.some.inj stepped
              exact .startEmpty place enabled.1 enabled.2 (List.isEmpty_iff.mp empty)
          · obtain ⟨⟨entry, rest⟩, popped, rfl⟩ := Option.map_eq_some_iff.mp stepped
            exact .start place entry rest enabled.1 enabled.2 popped
      · cases stepped
  | finish place now armed expired =>
      simp only [actionStep] at stepped
      split at stepped
      · next enabled =>
          obtain ⟨schedualer, rearmed, rfl⟩ := Option.map_eq_some_iff.mp stepped
          exact .finish place now armed expired schedualer enabled.1 enabled.2.1 enabled.2.2.1 enabled.2.2.2 rearmed
      · cases stepped

/-- The added jobs are those that were fired and those that are queued, each with the instant at which it is due. -/
def Situation.Accounts (situation : Situation Job) : Prop :=
  situation.added.Perm (situation.fired.map Firing.entry ++ situation.schedualer.mPq)

/-- Each move that stores the right deadline keeps the account of jobs. -/
theorem Situation.Accounts.step (accounts : situation.Accounts) {action : Action Job}
    (fits : ∀ cb milli clock, action = .add cb milli clock → Representable (requested clock.now milli))
    (moves : Moves situation action next) : next.Accounts := by
  cases moves with
  | add cb milli clock defined later ordered expires =>
      unfold Situation.Accounts
      simp only [Schedualer.add, (deadline_eq_iff clock.now milli).mpr (fits cb milli clock rfl)]
      exact (accounts.cons _).trans List.perm_middle.symm
  | expire | startEmpty => exact accounts
  | start place entry rest between waiting popped =>
      obtain ⟨-, perm, -⟩ := Schedualer.popJob_spec popped
      exact (accounts.trans (perm.append_left _)).trans List.perm_middle
  | finish place now armed expired schedualer inCallback later ordered expires rearmed =>
      obtain ⟨same, -⟩ := Schedualer.armNext_spec rearmed
      unfold Situation.Accounts
      rw [same]
      exact accounts

/-- A move that does not start a `Cycle` on an empty queue, and that stores the right deadline, keeps the jobs. -/
theorem Conserved.step (conserved : Conserved situation) {action : Action Job}
    (queued : StartsQueued situation action) (moves : Moves situation action next) : Conserved next := by
  have jobs : next.Accounts := Situation.Accounts.step conserved.jobs (by
    rintro cb milli clock rfl
    exact queued) moves
  cases moves with
  | add cb milli clock defined later ordered expires =>
      exact ⟨jobs, conserved.earliest, fun _ _ => Or.inl (Schedualer.add_armed cb milli clock), defined⟩
  | expire now expiry defined later armed expired =>
      exact ⟨jobs, conserved.earliest, fun _ _ => Or.inr (Nat.succ_pos _), conserved.defined⟩
  | startEmpty place between waiting empty => exact absurd empty queued
  | start place entry rest between waiting popped =>
      obtain ⟨least, perm, -⟩ := Schedualer.popJob_spec popped
      refine ⟨jobs, fun firing member => ?_, fun inside => (by cases inside), by simp⟩
      rcases List.mem_cons.mp member with rfl | before
      · exact ⟨perm.mem_iff.mpr List.mem_cons_self, least⟩
      · exact conserved.earliest firing before
  | finish place now armed expired schedualer inCallback later ordered expires rearmed =>
      obtain ⟨same, ended⟩ := Schedualer.armNext_spec rearmed
      refine ⟨jobs, conserved.earliest, fun _ waiting => Or.inl ?_, by simp⟩
      rcases ended with ⟨empty, -⟩ | ⟨entry, -, -, set⟩
      · exact absurd (same.trans empty) waiting
      · rw [set, arm_eq]
        rfl

/-- A step keeps the jobs exactly when it meets the condition. -/
theorem conserved_step_iff (conserved : Conserved situation) {action : Action Job}
    (stepped : actionStep situation action = some next) :
    Conserved next ↔ StartsQueued situation action := by
  have moves := moves_of_actionStep stepped
  refine ⟨fun after => ?_, fun queued => conserved.step queued moves⟩
  cases moves with
  | add cb milli clock defined later ordered expires =>
      -- The added job and the queued one are the only difference between both sides of the account.
      have balance := Multiset.coe_eq_coe.mpr (after.jobs.trans List.perm_middle)
      rw [← Multiset.cons_coe, ← Multiset.cons_coe, Multiset.coe_eq_coe.mpr conserved.jobs] at balance
      have same := (Multiset.cons_inj_left _).mp balance
      exact (deadline_eq_iff clock.now milli).mp (Prod.mk.inj same).2.symm
  | startEmpty place between waiting empty => exact absurd rfl after.defined
  | start place entry rest between waiting popped => exact Schedualer.queued_of_popJob popped
  | _ => trivial

/-- The jobs are conserved in exactly the runs in which each `Cycle` finds a job and each deadline can be stored. -/
theorem conserved_iff_startsQueued {now : Int} {actions : List (Action Job)} {final : Situation Job}
    (reached : run actionStep (.initial now) actions = some final) :
    Throughout actionStep Conserved (.initial now) actions ↔
      Meets actionStep StartsQueued (.initial now) actions :=
  throughout_iff_meets (fun _ _ _ conserved stepped => conserved_step_iff conserved stepped)
    (fun _ _ _ _ conserved _ => conserved) (conserved_initial now) reached

/-- The timer does not expire while an `Add` or a `Cycle` is in progress. -/
def Undisturbed (situation : Situation Job) : Action Job → Prop
  | .add _ _ clock => clock.expired = false ∧ Unexpired situation.schedualer.mTimer clock.armed
  | .expire _ => situation.phase = .between
  | .finish _ _ armed expired => expired = false ∧ Unexpired situation.schedualer.mTimer armed
  | .start _ => True

instance (situation : Situation Job) (action : Action Job) : Decidable (Undisturbed situation action) :=
  match action with
  | .add .. | .finish .. => inferInstanceAs (Decidable (_ ∧ _))
  | .expire _ => inferInstanceAs (Decidable (_ = _))
  | .start _ => inferInstanceAs (Decidable True)

/-- Each expiry comes between two operations, when no earlier one waits for its `Cycle`, and deadlines can be stored. -/
def Calm (situation : Situation Job) (action : Action Job) : Prop :=
  Undisturbed situation action ∧
    match action with
    | .expire _ => situation.pending = 0
    | .add _ milli clock => Representable (requested clock.now milli)
    | .start _ | .finish .. => True

instance (situation : Situation Job) (action : Action Job) : Decidable (Calm situation action) :=
  match action with
  | .expire _ => inferInstanceAs (Decidable (Undisturbed situation _ ∧ _ = _))
  | .add _ milli clock =>
      inferInstanceAs (Decidable (Undisturbed situation _ ∧ Representable (requested clock.now milli)))
  | .start _ | .finish .. => inferInstanceAs (Decidable (Undisturbed situation _ ∧ True))

/-- There is a queued job for the waiting expiry and one for the armed timer. -/
structure Backed (situation : Situation Job) : Prop where
  enough : situation.pending + situation.schedualer.mTimer.toList.length ≤ situation.schedualer.mPq.length
  single : situation.pending ≤ 1
  taken : situation.phase = .inCallback → situation.pending = 0

theorem length_toList_le_one {A : Type*} (value : Option A) : value.toList.length ≤ 1 := by
  cases value <;> simp

theorem Backed.step (backed : Backed situation) {action : Action Job} (calm : Calm situation action)
    (moves : Moves situation action next) : Backed next := by
  obtain ⟨enough, single, taken⟩ := backed
  cases moves with
  | add cb milli clock defined later ordered expires =>
      have quiet : clock.expired = false := calm.1.1
      have one := length_toList_le_one (situation.schedualer.add cb milli clock).mTimer
      rw [quiet]
      refine ⟨?_, single, taken⟩
      simp only [Schedualer.add, List.length_cons, Bool.toNat_false] at one ⊢
      omega
  | expire now expiry defined later armed expired =>
      have between : situation.phase = .between := calm.1
      have none : situation.pending = 0 := calm.2
      rw [armed] at enough
      refine ⟨?_, by simp only; omega, fun inside => by simp [between] at inside⟩
      simp only [Option.toList_some, Option.toList_none, List.length_singleton, List.length_nil] at enough ⊢
      omega
  | startEmpty place between waiting empty => exact ⟨by simp only; omega, by simp only; omega, by simp⟩
  | start place entry rest between waiting popped =>
      obtain ⟨-, perm, same⟩ := Schedualer.popJob_spec popped
      have size := perm.length_eq
      simp only [List.length_cons] at size
      refine ⟨?_, by simp only; omega, fun _ => by simp only; omega⟩
      simp only [same]
      omega
  | finish place now armed expired schedualer inCallback later ordered expires rearmed =>
      obtain ⟨same, ended⟩ := Schedualer.armNext_spec rearmed
      have quiet : expired = false := calm.1.1
      have none := taken inCallback
      rw [quiet]
      refine ⟨?_, single, fun inside => by cases inside⟩
      simp only [same, Bool.toNat_false]
      rcases ended with ⟨-, kept⟩ | ⟨entry, member, -⟩
      · rw [kept]
        exact enough
      · have one := length_toList_le_one schedualer.mTimer
        have waiting := List.length_pos_of_mem member
        omega

/-- In a calm run each `Cycle` finds a queued job when it starts. -/
theorem startsQueued_of_calm {now : Int} {actions : List (Action Job)} {final : Situation Job}
    (calm : Meets actionStep Calm (.initial now) actions)
    (reached : run actionStep (.initial now) actions = some final) :
    Meets actionStep StartsQueued (.initial now) actions := by
  have start : Backed (.initial now : Situation Job) :=
    ⟨le_rfl, Nat.zero_le _, fun inside => (by cases inside)⟩
  refine Meets.of_invariant
    (fun _ _ _ backed condition stepped => Backed.step backed condition (moves_of_actionStep stepped))
    (fun situation action next backed condition stepped => ?_) start calm reached
  cases moves_of_actionStep stepped with
  | add cb milli clock defined later ordered expires => exact condition.2
  | startEmpty place between waiting empty =>
      have enough := backed.enough
      rw [empty, List.length_nil] at enough
      omega
  | start place entry rest between waiting popped => exact Schedualer.queued_of_popJob popped
  | _ => trivial

end

/-- The callback of one job adds a second one, whose timer expires before the first `Cycle` ends. -/
def nestedJobs : List (Action Nat) :=
  [.add 0 0 (.at 0), .expire 1, .start 0, .add 1 0 (.at 2), .finish 0 4 4 true, .start 0, .expire 5, .finish 0 6 6 false]

/-- The jobs are conserved up to the `Cycle` that the second expiry of the second job starts. -/
theorem nestedJobs_conserved : Throughout actionStep Conserved (.initial 0) nestedJobs := by
  have reached : run actionStep (.initial 0) nestedJobs =
      some ⟨6, .initial, 1, .between, [(1, 2), (0, 0)], [⟨(1, 2), [(1, 2)]⟩, ⟨(0, 0), [(0, 0)]⟩]⟩ := by decide
  exact (conserved_iff_startsQueued reached).mpr (by decide)

/-- Two jobs without delay expire before the first `Cycle` starts. -/
def twoExpiries : List (Action Nat) :=
  [.add 0 0 (.at 0), .expire 1, .add 1 0 (.at 2), .expire 3, .start 1, .finish 0 4 4 false, .start 0,
    .finish 0 4 4 false, .expire 5, .start 0]

/-- The first `Cycle` arms the timer for the second job, and a third expiry finds the queue empty. -/
theorem twoExpiries_undefined :
    (run actionStep (.initial 0) twoExpiries).isSome ∧ Meets actionStep Undisturbed (.initial 0) twoExpiries ∧
      ¬ Throughout actionStep Conserved (.initial 0) twoExpiries := by
  decide

end DistributedNas.Timing
