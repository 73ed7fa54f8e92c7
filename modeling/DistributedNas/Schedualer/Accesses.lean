import DistributedNas.Schedualer.Jobs

/-
This file records what `Cycle` finds in the queue at each of its calls of `top` and `pop`.
-/

namespace DistributedNas.Timing
open Library

/-- The history keeps the queue at each access of `Cycle`, and the number of calls of both operations. -/
structure Observation (Job : Type*) where
  schedualer : Schedualer Job
  pending : Nat
  phase : Phase
  added : Nat
  started : Nat
  accesses : List (List (Entry Job))
  deriving DecidableEq

/-- A new scheduler has not accessed its queue. -/
def Observation.initial {Job : Type*} : Observation Job := ⟨.initial, 0, .between, 0, 0, []⟩

/-- `Cycle` calls `top` and `pop` at its start and `top` after the callback, whatever the queue holds. -/
def observedStep {Job : Type*} (observation : Observation Job) : Action Job → Option (Observation Job)
  | .add cb milli clock =>
      if observation.phase ≠ .undefined then
        some { observation with
          schedualer := observation.schedualer.add cb milli clock
          pending := observation.pending + clock.expired.toNat
          added := observation.added + 1 }
      else none
  | .expire _ =>
      if observation.phase ≠ .undefined ∧ observation.schedualer.mTimer.isSome then
        some { observation with
          schedualer := ⟨observation.schedualer.mPq, none⟩
          pending := observation.pending + 1 }
      else none
  | .start place =>
      if observation.phase = .between ∧ 0 < observation.pending then
        let begun := { observation with
          pending := observation.pending - 1
          started := observation.started + 1
          accesses := observation.schedualer.mPq :: observation.schedualer.mPq :: observation.accesses }
        if observation.schedualer.mPq.isEmpty then some { begun with phase := .undefined }
        else (observation.schedualer.popJob place).map fun popped =>
          { begun with schedualer := popped.2, phase := .inCallback }
      else none
  | .finish place now armed expired =>
      if observation.phase = .inCallback then
        let read := { observation with accesses := observation.schedualer.mPq :: observation.accesses }
        -- the test of `empty` comes only after this call of `top`
        if observation.schedualer.mPq.isEmpty then some { read with phase := .undefined }
        else (observation.schedualer.armNext place now armed).map fun schedualer =>
          { read with
            schedualer := schedualer
            pending := observation.pending + expired.toNat
            phase := .between }
      else none

section
variable {Job : Type*}

/-- No access of `Cycle` has found an empty queue. -/
def Observation.Filled (observation : Observation Job) : Prop :=
  ∀ queue ∈ observation.accesses, queue ≠ []

instance [DecidableEq Job] (observation : Observation Job) : Decidable observation.Filled :=
  inferInstanceAs (Decidable (∀ queue ∈ observation.accesses, queue ≠ []))

/-- A `Cycle` starts, and continues after the callback, while more jobs were added than `Cycle` runs were started. -/
def Outnumbered (observation : Observation Job) : Action Job → Prop
  | .start _ | .finish .. => observation.started < observation.added
  | .add .. | .expire _ => True

instance (observation : Observation Job) (action : Action Job) : Decidable (Outnumbered observation action) :=
  match action with
  | .start _ | .finish .. => inferInstanceAs (Decidable (_ < _))
  | .add .. | .expire _ => inferInstanceAs (Decidable True)

variable {observation next : Observation Job} {action : Action Job}

/-- This relation lists what a step can do to the queue and to its history. -/
inductive Observes (observation : Observation Job) : Action Job → Observation Job → Prop
  | add (cb : Job) (milli : Int) (clock : AddClock) (defined : observation.phase ≠ .undefined) :
      Observes observation (.add cb milli clock)
        { observation with
          schedualer := observation.schedualer.add cb milli clock
          pending := observation.pending + clock.expired.toNat
          added := observation.added + 1 }
  | expire (now : Int) (defined : observation.phase ≠ .undefined) (armed : observation.schedualer.mTimer.isSome) :
      Observes observation (.expire now)
        { observation with
          schedualer := ⟨observation.schedualer.mPq, none⟩
          pending := observation.pending + 1 }
  | startEmpty (place : Nat) (between : observation.phase = .between) (empty : observation.schedualer.mPq = []) :
      Observes observation (.start place)
        { observation with
          pending := observation.pending - 1
          phase := .undefined
          started := observation.started + 1
          accesses := observation.schedualer.mPq :: observation.schedualer.mPq :: observation.accesses }
  | start (place : Nat) (entry : Entry Job) (rest : Schedualer Job) (between : observation.phase = .between)
      (popped : observation.schedualer.popJob place = some (entry, rest)) :
      Observes observation (.start place)
        { schedualer := rest
          pending := observation.pending - 1
          phase := .inCallback
          added := observation.added
          started := observation.started + 1
          accesses := observation.schedualer.mPq :: observation.schedualer.mPq :: observation.accesses }
  | finishEmpty (place : Nat) (now armed : Int) (expired : Bool) (inCallback : observation.phase = .inCallback)
      (empty : observation.schedualer.mPq = []) :
      Observes observation (.finish place now armed expired)
        { observation with
          phase := .undefined
          accesses := observation.schedualer.mPq :: observation.accesses }
  | finish (place : Nat) (now armed : Int) (expired : Bool) (schedualer : Schedualer Job)
      (inCallback : observation.phase = .inCallback) (filled : observation.schedualer.mPq ≠ [])
      (rearmed : observation.schedualer.armNext place now armed = some schedualer) :
      Observes observation (.finish place now armed expired)
        { observation with
          schedualer := schedualer
          pending := observation.pending + expired.toNat
          phase := .between
          accesses := observation.schedualer.mPq :: observation.accesses }

/-- Each step is one of the listed ones. -/
theorem observes_of_observedStep (stepped : observedStep observation action = some next) :
    Observes observation action next := by
  cases action with
  | add cb milli clock =>
      simp only [observedStep] at stepped
      split at stepped
      · next defined =>
          obtain rfl := Option.some.inj stepped
          exact .add cb milli clock defined
      · cases stepped
  | expire now =>
      simp only [observedStep] at stepped
      split at stepped
      · next enabled =>
          obtain rfl := Option.some.inj stepped
          exact .expire now enabled.1 enabled.2
      · cases stepped
  | start place =>
      simp only [observedStep] at stepped
      split at stepped
      · next enabled =>
          split at stepped
          · next empty =>
              obtain rfl := Option.some.inj stepped
              exact .startEmpty place enabled.1 (List.isEmpty_iff.mp empty)
          · obtain ⟨⟨entry, rest⟩, popped, rfl⟩ := Option.map_eq_some_iff.mp stepped
            exact .start place entry rest enabled.1 popped
      · cases stepped
  | finish place now armed expired =>
      simp only [observedStep] at stepped
      split at stepped
      · next inCallback =>
          split at stepped
          · next empty =>
              obtain rfl := Option.some.inj stepped
              exact .finishEmpty place now armed expired inCallback (List.isEmpty_iff.mp empty)
          · next filled =>
              obtain ⟨schedualer, rearmed, rfl⟩ := Option.map_eq_some_iff.mp stepped
              exact .finish place now armed expired schedualer inCallback (fun empty => filled (by simp [empty])) rearmed
      · cases stepped

/-- The queue holds exactly the jobs that were added and not yet started. -/
structure Accounted (observation : Observation Job) : Prop where
  jobs : observation.phase ≠ .undefined →
    observation.schedualer.mPq.length + observation.started = observation.added
  filled : observation.Filled

theorem accounted_initial : Accounted (.initial : Observation Job) where
  jobs := fun _ => rfl
  filled := by
    intro queue accessed
    cases accessed

/-- A queue with as many entries as jobs outnumber the `Cycle` runs is not empty exactly when they do. -/
theorem Accounted.queued_iff (accounted : Accounted observation) (defined : observation.phase ≠ .undefined) :
    observation.schedualer.mPq ≠ [] ↔ observation.started < observation.added := by
  have jobs := accounted.jobs defined
  rw [← List.length_pos_iff]
  omega

/-- A step whose accesses find a queued job keeps the account of jobs. -/
theorem Accounted.step (accounted : Accounted observation) (filled : next.Filled)
    (observes : Observes observation action next) : Accounted next := by
  refine ⟨?_, filled⟩
  cases observes with
  | add cb milli clock defined =>
      intro _
      have jobs := accounted.jobs defined
      simp only [Schedualer.add, List.length_cons]
      omega
  | expire now defined armed => exact accounted.jobs
  | startEmpty place between empty => exact fun defined => absurd rfl defined
  | start place entry rest between popped =>
      intro _
      have jobs := accounted.jobs (by simp [between])
      have size := (Schedualer.popJob_spec popped).2.1.length_eq
      simp only [List.length_cons] at size
      simp only
      omega
  | finishEmpty place now armed expired inCallback empty => exact fun defined => absurd rfl defined
  | finish place now armed expired schedualer inCallback waiting rearmed =>
      intro _
      simp only [(Schedualer.armNext_spec rearmed).1]
      exact accounted.jobs (by simp [inCallback])

/-- One more access finds a queued job exactly when the added jobs outnumber the started runs. -/
theorem Accounted.filled_once (accounted : Accounted observation) (defined : observation.phase ≠ .undefined) :
    (∀ queue ∈ observation.schedualer.mPq :: observation.accesses, queue ≠ []) ↔
      observation.started < observation.added := by
  rw [List.forall_mem_cons, accounted.queued_iff defined]
  exact and_iff_left accounted.filled

/-- Two more accesses of the same queue find a queued job exactly when the added jobs outnumber the started runs. -/
theorem Accounted.filled_twice (accounted : Accounted observation) (defined : observation.phase ≠ .undefined) :
    (∀ queue ∈ observation.schedualer.mPq :: observation.schedualer.mPq :: observation.accesses, queue ≠ []) ↔
      observation.started < observation.added := by
  rw [List.forall_mem_cons, accounted.filled_once defined, accounted.queued_iff defined, and_self_iff]

/-- The accesses of a step find a queued job exactly when the added jobs outnumber the started runs. -/
theorem filled_iff_outnumbered (accounted : Accounted observation) (observes : Observes observation action next) :
    next.Filled ↔ Outnumbered observation action := by
  cases observes with
  | add cb milli clock defined | expire now defined armed => exact iff_of_true accounted.filled trivial
  | startEmpty place between empty | start place entry rest between popped =>
      exact accounted.filled_twice (by simp [between])
  | finishEmpty place now armed expired inCallback empty | finish place now armed expired schedualer inCallback waiting rearmed =>
      exact accounted.filled_once (by simp [inCallback])

/-- `Cycle` never accesses an empty queue in exactly the runs in which the jobs outnumber its runs. -/
theorem filled_iff_runs_outnumbered {actions : List (Action Job)} {final : Observation Job}
    (reached : run observedStep .initial actions = some final) :
    Throughout observedStep Observation.Filled .initial actions ↔
      Meets observedStep Outnumbered .initial actions := by
  refine throughout_iff_meets ?_ ?_ accounted_initial reached
  · intro observation action next accounted stepped
    exact filled_iff_outnumbered accounted (observes_of_observedStep stepped)
  · intro observation action next accounted filled stepped
    exact accounted.step filled (observes_of_observedStep stepped)

/-- An observation and a situation have the same scheduler. -/
structure Observation.Follows (observation : Observation Job) (situation : Situation Job) : Prop where
  schedualer : observation.schedualer = situation.schedualer
  pending : observation.pending = situation.pending
  phase : observation.phase = situation.phase

/-- A timed step is also a step here while the jobs outnumber the started runs. -/
theorem Observation.Follows.step {situation later : Situation Job} (follows : observation.Follows situation)
    (accounted : Accounted observation) (condition : Outnumbered observation action)
    (stepped : actionStep situation action = some later) :
    ∃ next, observedStep observation action = some next ∧ next.Follows later := by
  obtain ⟨schedualer, pending, phase⟩ := follows
  cases moves_of_actionStep stepped with
  | add cb milli clock defined present ordered expires =>
      have enabled : observation.phase ≠ .undefined := phase ▸ defined
      refine ⟨_, if_pos enabled, ?_⟩
      exact ⟨by rw [schedualer], congrArg (· + clock.expired.toNat) pending, phase⟩
  | expire now expiry defined present armed expired =>
      have enabled : observation.phase ≠ .undefined ∧ observation.schedualer.mTimer.isSome := by
        simp [phase, defined, schedualer, armed]
      refine ⟨_, if_pos enabled, ?_⟩
      exact ⟨by rw [schedualer], congrArg (· + 1) pending, phase⟩
  | startEmpty place between waiting empty =>
      have queued := (accounted.queued_iff (by simp [phase, between])).mpr condition
      rw [schedualer] at queued
      exact absurd empty queued
  | start place entry rest between waiting popped =>
      have enabled : observation.phase = .between ∧ 0 < observation.pending := by
        simp [phase, between, pending, waiting]
      have filled : observation.schedualer.mPq.isEmpty = false := by
        rw [schedualer, List.isEmpty_eq_false_iff]
        exact Schedualer.queued_of_popJob popped
      rw [← schedualer] at popped
      refine ⟨_, by simp only [observedStep, if_pos enabled, filled, popped]; rfl, ?_⟩
      exact ⟨rfl, congrArg (· - 1) pending, rfl⟩
  | finish place now armed expired rearmedTo inCallback present ordered expires rearmed =>
      have here := phase.trans inCallback
      have queued := (accounted.queued_iff (by simp [here])).mpr condition
      rw [← schedualer] at rearmed
      refine ⟨_, by simp only [observedStep, if_pos here, List.isEmpty_eq_false_iff.mpr queued, rearmed]; rfl, ?_⟩
      exact ⟨rfl, congrArg (· + expired.toNat) pending, rfl⟩

/-- A timed run from the same scheduler is also a run here while the jobs outnumber the started runs. -/
theorem Observation.Follows.run {situation final : Situation Job} {actions : List (Action Job)}
    (follows : observation.Follows situation) (accounted : Accounted observation)
    (condition : Meets observedStep Outnumbered observation actions)
    (reached : Library.run actionStep situation actions = some final) :
    ∃ last, Library.run observedStep observation actions = some last ∧ last.Follows final := by
  induction actions generalizing situation observation with
  | nil => exact ⟨observation, rfl, Option.some.inj reached ▸ follows⟩
  | cons action rest ih =>
      obtain ⟨later, stepped, continued⟩ := run_cons_eq_some.mp reached
      obtain ⟨next, observed, together⟩ := follows.step accounted condition.1 stepped
      have observes := observes_of_observedStep observed
      have filled := (filled_iff_outnumbered accounted observes).mpr condition.1
      have kept := accounted.step filled observes
      obtain ⟨last, finished, agreed⟩ := ih together kept (condition.2 next observed) continued
      exact ⟨last, run_cons_eq_some.mpr ⟨next, observed, finished⟩, agreed⟩

/-- Each timed run in which the jobs outnumber the started runs is also a run here. -/
theorem follows_of_run {now : Int} {actions : List (Action Job)} {final : Situation Job}
    (condition : Meets observedStep Outnumbered .initial actions)
    (reached : run actionStep (.initial now) actions = some final) :
    ∃ last, run observedStep .initial actions = some last ∧ last.Follows final := by
  have start : (Observation.initial : Observation Job).Follows (.initial now) := ⟨rfl, rfl, rfl⟩
  exact start.run accounted_initial condition reached

end

/-- The callback of the first job adds a second one before it returns. -/
def addingCallback : List (Action Nat) :=
  [.add 0 0 (.at 0), .expire 1, .start 0, .add 1 5 (.at 2), .finish 0 3 3 false, .expire 5000003]

theorem addingCallback_filled : Throughout observedStep Observation.Filled .initial addingCallback := by
  obtain ⟨final, reached⟩ : ∃ final, run observedStep .initial addingCallback = some final :=
    Option.isSome_iff_exists.mp (by decide)
  exact (filled_iff_runs_outnumbered reached).mpr (by decide)

/-- One job is added, expires, and fires. -/
def singleJob : List (Action Nat) := [.add 0 0 (.at 0), .expire 1, .start 0, .finish 0 2 2 false]

/-- The `Cycle` of a single job reads the top of the queue that its own `pop` has emptied. -/
theorem singleJob_reads_empty :
    (run observedStep .initial singleJob).map Observation.accesses = some [[], [(0, 0)], [(0, 0)]] ∧
      ¬ Throughout observedStep Observation.Filled .initial singleJob := by
  decide

end DistributedNas.Timing
