import DistributedNas.Schedualer.Calls

/-
This file relates the scheduler over its objects to the scheduler over its jobs.
-/

namespace DistributedNas.Timing
open Library Observer

section
variable {Callback : Type*}

/-- The job is inside its callback from the first handler to the end of the `delete`. -/
def Stage.phase : Stage Callback → Phase
  | .between => .between
  | .updating .. | .stopping .. | .arming => .inCallback
  | .undefined => .undefined

/-- These are the dispatchers that have called `Update`, in their order. -/
def updates (deliveries : List (Delivery Nat Callback Int)) : List Nat :=
  deliveries.filterMap fun delivery =>
    match delivery with
    | .update dispatcher _ _ => some dispatcher
    | .stopObserving _ _ => none

/-- The deadline of an added job fits into a `time_point`. -/
def StationAction.Fits : StationAction Callback → Prop
  | .add _ milli clock => Representable (requested clock.now milli)
  | .construct _ | .destroy _ | .expire _ | .start _ | .resume | .finish .. => True

instance (action : StationAction Callback) : Decidable action.Fits :=
  match action with
  | .add _ milli clock => inferInstanceAs (Decidable (Representable (requested clock.now milli)))
  | .construct _ | .destroy _ | .expire _ | .start _ | .resume | .finish .. => inferInstanceAs (Decidable True)

namespace Station
variable {station next : Station Callback} {situation : Situation Nat}

/-- Both models have the same queue and timer, and the calls of `Update` come in the order of the fired jobs. -/
structure Mirrors (station : Station Callback) (situation : Situation Nat) : Prop where
  now : situation.now = station.now
  schedualer : situation.schedualer = station.schedualer
  pending : situation.pending = station.pending
  phase : situation.phase = station.stage.phase
  added : situation.added.map Prod.fst = (List.range station.added.length).reverse
  fired : (updates station.links.deliveries).Sublist (situation.fired.map fun firing => firing.entry.1).reverse

/-- A job that fires comes after those that fired before. -/
theorem Mirrors.fire (mirrors : station.Mirrors situation) (between : station.stage = .between)
    (waiting : 0 < station.pending) {place : Nat} {entry : Entry Nat} {rest : Schedualer Nat}
    (popped : station.schedualer.popJob place = some (entry, rest)) (links : Links Nat Callback Int)
    (stage : Stage Callback) (inside : stage.phase = .inCallback)
    (called : updates links.deliveries = updates station.links.deliveries ++ [entry.1] ∨
      updates links.deliveries = updates station.links.deliveries) :
    ∃ after, actionStep situation (.start place) = some after ∧
      Mirrors { station with
        schedualer := rest
        pending := station.pending - 1
        links := links
        stage := stage } after := by
  have phase : situation.phase = .between := by
    rw [mirrors.phase, between]
    rfl
  have ready : 0 < situation.pending := mirrors.pending ▸ waiting
  have queued : ¬ situation.schedualer.mPq.isEmpty := by
    rw [mirrors.schedualer, List.isEmpty_iff]
    exact Schedualer.queued_of_popJob popped
  refine ⟨{ situation with
      schedualer := rest
      pending := situation.pending - 1
      phase := .inCallback
      fired := ⟨entry, situation.schedualer.mPq⟩ :: situation.fired }, ?_, ?_⟩
  · rw [actionStep, if_pos ⟨phase, ready⟩, if_neg queued, mirrors.schedualer, popped]
    rfl
  · constructor
    · exact mirrors.now
    · rfl
    · exact congrArg (fun count => count - 1) mirrors.pending
    · exact inside.symm
    · exact mirrors.added
    · simp only [List.map_cons, List.reverse_cons]
      rcases called with one | none
      · rw [one]
        exact mirrors.fired.append (List.Sublist.refl _)
      · rw [none]
        exact mirrors.fired.trans (List.sublist_append_left _ _)

/-- A step that makes no call of `Update` and leaves the queue is no step of the jobs. -/
theorem Mirrors.stutter (mirrors : station.Mirrors situation) {links : Links Nat Callback Int}
    {stage : Stage Callback} {destroyed : List Callback} (phase : stage.phase = station.stage.phase)
    (called : updates links.deliveries = updates station.links.deliveries) :
    Mirrors { station with links := links, stage := stage, destroyed := destroyed } situation where
  now := mirrors.now
  schedualer := mirrors.schedualer
  pending := mirrors.pending
  phase := mirrors.phase.trans phase.symm
  added := mirrors.added
  fired := by
    rw [called]
    exact mirrors.fired

/-- Nothing undefined has happened to the jobs while nothing undefined has happened to the objects. -/
theorem Mirrors.defined (mirrors : station.Mirrors situation) (defined : station.stage ≠ .undefined) :
    situation.phase ≠ .undefined := by
  rw [mirrors.phase]
  cases stage : station.stage with
  | undefined => exact absurd stage defined
  | between => exact fun same => by cases same
  | updating dispatcher node callback => exact fun same => by cases same
  | stopping dispatcher node callback => exact fun same => by cases same
  | arming => exact fun same => by cases same

theorem mirrors_initial (now : Int) : (initial now : Station Callback).Mirrors (.initial now) :=
  ⟨rfl, rfl, rfl, rfl, rfl, List.Sublist.refl _⟩

/-- An `Add` adds the job of the new dispatcher. -/
theorem Mirrors.add (mirrors : station.Mirrors situation) (defined : station.stage ≠ .undefined) (cb : Callback)
    (milli : Int) (clock : AddClock) {links : Links Nat Callback Int}
    (deliveries : links.deliveries = station.links.deliveries) (later : station.now ≤ clock.now)
    (ordered : clock.Ordered)
    (expires : Expires station.schedualer.mTimer clock.armed clock.expired (station.schedualer.rearms milli clock)) :
    ∃ after, actionStep situation (.add station.added.length milli clock) = some after ∧
      Mirrors { station with
        now := clock.armed
        schedualer := station.schedualer.add station.added.length milli clock
        pending := station.pending + clock.expired.toNat
        links := links
        added := station.added ++ [cb] } after := by
  have phase := mirrors.defined defined
  refine ⟨{ situation with
      now := clock.armed
      schedualer := situation.schedualer.add station.added.length milli clock
      pending := situation.pending + clock.expired.toNat
      added := (station.added.length, requested clock.now milli) :: situation.added }, ?_, ?_⟩
  · rw [actionStep, if_pos]
    rw [mirrors.now, mirrors.schedualer]
    exact ⟨phase, later, ordered, expires⟩
  · constructor
    · rfl
    · exact congrArg (fun schedualer => schedualer.add station.added.length milli clock) mirrors.schedualer
    · exact congrArg (fun count => count + clock.expired.toNat) mirrors.pending
    · exact mirrors.phase
    · rw [List.length_append, List.length_singleton, List.range_succ, List.reverse_append, List.map_cons, mirrors.added]
      rfl
    · rw [deliveries]
      exact mirrors.fired

variable [DecidableEq Callback]

/-- Each step over the objects is a step over the jobs, or it is none. -/
theorem Mirrors.step (mirrors : station.Mirrors situation) (kept : station.Kept) {action : StationAction Callback}
    (spares : station.Spares action) (fits : action.Fits) (moves : StationMoves station action next) :
    next.Mirrors situation ∨ ∃ event after, actionStep situation event = some after ∧ next.Mirrors after ∧
      StartsQueued situation event := by
  have recorded : ∀ delivery : Delivery Nat Callback Int,
      updates (station.links.record delivery).deliveries =
        updates station.links.deliveries ++ updates [delivery] :=
    fun delivery => List.filterMap_append
  cases moves with
  | construct callback new => exact Or.inl (mirrors.stutter rfl rfl)
  | destroy callback links exist gone =>
      left
      apply mirrors.stutter rfl
      rw [(Links.destroyCallback_eq_some gone).2.1]
  | add cb milli clock links attached later ordered expires =>
      obtain ⟨after, stepped, related⟩ := mirrors.add kept.defined cb milli clock
        (attach_newDispatcher attached).2.2.2 later ordered expires
      exact Or.inr ⟨_, after, stepped, related, fits⟩
  | expire now defined later expired =>
      right
      refine ⟨.expire now, _, if_pos ?_, ?_, trivial⟩
      · rw [mirrors.now, mirrors.schedualer]
        exact ⟨mirrors.defined defined, later, expired⟩
      · constructor
        · rfl
        · rw [mirrors.schedualer]
        · exact congrArg (fun count => count + 1) mirrors.pending
        · exact mirrors.phase
        · exact mirrors.added
        · exact mirrors.fired
  | startEmpty place empty => exact absurd empty spares
  | update place entry rest node callback list between popped listed held waiting =>
      obtain ⟨after, stepped, related⟩ := mirrors.fire between waiting popped _ (.updating entry.1 node callback) rfl
        (Or.inl (recorded (.update entry.1 callback 0)))
      refine Or.inr ⟨_, after, stepped, related, ?_⟩
      show situation.schedualer.mPq ≠ []
      rw [mirrors.schedualer]
      exact Schedualer.queued_of_popJob popped
  | skip place entry rest list between popped listed held waiting =>
      obtain ⟨after, stepped, related⟩ := mirrors.fire between waiting popped
        (station.links.dropDispatcher entry.1) .arming rfl (Or.inr rfl)
      refine Or.inr ⟨_, after, stepped, related, ?_⟩
      show situation.schedualer.mPq ≠ []
      rw [mirrors.schedualer]
      exact Schedualer.queued_of_popJob popped
  | stopObserving dispatcher node callback list inside listed held =>
      left
      apply mirrors.stutter
      · rw [inside]
        rfl
      · rw [recorded]
        exact List.append_nil _
  | drop dispatcher node callback list inside listed held =>
      left
      apply mirrors.stutter
      · rw [inside]
        rfl
      · rfl
  | finishEmpty place now armed expired empty => exact absurd empty spares
  | finish place now armed expired schedualer arming filled rearmed later ordered expires =>
      right
      refine ⟨.finish place now armed expired, { situation with
        now := armed
        schedualer := schedualer
        pending := situation.pending + expired.toNat
        phase := .between }, ?_, ?_, trivial⟩
      · rw [actionStep, if_pos, mirrors.schedualer, rearmed]
        · rfl
        · rw [mirrors.phase, mirrors.now, mirrors.schedualer, arming]
          exact ⟨rfl, later, ordered, expires⟩
      · exact ⟨rfl, rfl, congrArg (fun count => count + expired.toNat) mirrors.pending, rfl, mirrors.added,
          mirrors.fired⟩

/-- Each run that spares the callbacks in use, with deadlines that fit, is a run of the jobs, which loses none and fires
the earliest first. -/
theorem refines_jobs {now : Int} {actions : List (StationAction Callback)} {final : Station Callback}
    (spares : Meets stationStep Spares (initial now) actions) (fits : ∀ action ∈ actions, action.Fits)
    (reached : run stationStep (initial now) actions = some final) :
    ∃ events situation, run actionStep (.initial now) events = some situation ∧ final.Mirrors situation ∧
      Conserved situation := by
  have start : (initial now : Station Callback).Kept ∧ (initial now : Station Callback).Mirrors (.initial now) ∧
      Conserved (.initial now : Situation Nat) :=
    ⟨kept_initial now, mirrors_initial now, conserved_initial now⟩
  have follows : ∀ (station : Station Callback) (situation : Situation Nat) (action : StationAction Callback)
      (next : Station Callback), (station.Kept ∧ station.Mirrors situation ∧ Conserved situation) →
      station.Spares action ∧ action.Fits → stationStep station action = some next →
      ∃ events after, run actionStep situation events = some after ∧
        (next.Kept ∧ next.Mirrors after ∧ Conserved after) := by
    rintro station situation action next ⟨kept, mirrors, conserved⟩ condition stepped
    have moves := kept.moves stepped
    have after := kept.step condition.1 moves
    rcases mirrors.step kept condition.1 condition.2 moves with same | ⟨event, last, followed, related, queued⟩
    · exact ⟨[], situation, rfl, after, same, conserved⟩
    · refine ⟨[event], last, ?_, after, related, conserved.step queued (moves_of_actionStep followed)⟩
      rw [run_cons, followed]
      rfl
  obtain ⟨events, situation, ran, -, mirrors, conserved⟩ := exists_run_of_stutters follows start (spares.and (meets_of_forall fits _)) reached
  exact ⟨events, situation, ran, mirrors, conserved⟩

end Station

end

/-- The run of two objects is a run of their jobs. -/
theorem wholeJob_refines : ∃ final, run stationStep (.initial 0) wholeJob = some final ∧
    ∃ events situation, run actionStep (.initial 0) events = some situation ∧ final.Mirrors situation ∧
      Conserved situation := by
  obtain ⟨final, reached⟩ : ∃ final, run stationStep (.initial 0) wholeJob = some final :=
    Option.isSome_iff_exists.mp (by decide)
  exact ⟨final, reached, Station.refines_jobs wholeJob_spares (by decide) reached⟩

end DistributedNas.Timing
