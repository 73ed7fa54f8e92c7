import DistributedNas.ThreadPool.Shutdown

/-
This file proves that `Stop` leaves no worker of an unpaused pool blocked, and that it blocks one of a paused pool.
-/

namespace DistributedNas.ThreadPool
open Library

section
variable {Job : Type*}

/-- `Stop` is called when the pool is not paused. -/
def Pool.StopUnpaused (pool : Pool Job) (action : Action Job) : Prop :=
  action = .call .stop → pool.mIsPaused = false

/-- A worker waits in `LockCV` without a notification, or it waits for a task of the empty queue. -/
def Pool.Blocked (pool : Pool Job) (worker : Worker Job) : Prop :=
  worker.place = .waiting ∨ worker.place = .dequeue ∧ pool.mWq = []

/-- `Stop` has broadcast, and it has enqueued its `DeleteTask` objects. -/
def Controller.hasOrdered : Controller Job → Bool
  | .stopTest | .stopWaiting | .stopWoken _ | .stopLeave _ | .idle => true
  | _ => false

/-- After the work of `Stop` a worker is alive, and each live worker is blocked. -/
def Pool.Stuck (pool : Pool Job) : Prop :=
  (pool.stopCalled ∧ pool.controller.hasOrdered) ∧ (∃ worker ∈ pool.workers, worker.iAmAlive) ∧
    ∀ worker ∈ pool.workers, worker.iAmAlive → pool.Blocked worker

/-- `Stop` has not yet broadcast. -/
def Controller.isEarly : Controller Job → Bool
  | .stopLock | .stopBroadcast => true
  | _ => false

/-- After the broadcast of `Stop` no worker sleeps in `LockCV`. -/
structure Pool.Calm (pool : Pool Job) : Prop where
  unpaused : pool.stopCalled → pool.mIsPaused = false
  awake : pool.stopCalled → pool.controller.isEarly = false →
    ∀ worker ∈ pool.workers, worker.place ≠ .sleep ∧ worker.place ≠ .waiting

variable {pool next base : Pool Job} {id numOfThreads : Nat} {worker : Worker Job}
  {effect : Effect Job} {after : Controller Job}

/-- `Stop` changes no flag, and it notifies the workers before it leaves its early steps. -/
theorem Plans.stopping (plans : Plans pool effect after) (stopping : pool.controller.isStopping)
    (performed : pool.perform effect = some base) :
    base.mIsPaused = pool.mIsPaused ∧
      (after.isEarly = false → pool.controller.isEarly = false ∧ base.workers = pool.workers ∨
        pool.controller = .stopBroadcast ∧ base.workers = pool.workers.map Worker.notified) := by
  cases plans with
  | stopLock stands | stopRetest stands | stopGiveUp stands =>
      obtain ⟨_, rfl⟩ := Pool.perform_lock performed
      simp [stands, Controller.isEarly]
  | stopBroadcast stands | stopTask i stands more | stopTasksEnd i stands done | stopDone stands | stopWait stands
  | stopLeave timedOut stands =>
      obtain rfl := Option.some.inj performed
      simp [stands, Controller.isEarly]
  | _ => simp_all [Controller.isStopping]

namespace Pool

theorem Calm.control (calm : pool.Calm) (counted : pool.Counted numOfThreads) (guarded : pool.Guarded)
    (plans : Plans pool effect after) (performed : pool.perform effect = some base) :
    Calm { base with controller := after } := by
  have called := (performed_of_perform performed).stopCalled
  have stopping : pool.stopCalled → pool.controller.isStopping := by
    intro stop
    cases counted.ended stop with
    | inl stopping => exact stopping
    | inr idle => exact absurd idle plans.running
  constructor
  · intro stop
    change base.stopCalled = true at stop
    rw [called] at stop
    change base.mIsPaused = false
    rw [(plans.stopping (stopping stop) performed).1]
    exact calm.unpaused stop
  · intro stop late worker member
    change base.stopCalled = true at stop
    change worker ∈ base.workers at member
    rw [called] at stop
    rcases (plans.stopping (stopping stop) performed).2 late with ⟨past, same⟩ | ⟨stands, notified⟩
    · rw [same] at member
      exact calm.awake stop past worker member
    · rw [notified] at member
      obtain ⟨before, inside, rfl⟩ := List.mem_map.mp member
      obtain ⟨id, present⟩ := List.mem_iff_getElem?.mp inside
      -- The controlling thread holds the mutex here, so that no worker is on its way to sleep.
      have awake : before.place ≠ .sleep := by
        intro sleeps
        have owned := guarded.worker id before present (by rw [sleeps]; rfl)
        rw [guarded.controller (by rw [stands]; rfl)] at owned
        cases owned
      unfold Worker.notified
      split
      · simp
      · next other => exact ⟨awake, other⟩

theorem Calm.works (calm : pool.Calm) (registered : pool.Registered) (present : pool.workers[id]? = some worker)
    (works : Works pool id worker next) : next.Calm := by
  obtain ⟨ids, worked⟩ := registered.worked present works
  have called := worked.stopCalled
  constructor
  · intro stop
    rw [worked.paused]
    exact calm.unpaused (called ▸ stop)
  · intro stop late other member
    rw [called] at stop
    have past : pool.controller.isEarly = false := by
      rcases worked.controller with same | ⟨before, _⟩
      · exact same ▸ late
      · rw [before]
        rfl
    have before := calm.awake stop past
    have unpaused := calm.unpaused stop
    have here := before worker (List.mem_of_getElem? present)
    cases works with
    | delete stands free =>
        rw [(registered.deleteTask_eq present stands).2] at member
        cases List.mem_or_eq_of_mem_set member with
        | inl inside => exact before other inside
        | inr same => simp [same]
    | sleep stands => exact absurd stands here.1
    | test stands =>
        cases List.mem_or_eq_of_mem_set member with
        | inl inside => exact before other inside
        | inr same =>
            rw [same]
            split <;> simp
    | register | dequeue | user | lock | checkPaused | unlock | spurious =>
        cases List.mem_or_eq_of_mem_set member with
        | inl inside => exact before other inside
        | inr same => simp [same, unpaused]

theorem Calm.step (calm : pool.Calm) (counted : pool.Counted numOfThreads) (sound : pool.Sound)
    {action : Action Job} (domain : pool.UntilStop action) (condition : pool.StopUnpaused action)
    (moves : PoolMoves pool action next) : next.Calm := by
  cases moves with
  | call operation stands =>
      have early := domain.2
      cases operation with
      | stop => exact ⟨fun _ => condition rfl, fun _ late => by cases late⟩
      | addTask | setThreadNumber | pause | resume =>
          constructor
          · intro stop
            change pool.stopCalled = true at stop
            simp [early] at stop
          · intro stop
            change pool.stopCalled = true at stop
            simp [early] at stop
  | control effect after base plans performed => exact calm.control counted sound.guarded plans performed
  | stopTimeOut stands =>
      refine ⟨calm.unpaused, fun stop _ => calm.awake stop ?_⟩
      cases stands with
      | inl stands | inr stands => simp [stands, Controller.isEarly]
  | stopSpurious stands =>
      refine ⟨calm.unpaused, fun stop _ => calm.awake stop ?_⟩
      simp [stands, Controller.isEarly]
  | work id place worker next present works | spurious id worker next present works =>
      exact calm.works sound.registered present works

/-- A blocked live worker is not inside a `DeleteTask`, so that the queue still holds one for it. -/
theorem Calm.not_stuck (calm : pool.Calm) (counted : pool.Counted numOfThreads) (registered : pool.Registered) :
    ¬ pool.Stuck := by
  rintro ⟨⟨stop, ordered⟩, ⟨alive, inside, lives⟩, blocked⟩
  have late : pool.controller.isEarly = false := by
    cases stands : pool.controller <;> simp_all [Controller.isEarly, Controller.hasOrdered]
  have atDequeue : ∀ worker ∈ pool.workers, worker.iAmAlive → worker.place = .dequeue ∧ pool.mWq = [] := by
    intro worker member living
    cases blocked worker member living with
    | inl waits => exact absurd waits (calm.awake stop late worker member).2
    | inr dequeues => exact dequeues
  have executing : pool.workers.countP Worker.deletes = 0 := by
    apply List.countP_eq_zero.mpr
    intro worker member deletes
    obtain ⟨id, present⟩ := List.mem_iff_getElem?.mp member
    have fits := registered.fits id worker present
    cases living : worker.iAmAlive with
    | true => simp [Worker.deletes, (atDequeue worker member living).1] at deletes
    | false =>
        cases fits.retired (fits.dead.mp living) with
        | inl stands | inr stands => simp [Worker.deletes, stands] at deletes
  have deletes := counted.deletes
  rw [outstanding, executing, (atDequeue alive inside lives).2, Pool.ordered, if_pos stop] at deletes
  have full : pool.controller.ordered numOfThreads = numOfThreads := by
    cases stands : pool.controller <;> simp_all [Controller.ordered, Controller.hasOrdered]
  have living : 0 < pool.live := List.countP_pos_iff.mpr ⟨alive, inside, lives⟩
  have count := registered.count
  have length := counted.length
  rw [full, List.countP_nil] at deletes
  omega

end Pool

/-- A run that calls `Stop` unpaused never gets stuck, and `Stop` leaves in time only when no worker lives. -/
theorem not_stuck_of_stopUnpaused {actions : List (Action Job)} {final : Pool Job}
    (once : Meets poolStep Pool.UntilStop (.initial numOfThreads) actions)
    (unpaused : Meets poolStep Pool.StopUnpaused (.initial numOfThreads) actions)
    (reached : run poolStep (.initial numOfThreads) actions = some final) :
    ¬ final.Stuck ∧ (final.controller = .stopLeave false → ∀ worker ∈ final.workers, worker.iAmAlive = false) := by
  have invariant : final.Stopping numOfThreads ∧ final.Calm := by
    apply run_invariant_of_meets (fun pool => pool.Stopping numOfThreads ∧ pool.Calm) ?_ ?_
      (once.and unpaused) reached
    · intro pool action next before condition stepped
      have moves := poolMoves_of_poolStep stepped
      refine ⟨before.1.step condition.1 moves, ?_⟩
      exact before.2.step before.1.counted before.1.sound condition.1 condition.2 moves
    · refine ⟨Pool.stopping_initial numOfThreads, ?_, ?_⟩
      · intro stop
        cases stop
      · intro stop
        cases stop
  obtain ⟨⟨sound, counted, drained⟩, calm⟩ := invariant
  refine ⟨calm.not_stuck counted sound.registered, ?_⟩
  intro leaves
  exact counted.dead sound.registered (drained.none leaves)

end

instance decidableStopUnpaused {Job : Type*} [DecidableEq Job] (pool : Pool Job) (action : Action Job) :
    Decidable (pool.StopUnpaused action) :=
  inferInstanceAs (Decidable (action = .call .stop → pool.mIsPaused = false))

instance decidableStuck {Job : Type*} [DecidableEq Job] (pool : Pool Job) : Decidable pool.Stuck :=
  inferInstanceAs (Decidable ((pool.stopCalled ∧ pool.controller.hasOrdered) ∧
    (∃ worker ∈ pool.workers, worker.iAmAlive) ∧
      ∀ worker ∈ pool.workers, worker.iAmAlive → worker.place = .waiting ∨ worker.place = .dequeue ∧ pool.mWq = []))

/-- The only worker sleeps in a pause that is resumed, and then `Stop` broadcasts and waits. -/
def stopAfterResume : List (Action Nat) :=
  [.call .pause, .control, .control, .control, .work 0 0, .work 0 0, .work 0 0, .work 0 0, .work 0 0, .work 0 0,
    .call .resume, .control, .control, .call .stop, .control, .control, .control, .control, .control]

/-- This run does not get stuck. -/
theorem stopAfterResume_not_stuck : ∃ final, run poolStep (.initial 1) stopAfterResume = some final ∧
    ¬ final.Stuck ∧ (final.controller = .stopLeave false → ∀ worker ∈ final.workers, worker.iAmAlive = false) := by
  obtain ⟨final, reached⟩ : ∃ final, run poolStep (.initial 1) stopAfterResume = some final :=
    Option.isSome_iff_exists.mp (by decide)
  exact ⟨final, reached, not_stuck_of_stopUnpaused (by decide) (by decide) reached⟩

/-- The only worker sleeps in a pause, `Stop` wakes it, and it sleeps again. -/
def stopWhilePaused : List (Action Nat) :=
  [.call .pause, .control, .control, .control, .work 0 0, .work 0 0, .work 0 0, .work 0 0, .work 0 0, .work 0 0,
    .call .stop, .control, .control, .control, .control, .control, .work 0 0, .work 0 0, .work 0 0]

/-- The worker waits with the flag set, its `DeleteTask` is queued, and `Stop` waits for it. -/
theorem stopWhilePaused_stuck : ∃ final, run poolStep (.initial 1) stopWhilePaused = some final ∧
    Meets poolStep Pool.UntilStop (.initial 1) stopWhilePaused ∧ final.Stuck ∧ final.mIsPaused = true ∧
      final.controller = .stopWaiting ∧ final.mWq = [.delete] := by
  decide

end DistributedNas.ThreadPool
