import DistributedNas.ThreadPool.Pausing

/-
This file proves when `Resume` wakes each worker that waits in `LockCV`.
`Resume` clears the flag and notifies without the mutex, so that both may fall between a worker's test and its wait.
-/

namespace DistributedNas.ThreadPool
open Library

section
variable {Job : Type*}

/-- These operations change the flag. -/
def Operation.switches : Operation Job → Bool
  | .pause | .resume => true
  | _ => false

/-- `Resume` has returned, and `Pause` was not called again. -/
def Pool.Resumed (pool : Pool Job) : Prop :=
  pool.calls.find? Operation.switches = some .resume ∧ ¬ pool.controller.Clears

/-- After `Resume` a worker still waits without a notification. -/
def Pool.Lost (pool : Pool Job) : Prop := pool.Resumed ∧ ∃ worker ∈ pool.workers, worker.place = .waiting

/-- `Resume` notifies while no worker stands between its test of the flag and its wait. -/
def Pool.NotifiesAll (pool : Pool Job) (action : Action Job) : Prop :=
  action = .control → pool.controller = .resumeNotify → ∀ worker ∈ pool.workers, worker.place ≠ .sleep

/-- A worker waits in `LockCV`, or it is about to. -/
def Worker.Dozes (worker : Worker Job) : Prop := worker.place = .sleep ∨ worker.place = .waiting

/-- No worker waits while the flag is clear, and the flag is clear after `Resume`. -/
structure Pool.Awake (pool : Pool Job) : Prop where
  registered : pool.Registered
  pausing : pool.controller = .pauseSet → pool.calls.find? Operation.switches = some .pause
  clear : pool.calls.find? Operation.switches = some .resume → pool.controller ≠ .resumeClear →
    pool.mIsPaused = false
  awake : pool.mIsPaused = false → pool.controller ≠ .resumeNotify → ∀ worker ∈ pool.workers, ¬ worker.Dozes

variable {pool next base : Pool Job} {id numOfThreads : Nat} {worker : Worker Job}
  {effect : Effect Job} {after : Controller Job} {action : Action Job}

theorem Worker.dozes_of_notified (dozes : worker.notified.Dozes) : worker.place = .sleep := by
  unfold notified at dozes
  split at dozes
  · next stands => simp [Dozes] at dozes
  · next other =>
      cases dozes with
      | inl sleeps => exact sleeps
      | inr waits => exact absurd waits other

/-- No worker begins to doze while the flag is clear. -/
theorem Pool.Registered.works_of_awake (registered : pool.Registered) (present : pool.workers[id]? = some worker)
    (works : Works pool id worker next) (unpaused : pool.mIsPaused = false) (awake : ¬ worker.Dozes) :
    ∃ new : Worker Job, next.workers = pool.workers.set id new ∧ ¬ new.Dozes := by
  cases works with
  | delete stands free =>
      rw [(registered.deleteTask_eq present stands).2]
      exact ⟨_, rfl, by simp [Worker.Dozes]⟩
  | sleep stands => exact absurd (Or.inl stands) awake
  | spurious stands => exact absurd (Or.inr stands) awake
  | checkPaused stands => exact ⟨_, rfl, by simp [Worker.Dozes, unpaused]⟩
  | test stands =>
      refine ⟨_, rfl, ?_⟩
      cases worker.iAmAlive <;> simp [Worker.Dozes]
  | register | dequeue | user | lock | unlock => exact ⟨_, rfl, by simp [Worker.Dozes]⟩

namespace Pool

theorem Awake.works (awake : pool.Awake) (present : pool.workers[id]? = some worker)
    (works : Works pool id worker next) : next.Awake := by
  obtain ⟨ids, worked⟩ := awake.registered.worked present works
  have stays : ∀ controller : Controller Job, controller ≠ .stopWoken false →
      next.controller = controller → pool.controller = controller := by
    intro controller other stands
    rcases worked.controller with same | ⟨_, woken⟩
    · rw [← same, stands]
    · exact absurd (stands.symm.trans woken) other
  have leaves : ∀ controller : Controller Job, controller ≠ .stopWaiting →
      pool.controller = controller → next.controller = controller := by
    intro controller other stands
    rcases worked.controller with same | ⟨waits, _⟩
    · rw [same, stands]
    · exact absurd (stands.symm.trans waits) other
  constructor
  · exact awake.registered.works present works
  · intro stands
    rw [worked.calls]
    exact awake.pausing (stays .pauseSet (by simp) stands)
  · intro last other
    rw [worked.calls] at last
    rw [worked.paused]
    exact awake.clear last fun stands => other (leaves .resumeClear (by simp) stands)
  · intro unpaused other
    rw [worked.paused] at unpaused
    have before := awake.awake unpaused fun stands => other (leaves .resumeNotify (by simp) stands)
    obtain ⟨new, workers, up⟩ := awake.registered.works_of_awake present works unpaused
      (before worker (List.mem_of_getElem? present))
    intro found member
    rw [workers] at member
    cases List.mem_or_eq_of_mem_set member with
    | inl inside => exact before found inside
    | inr same => rwa [same]

/-- A worker that dozes after an effect was about to wait, or it dozed and was not notified. -/
theorem dozes_of_perform (performed : pool.perform effect = some base) (member : worker ∈ base.workers)
    (dozes : worker.Dozes) : ∃ old ∈ pool.workers, old.Dozes ∧ (effect = .notifyAll → old.place = .sleep) := by
  rcases workers_of_perform performed with ⟨other, -, same⟩ | ⟨-, notified⟩ | ⟨rfl, created⟩
  · rw [same] at member
    exact ⟨worker, member, dozes, fun all => absurd all other⟩
  · rw [notified] at member
    obtain ⟨old, inside, rfl⟩ := List.mem_map.mp member
    have sleeps := Worker.dozes_of_notified dozes
    exact ⟨old, inside, Or.inl sleeps, fun _ => sleeps⟩
  · rw [created] at member
    cases List.mem_append.mp member with
    | inl inside => exact ⟨worker, inside, dozes, by simp⟩
    | inr new =>
        rw [List.mem_singleton.mp new] at dozes
        simp [Worker.Dozes, Worker.new] at dozes

theorem Awake.control (awake : pool.Awake) (condition : pool.NotifiesAll .control)
    (plans : Plans pool effect after) (performed : pool.perform effect = some base) :
    Awake { base with controller := after } := by
  have calls := (performed_of_perform performed).calls
  have flag := mIsPaused_of_perform performed
  constructor
  · exact (awake.registered.perform performed).frame rfl rfl rfl
  · intro stands
    change after = .pauseSet at stands
    cases plans <;> cases stands
  · intro last _
    change base.calls.find? Operation.switches = some .resume at last
    rw [calls] at last
    show base.mIsPaused = false
    rw [flag]
    cases plans with
    | pauseSet stands =>
        have pause := awake.pausing stands
        rw [last] at pause
        cases pause
    | resumeClear stands => rfl
    | _ => exact awake.clear last (by simp [*])
  · intro unpaused other worker member dozes
    change base.mIsPaused = false at unpaused
    rw [flag] at unpaused
    obtain ⟨old, inside, dozed, unnotified⟩ := dozes_of_perform performed member dozes
    cases plans with
    | pauseSet stands => cases unpaused
    | resumeClear stands => exact other rfl
    | resumeNotify stands => exact condition rfl stands old inside (unnotified rfl)
    | _ => exact awake.awake unpaused (by simp [*]) old inside dozed

theorem Awake.step (awake : pool.Awake) (condition : pool.NotifiesAll action)
    (moves : PoolMoves pool action next) : next.Awake := by
  cases moves with
  | call operation stands =>
      have unpaused := awake.clear
      have before := awake.awake
      rw [stands] at unpaused before
      refine ⟨awake.registered.frame rfl rfl rfl, ?_, ?_, fun flag _ => before flag (by simp)⟩
      · intro begins
        cases operation with
        | pause => rfl
        | addTask | setThreadNumber | resume | stop => cases begins
      · intro last other
        cases operation with
        | pause => cases last
        | resume => exact absurd rfl other
        | addTask | setThreadNumber | stop => exact unpaused last (by simp)
  | control effect after base plans performed => exact awake.control condition plans performed
  | stopTimeOut stands =>
      refine ⟨awake.registered.frame rfl rfl rfl, by simp, fun last _ => awake.clear last ?_,
        fun flag _ => awake.awake flag ?_⟩
      · cases stands with
        | inl stands | inr stands => simp [stands]
      · cases stands with
        | inl stands | inr stands => simp [stands]
  | stopSpurious stands =>
      refine ⟨awake.registered.frame rfl rfl rfl, by simp, fun last _ => awake.clear last ?_,
        fun flag _ => awake.awake flag ?_⟩
      · simp [stands]
      · simp [stands]
  | work id place worker next present works | spurious id worker next present works =>
      exact awake.works present works

theorem awake_initial (numOfThreads : Nat) : (initial numOfThreads : Pool Job).Awake where
  registered := registered_initial numOfThreads
  pausing := by
    intro stands
    cases stands
  clear := fun _ _ => rfl
  awake := by
    intro _ _ worker member
    rw [List.eq_of_mem_replicate member]
    simp [Worker.Dozes, Worker.new]

end Pool

/-- In each run whose `Resume` calls notify all workers no `Resume` is lost. -/
theorem not_lost_of_notifiesAll {actions : List (Action Job)} {final : Pool Job}
    (notifies : Meets poolStep Pool.NotifiesAll (.initial numOfThreads) actions)
    (reached : run poolStep (.initial numOfThreads) actions = some final) : ¬ final.Lost := by
  have awake : final.Awake := run_invariant_of_meets Pool.Awake
    (fun _ _ _ before condition stepped => before.step condition (poolMoves_of_poolStep stepped))
    (Pool.awake_initial numOfThreads) notifies reached
  rintro ⟨⟨last, past⟩, worker, member, waits⟩
  have unpaused := awake.clear last fun stands => past (Or.inl stands)
  exact awake.awake unpaused (fun stands => past (Or.inr stands)) worker member (Or.inr waits)

end

instance decidableNotifiesAll {Job : Type*} [DecidableEq Job] (pool : Pool Job) (action : Action Job) :
    Decidable (pool.NotifiesAll action) :=
  inferInstanceAs (Decidable (action = .control → pool.controller = .resumeNotify →
    ∀ worker ∈ pool.workers, worker.place ≠ .sleep))

/-- The only worker waits in a pause before `Resume` is called. -/
def resumeAfterWait : List (Action Nat) :=
  [.work 0 0, .work 0 0, .call .pause, .control, .control, .control, .work 0 0, .work 0 0, .work 0 0, .work 0 0,
    .call .resume, .control, .control]

/-- The worker is woken in this run. -/
theorem resumeAfterWait_wakes : ∃ final, run poolStep (.initial 1) resumeAfterWait = some final ∧
    final.workers = [⟨true, .woken⟩] ∧ ¬ final.Lost := by
  obtain ⟨final, reached, workers⟩ : ∃ final, run poolStep (.initial 1) resumeAfterWait = some final ∧
      final.workers = [⟨true, .woken⟩] := by decide
  exact ⟨final, reached, workers, not_lost_of_notifiesAll (by decide) reached⟩

/-- `Resume` runs between the test and the wait of the only worker. -/
def resumeBeforeWait : List (Action Nat) :=
  [.work 0 0, .work 0 0, .call .pause, .control, .control, .control, .work 0 0, .work 0 0, .work 0 0,
    .call .resume, .control, .control, .work 0 0]

/-- The worker waits with a clear flag after this run, and no notification is on its way. -/
theorem resumeBeforeWait_lost : ∃ final, run poolStep (.initial 1) resumeBeforeWait = some final ∧
    final.mIsPaused = false ∧ final.controller = .idle ∧ final.workers = [⟨true, .waiting⟩] ∧ final.Lost := by
  obtain ⟨final, reached, flag, idle, workers, calls⟩ :
      ∃ final, run poolStep (.initial 1) resumeBeforeWait = some final ∧ final.mIsPaused = false ∧
        final.controller = .idle ∧ final.workers = [⟨true, .waiting⟩] ∧ final.calls = [.resume, .pause] := by
    decide
  refine ⟨final, reached, flag, idle, workers, ⟨?_, ?_⟩, ?_⟩
  · rw [calls]
    rfl
  · simp [idle, Controller.Clears]
  · exact ⟨⟨true, .waiting⟩, by simp [workers], rfl⟩

end DistributedNas.ThreadPool
