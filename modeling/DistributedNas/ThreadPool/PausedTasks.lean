import DistributedNas.ThreadPool.Pausing

/-
This file proves when a task that is added to a paused pool waits for `Resume`.
A `PauseTask` has a larger number than each task of the user, and a worker that is not yet held takes the smallest one.
-/

namespace DistributedNas.ThreadPool
open Library
open Engine (Priority)

section
variable {Job : Type*}

/-- An observer notes the tasks that were added since `Pause` returned, until `Resume` begins. -/
structure Watch (Job : Type*) where
  pool : Pool Job
  since : Option (List (Job × Priority))

def Watch.initial (numOfThreads : Nat) : Watch Job := ⟨.initial numOfThreads, none⟩

/-- This function gives the notes of the observer after a step. -/
def Watch.noted (watch : Watch Job) : Action Job → Option (List (Job × Priority))
  | .call .resume => none
  | .control =>
      match watch.pool.controller with
      | .pauseLoop i => if i < watch.pool.mNumOfThreads then watch.since else some (watch.since.getD [])
      | .addTask job priority => watch.since.map ((job, priority) :: ·)
      | _ => watch.since
  | _ => watch.since

/-- The observer sees each step of the pool. -/
def watchStep (watch : Watch Job) (action : Action Job) : Option (Watch Job) :=
  (poolStep watch.pool action).map fun next => ⟨next, watch.noted action⟩

/-- These tasks of the user are queued. -/
def Pool.queued (pool : Pool Job) : Multiset (Job × Priority) :=
  (pool.mWq.flatMap Task.jobs : List (Job × Priority))

/-- Each task that was added since `Pause` returned is still queued. -/
def Watch.Waits (watch : Watch Job) : Prop :=
  ∀ since, watch.since = some since → (since : Multiset (Job × Priority)) ≤ watch.pool.queued

/-- A worker at large can take another task before the next `Resume`. -/
def Worker.atLarge (worker : Worker Job) : Bool := worker.iAmAlive && !worker.isHeld && !worker.deletes

/-- After `Pause` a task is added only when no worker is at large, and a thread is created only before that. -/
def Watch.AddsHeld (watch : Watch Job) (action : Action Job) : Prop :=
  action = .control → ∀ since, watch.since = some since →
    match watch.pool.controller with
    | .addTask _ _ => ∀ worker ∈ watch.pool.workers, worker.atLarge = false
    | .resizeCreate (_ + 1) => since = []
    | _ => True

/-- An effect may enqueue a task of the user. -/
def Effect.jobs : Effect Job → List (Job × Priority)
  | .enqueue task => task.jobs
  | _ => []

variable {pool next base : Pool Job} {id numOfThreads : Nat} {worker : Worker Job}
  {effect : Effect Job} {after : Controller Job} {action : Action Job} {watch final : Watch Job}

@[simp] theorem Worker.notified_atLarge : worker.notified.atLarge = worker.atLarge := by
  simp [atLarge]

theorem Pool.queued_of_perform (performed : pool.perform effect = some base) :
    base.queued = effect.jobs + pool.queued := by
  cases effect with
  | lock =>
      obtain ⟨_, rfl⟩ := perform_lock performed
      exact (zero_add pool.queued).symm
  | enqueue task =>
      obtain rfl := Option.some.inj performed
      rfl
  | nothing | setPaused | notifyAll | unlock | createThread | count =>
      obtain rfl := Option.some.inj performed
      exact (zero_add pool.queued).symm

/-- A worker that is not at large takes no task, and it does not get at large while the flag is set. -/
theorem Pool.Registered.works_of_settled (registered : pool.Registered)
    (present : pool.workers[id]? = some worker) (works : Works pool id worker next)
    (paused : pool.mIsPaused = true) (settled : worker.atLarge = false) :
    next.mWq = pool.mWq ∧ ∃ new : Worker Job, next.workers = pool.workers.set id new ∧ new.atLarge = false := by
  cases alive : worker.iAmAlive with
  | false =>
      have gone := (registered.fits id worker present).dead.mp alive
      obtain ⟨workers, _⟩ := registered.works_of_dead present works alive
      exact ⟨registered.mWq_of_deleted present gone works, _, workers, rfl⟩
  | true =>
      cases held : worker.isHeld with
      | true =>
          obtain ⟨place, workers, stays, queue, _⟩ := works.isHeld paused held
          exact ⟨queue, _, workers, by simp [Worker.atLarge, stays]⟩
      | false =>
          have deletes : worker.deletes = true := by simpa [Worker.atLarge, alive, held] using settled
          cases works with
          | delete stands free =>
              rw [(registered.deleteTask_eq present stands).2]
              exact ⟨rfl, _, rfl, rfl⟩
          | lock stands =>
              cases stands with
              | inl stands | inr stands => simp [Worker.deletes, stands, Task.isDelete] at deletes
          | register stands | test stands | dequeue place task rest stands | user job priority stands
          | checkPaused stands | sleep stands | unlock stands | spurious stands =>
              simp [Worker.deletes, stands, Task.isDelete] at deletes

/-- While tasks wait since `Pause`, the flag is set, and no worker is at large. -/
structure Watch.Steady (watch : Watch Job) : Prop where
  registered : watch.pool.Registered
  pausing : ∀ i, watch.pool.controller = .pauseLoop i → watch.pool.mIsPaused = true
  paused : ∀ since, watch.since = some since → watch.pool.mIsPaused = true ∧ ¬ watch.pool.controller.Clears
  waits : watch.Waits
  settled : ∀ since, watch.since = some since → since ≠ [] →
    ∀ worker ∈ watch.pool.workers, worker.atLarge = false

namespace Watch

theorem Steady.works (steady : watch.Steady) (present : watch.pool.workers[id]? = some worker)
    (works : Works watch.pool id worker next) : Steady ⟨next, watch.since⟩ := by
  obtain ⟨ids, worked⟩ := steady.registered.worked present works
  have kept : ∀ since, watch.since = some since → since ≠ [] →
      next.mWq = watch.pool.mWq ∧ ∃ new : Worker Job, next.workers = watch.pool.workers.set id new ∧
        new.atLarge = false := by
    intro since noted some
    apply steady.registered.works_of_settled present works (steady.paused since noted).1
    exact steady.settled since noted some worker (List.mem_of_getElem? present)
  constructor
  · exact steady.registered.works present works
  · intro i stands
    change next.controller = .pauseLoop i at stands
    show next.mIsPaused = true
    rw [worked.paused]
    rcases worked.controller with same | ⟨_, woken⟩
    · exact steady.pausing i (same ▸ stands)
    · rw [woken] at stands
      cases stands
  · intro since noted
    obtain ⟨flag, keeps⟩ := steady.paused since noted
    refine ⟨worked.paused.trans flag, ?_⟩
    rcases worked.controller with same | ⟨_, woken⟩
    · exact fun clears => keeps (same ▸ clears)
    · show ¬ next.controller.Clears
      rw [woken]
      simp [Controller.Clears]
  · intro since noted
    by_cases some : since = []
    · rw [some]
      exact Multiset.zero_le _
    · show _ ≤ next.queued
      rw [Pool.queued, (kept since noted some).1]
      exact steady.waits since noted
  · intro since noted some other member
    obtain ⟨_, new, workers, settled⟩ := kept since noted some
    change other ∈ next.workers at member
    rw [workers] at member
    cases List.mem_or_eq_of_mem_set member with
    | inl inside => exact steady.settled since noted some other inside
    | inr same => rw [same, settled]

/-- The flag stays set in each step of an operation other than `Resume`. -/
theorem Steady.paused_of_control (steady : watch.Steady) {since : List (Job × Priority)}
    (noted : watch.since = some since) (plans : Plans watch.pool effect after)
    (performed : watch.pool.perform effect = some base) : base.mIsPaused = true ∧ ¬ after.Clears := by
  obtain ⟨flag, keeps⟩ := steady.paused since noted
  rw [Pool.mIsPaused_of_perform performed]
  cases plans with
  | resumeClear stands => exact absurd (Or.inl stands) keeps
  | resumeNotify stands => exact absurd (Or.inr stands) keeps
  | pauseSet stands => exact ⟨rfl, by simp [Controller.Clears]⟩
  | _ => exact ⟨flag, by simp [Controller.Clears]⟩

/-- A step of an operation notes an added task, opens the notes when `Pause` returns, or leaves them. -/
theorem noted_cases (plans : Plans watch.pool effect after) :
    (∃ job priority, watch.pool.controller = .addTask job priority ∧ effect = .enqueue (.user job priority) ∧
        watch.noted .control = watch.since.map ((job, priority) :: ·)) ∨
      (∃ i, watch.pool.controller = .pauseLoop i ∧ effect = .nothing ∧ after = .idle ∧
        watch.noted .control = some (watch.since.getD [])) ∨
      watch.noted .control = watch.since ∧ effect.jobs = [] ∧
        (effect.created = 0 ∨ ∃ left, watch.pool.controller = .resizeCreate (left + 1)) := by
  cases plans with
  | addTask job priority stands => exact Or.inl ⟨job, priority, stands, rfl, by simp only [noted, stands]⟩
  | pauseEnd i stands done =>
      exact Or.inr (Or.inl ⟨i, stands, rfl, rfl, by simp only [noted, stands, if_neg done]⟩)
  | pauseTask i stands more =>
      exact Or.inr (Or.inr ⟨by simp only [noted, stands, if_pos more], rfl, Or.inl rfl⟩)
  | create left stands => exact Or.inr (Or.inr ⟨by simp only [noted, stands], rfl, Or.inr ⟨_, stands⟩⟩)
  | _ => exact Or.inr (Or.inr ⟨by simp only [noted, *], rfl, Or.inl rfl⟩)

/-- No worker gets at large by an effect that creates no thread. -/
theorem settled_of_perform (settled : ∀ worker ∈ pool.workers, worker.atLarge = false)
    (created : effect.created = 0) (performed : pool.perform effect = some base) :
    ∀ worker ∈ base.workers, worker.atLarge = false := by
  rcases Pool.workers_of_perform performed with ⟨-, -, same⟩ | ⟨-, notified⟩ | ⟨rfl, -⟩
  · rwa [same]
  · rw [notified]
    intro worker member
    obtain ⟨old, there, rfl⟩ := List.mem_map.mp member
    rw [Worker.notified_atLarge]
    exact settled old there
  · cases created

theorem Steady.control (steady : watch.Steady) (condition : watch.AddsHeld .control)
    (plans : Plans watch.pool effect after) (performed : watch.pool.perform effect = some base) :
    Steady ⟨{ base with controller := after }, watch.noted .control⟩ := by
  have queued := Pool.queued_of_perform performed
  have pausing : ∀ i, after = .pauseLoop i → base.mIsPaused = true := by
    intro i stands
    rw [Pool.mIsPaused_of_perform performed]
    cases plans with
    | pauseSet => rfl
    | pauseTask j before => exact steady.pausing j before
    | _ => cases stands
  have registered : Pool.Registered { base with controller := after } :=
    (steady.registered.perform performed).frame rfl rfl rfl
  rcases noted_cases plans with ⟨job, priority, stands, rfl, noted⟩ | ⟨i, stands, rfl, rfl, noted⟩ |
    ⟨noted, jobs, new⟩
  · rw [noted]
    refine ⟨registered, pausing, ?_, ?_, ?_⟩
    · intro since listed
      obtain ⟨old, before, _⟩ := Option.map_eq_some_iff.mp listed
      have flag := steady.paused_of_control before plans performed
      exact flag
    · intro since listed
      obtain ⟨old, before, rfl⟩ := Option.map_eq_some_iff.mp listed
      show _ ≤ base.queued
      rw [queued, ← Multiset.cons_coe]
      exact Multiset.cons_le_cons _ (steady.waits old before)
    · intro since listed _
      obtain ⟨old, before, _⟩ := Option.map_eq_some_iff.mp listed
      have settled := condition rfl old before
      rw [stands] at settled
      have kept := settled_of_perform settled rfl performed
      exact kept
  · obtain rfl := Option.some.inj performed
    rw [noted]
    have listed : ∀ since, some (watch.since.getD []) = some since → since = [] ∨ watch.since = some since := by
      intro since same
      obtain rfl := Option.some.inj same
      cases watch.since with
      | none => exact Or.inl rfl
      | some old => exact Or.inr rfl
    refine ⟨registered, pausing, ?_, ?_, ?_⟩
    · intro since _
      exact ⟨steady.pausing i stands, by simp [Controller.Clears]⟩
    · intro since same
      cases listed since same with
      | inl empty =>
          rw [empty]
          exact Multiset.zero_le _
      | inr before => exact steady.waits since before
    · intro since same some
      cases listed since same with
      | inl empty => exact absurd empty some
      | inr before => exact steady.settled since before some
  · rw [noted]
    refine ⟨registered, pausing, ?_, ?_, ?_⟩
    · intro since before
      have flag := steady.paused_of_control before plans performed
      exact flag
    · intro since before
      show _ ≤ base.queued
      rw [queued, jobs, Multiset.coe_nil, zero_add]
      exact steady.waits since before
    · intro since before some
      cases new with
      | inl created =>
          have kept := settled_of_perform (steady.settled since before some) created performed
          exact kept
      | inr creates =>
          obtain ⟨left, stands⟩ := creates
          have empty := condition rfl since before
          rw [stands] at empty
          exact absurd empty some

/-- A step that only moves the controlling thread keeps the notes right. -/
theorem Steady.moved (steady : watch.Steady) {controller : Controller Job} {calls : List (Operation Job)}
    (keeps : ¬ controller.Clears) (other : ∀ i, controller ≠ .pauseLoop i) :
    Steady ⟨{ watch.pool with controller := controller, calls := calls }, watch.since⟩ where
  registered := steady.registered.frame rfl rfl rfl
  pausing := fun i stands => absurd stands (other i)
  paused := fun since noted => ⟨(steady.paused since noted).1, keeps⟩
  waits := steady.waits
  settled := steady.settled

theorem Steady.step (steady : watch.Steady) (condition : watch.AddsHeld action)
    (stepped : watchStep watch action = some final) : final.Steady := by
  obtain ⟨next, moved, rfl⟩ := Option.map_eq_some_iff.mp stepped
  cases poolMoves_of_poolStep moved with
  | call operation stands =>
      cases operation with
      | resume =>
          refine ⟨steady.registered.frame rfl rfl rfl, ?_, ?_, ?_, ?_⟩
          · intro i stands
            cases stands
          · intro since noted
            cases noted
          · intro since noted
            cases noted
          · intro since noted
            cases noted
      | addTask | setThreadNumber | pause | stop =>
          apply steady.moved
          · simp [Operation.begin, Controller.Clears]
          · simp [Operation.begin]
  | control effect after base plans performed => exact steady.control condition plans performed
  | stopTimeOut stands | stopSpurious stands =>
      apply steady.moved
      · simp [Controller.Clears]
      · simp
  | work id place worker next present works | spurious id worker next present works =>
      exact steady.works present works

theorem steady_initial (numOfThreads : Nat) : (initial numOfThreads : Watch Job).Steady where
  registered := Pool.registered_initial numOfThreads
  pausing := by
    intro i stands
    cases stands
  paused := by
    intro since noted
    cases noted
  waits := by
    intro since noted
    cases noted
  settled := by
    intro since noted
    cases noted

end Watch

/-- In each run that adds tasks to a paused pool only when no worker is at large, these tasks wait for `Resume`. -/
theorem waits_of_addsHeld {actions : List (Action Job)}
    (adds : Meets watchStep Watch.AddsHeld (.initial numOfThreads) actions)
    (reached : run watchStep (.initial numOfThreads) actions = some final) : final.Waits := by
  have steady : final.Steady := run_invariant_of_meets Watch.Steady
    (fun _ _ _ before condition stepped => before.step condition stepped) (Watch.steady_initial numOfThreads)
    adds reached
  exact steady.waits

end

instance decidableAddsHeld {Job : Type*} [DecidableEq Job] (watch : Watch Job) (action : Action Job) :
    Decidable (watch.AddsHeld action) :=
  match same : watch.since, stands : watch.pool.controller with
  | some since, .addTask _ _ =>
      decidable_of_iff (action = .control → ∀ worker ∈ watch.pool.workers, worker.atLarge = false)
        (by simp [Watch.AddsHeld, same, stands])
  | some since, .resizeCreate (_ + 1) =>
      decidable_of_iff (action = .control → since = []) (by simp [Watch.AddsHeld, same, stands])
  | none, _ => isTrue (by simp [Watch.AddsHeld, same])
  | some _, .idle | some _, .pauseSet | some _, .pauseLoop _ | some _, .resumeClear | some _, .resumeNotify
  | some _, .stopLock | some _, .stopBroadcast | some _, .stopLoop _ | some _, .stopTest | some _, .stopWaiting
  | some _, .stopWoken _ | some _, .stopLeave _ | some _, .resizeTest _ | some _, .resizeGrow _
  | some _, .resizePause _ _ | some _, .resizeCreate 0 | some _, .resizeIncrement _ | some _, .resizeShrink _
  | some _, .resizeDelete _ | some _, .resizeDecrement _ => isTrue (by simp [Watch.AddsHeld, stands])

/-- The only worker takes its `PauseTask`, and then a task is added. -/
def addWhileHeld : List (Action Nat) :=
  [.work 0 0, .work 0 0, .call .pause, .control, .control, .control, .work 0 0, .call (.addTask 7 .low), .control,
    .work 0 0, .work 0 0, .work 0 0]

/-- The task waits in this run. -/
theorem addWhileHeld_waits : ∃ final, run watchStep (.initial 1) addWhileHeld = some final ∧
    final.since = some [(7, .low)] ∧ final.Waits := by
  obtain ⟨final, reached, since⟩ : ∃ final, run watchStep (.initial 1) addWhileHeld = some final ∧
      final.since = some [(7, .low)] := by decide
  exact ⟨final, reached, since, waits_of_addsHeld (by decide) reached⟩

/-- A task is added to a paused pool before the only worker has taken its `PauseTask`. -/
def addBeforeHeld : List (Action Nat) :=
  [.work 0 0, .work 0 0, .call .pause, .control, .control, .control, .call (.addTask 7 .low), .control, .work 0 0,
    .work 0 0]

/-- The task is executed, the `PauseTask` stays queued, and `Resume` was not called. -/
theorem addBeforeHeld_executes : ∃ final, run watchStep (.initial 1) addBeforeHeld = some final ∧
    final.since = some [(7, .low)] ∧ final.pool.executed = [(7, .low)] ∧ final.pool.mWq = [.pause] ∧
      final.pool.mIsPaused = true ∧ ¬ final.Waits := by
  obtain ⟨final, reached, since, executed, queue, paused⟩ :
      ∃ final, run watchStep (.initial 1) addBeforeHeld = some final ∧ final.since = some [(7, .low)] ∧
        final.pool.executed = [(7, .low)] ∧ final.pool.mWq = [.pause] ∧ final.pool.mIsPaused = true := by
    decide
  refine ⟨final, reached, since, executed, queue, paused, ?_⟩
  intro waits
  have size := Multiset.card_le_card (waits _ since)
  simp [Pool.queued, queue, Task.jobs] at size

end DistributedNas.ThreadPool
