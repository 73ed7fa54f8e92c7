import DistributedNas.ThreadPool.Deletion

/-
This file proves that `Stop` executes each task that was added before and ends each worker.
-/

namespace DistributedNas.ThreadPool
open Library
open Engine (Priority)

section
variable {Job : Type*}

/-- No call follows `Stop`, and no call changes the size of the pool. -/
def Pool.UntilStop (pool : Pool Job) : Action Job → Prop
  | .call operation => operation.resizes = false ∧ pool.stopCalled = false
  | _ => True

/-- `Stop` is drained when no worker and no task of the user is left, and a deletion never gets lost. -/
structure Pool.Drains (numOfThreads : Nat) (pool : Pool Job) : Prop where
  number : pool.mNumOfThreads = numOfThreads - pool.deleted.length
  once : pool.deleted.Nodup
  awake : ¬ (pool.mNumOfThreads = 0 ∧ pool.controller = .stopWaiting)
  left : pool.controller = .stopLeave false →
    pool.workers.length = numOfThreads ∧ (∀ worker ∈ pool.workers, worker.iAmAlive = false) ∧
      pool.mMap = [] ∧ pool.added.Perm pool.executed

def Controller.isStopping : Controller Job → Bool
  | .stopLock | .stopBroadcast | .stopLoop _ | .stopTest | .stopWaiting | .stopWoken _ | .stopLeave _ => true
  | _ => false

def Controller.resizes : Controller Job → Bool
  | .resizeTest _ | .resizeGrow _ | .resizePause _ _ | .resizeCreate _ | .resizeIncrement _ | .resizeShrink _
  | .resizeDelete _ | .resizeDecrement _ => true
  | _ => false

/-- `Stop` has enqueued this number of `DeleteTask` objects at its present step. -/
def Controller.ordered (numOfThreads : Nat) : Controller Job → Nat
  | .stopLock | .stopBroadcast => 0
  | .stopLoop i => i
  | _ => numOfThreads

def Pool.ordered (numOfThreads : Nat) (pool : Pool Job) : Nat :=
  if pool.stopCalled then pool.controller.ordered numOfThreads else 0

/-- Each `DeleteTask` of the one `Stop` is queued, executing or executed. -/
structure Pool.Counted (numOfThreads : Nat) (pool : Pool Job) : Prop where
  fixed : pool.controller.resizes = false
  stopping : pool.controller.isStopping → pool.stopCalled
  ended : pool.stopCalled → pool.controller.isStopping ∨ pool.controller = .idle
  length : pool.workers.length = numOfThreads
  number : pool.mNumOfThreads = numOfThreads - pool.deleted.length
  deletes : pool.outstanding + pool.deleted.length = pool.ordered numOfThreads
  within : ∀ i, pool.controller = .stopLoop i → i ≤ numOfThreads ∧ pool.deleted = []

variable {pool next base : Pool Job} {id numOfThreads : Nat} {worker : Worker Job}
  {effect : Effect Job} {after : Controller Job}

theorem Plans.running (plans : Plans pool effect after) : pool.controller ≠ .idle := by
  cases plans <;> simp [*]

theorem Plans.fixed (plans : Plans pool effect after) (fixed : pool.controller.resizes = false) :
    after.resizes = false ∧ effect.created = 0 ∧ effect.change = 0 ∧
      (after.isStopping = pool.controller.isStopping ∨ after = .idle) := by
  cases plans <;> simp_all [Controller.resizes, Effect.created, Effect.change, Controller.isStopping]

theorem Plans.ordered_of_not (plans : Plans pool effect after) (fixed : pool.controller.resizes = false)
    (other : pool.controller.isStopping = false) : effect.ordered = 0 ∧ after.isStopping = false := by
  cases plans <;> simp_all [Controller.resizes, Effect.ordered, Controller.isStopping, Task.isDelete]

/-- The loop of `Stop` ends after as many rounds as there are threads. -/
theorem Plans.ordered (plans : Plans pool effect after) (stopping : pool.controller.isStopping)
    (loop : ∀ i : Nat, pool.controller = .stopLoop i → i ≤ numOfThreads ∧ pool.mNumOfThreads = numOfThreads) :
    effect.ordered + pool.controller.ordered numOfThreads = after.ordered numOfThreads := by
  cases plans with
  | stopTask i stands more => simp [stands, Controller.ordered, Effect.ordered, Task.isDelete, add_comm]
  | stopTasksEnd i stands done =>
      obtain ⟨within, number⟩ := loop i stands
      simp only [stands, Controller.ordered, Effect.ordered]
      omega
  | stopLock stands | stopBroadcast stands | stopDone stands | stopWait stands | stopRetest stands
  | stopGiveUp stands | stopLeave timedOut stands => simp [stands, Controller.ordered, Effect.ordered]
  | _ => simp_all [Controller.isStopping]

namespace Pool

theorem Counted.control (counted : pool.Counted numOfThreads) (plans : Plans pool effect after)
    (performed : pool.perform effect = some base) : Counted numOfThreads { base with controller := after } := by
  have counts := performed_of_perform performed
  obtain ⟨fixed, created, change, phase⟩ := plans.fixed counted.fixed
  have called := counts.stopCalled
  have number := counted.number
  have deletes := counted.deletes
  have loop : ∀ i : Nat, pool.controller = .stopLoop i →
      i ≤ numOfThreads ∧ pool.mNumOfThreads = numOfThreads := by
    intro i stands
    obtain ⟨bound, none⟩ := counted.within i stands
    rw [none] at number
    exact ⟨bound, by simpa using number⟩
  constructor
  · exact fixed
  · intro stopping
    change base.stopCalled = true
    rw [called]
    cases phase with
    | inl same => exact counted.stopping (same ▸ stopping)
    | inr idle =>
        rw [idle] at stopping
        cases stopping
  · intro stop
    change base.stopCalled = true at stop
    rw [called] at stop
    cases phase with
    | inl same =>
        left
        rw [same]
        cases counted.ended stop with
        | inl stopping => exact stopping
        | inr idle => exact absurd idle plans.running
    | inr idle => exact Or.inr idle
  · change base.workers.length = numOfThreads
    rw [counts.length, created, add_zero, counted.length]
  · change base.mNumOfThreads = numOfThreads - base.deleted.length
    rw [counts.number, change, add_zero, counts.deleted, number]
  · change base.outstanding + base.deleted.length = if base.stopCalled then after.ordered numOfThreads else 0
    rw [called, counts.outstanding, counts.deleted]
    unfold Pool.ordered at deletes
    cases stop : pool.stopCalled with
    | true =>
        rw [stop, if_pos rfl] at deletes
        rw [if_pos rfl]
        cases counted.ended stop with
        | inl stopping =>
            have ordered := plans.ordered stopping loop
            omega
        | inr idle => exact absurd idle plans.running
    | false =>
        have other : pool.controller.isStopping = false := by
          rw [← Bool.not_eq_true]
          intro stopping
          have called := counted.stopping stopping
          rw [stop] at called
          cases called
        have ordered := (plans.ordered_of_not counted.fixed other).1
        rw [stop, if_neg Bool.false_ne_true] at deletes
        rw [if_neg Bool.false_ne_true]
        omega
  · intro i stands
    change after = .stopLoop i at stands
    change i ≤ numOfThreads ∧ base.deleted = []
    rw [counts.deleted]
    cases plans with
    | stopBroadcast before =>
        obtain rfl : 0 = i := Controller.stopLoop.inj stands
        refine ⟨Nat.zero_le _, List.length_eq_zero_iff.mp ?_⟩
        rw [Pool.ordered, if_pos (counted.stopping (by simp [before, Controller.isStopping])), before,
          Controller.ordered] at deletes
        omega
    | stopTask j before more =>
        obtain rfl : j + 1 = i := Controller.stopLoop.inj stands
        have full := (loop j before).2
        exact ⟨by omega, (counted.within j before).2⟩
    | _ => cases stands

theorem Counted.works (counted : pool.Counted numOfThreads) (sound : pool.Sound)
    (present : pool.workers[id]? = some worker) (works : Works pool id worker next) :
    next.Counted numOfThreads := by
  obtain ⟨ids, worked⟩ := sound.registered.worked present works
  have called := worked.stopCalled
  have ordered : next.ordered numOfThreads = pool.ordered numOfThreads := by
    rw [Pool.ordered, Pool.ordered, called]
    rcases worked.controller with same | ⟨before, after⟩
    · rw [same]
    · rw [before, after, Controller.ordered, Controller.ordered] <;> simp
  have size : next.deleted.length = ids.length + pool.deleted.length := by
    rw [worked.deleted, List.length_append]
  constructor
  · rcases worked.controller with same | ⟨_, after⟩
    · rw [same]
      exact counted.fixed
    · rw [after]
      rfl
  · intro stopping
    rw [called]
    rcases worked.controller with same | ⟨before, _⟩
    · exact counted.stopping (same ▸ stopping)
    · exact counted.stopping (by simp [before, Controller.isStopping])
  · intro stop
    rcases worked.controller with same | ⟨_, after⟩
    · rw [same]
      exact counted.ended (called ▸ stop)
    · left
      rw [after]
      rfl
  · rw [worked.length, counted.length]
  · have number := counted.number
    have change := worked.number
    omega
  · have deletes := counted.deletes
    have change := worked.outstanding
    omega
  · intro i stands
    have before : pool.controller = .stopLoop i := by
      rcases worked.controller with same | ⟨_, after⟩
      · rw [← same, stands]
      · rw [after] at stands
        cases stands
    obtain ⟨bound, none⟩ := counted.within i before
    refine ⟨bound, ?_⟩
    have nobody := worked.length_of_holds sound.guarded (by simp [before, Controller.holds])
    rw [worked.deleted, List.length_eq_zero_iff.mp nobody, none, List.append_nil]

theorem Counted.step (counted : pool.Counted numOfThreads) (sound : pool.Sound) {action : Action Job}
    (condition : pool.UntilStop action) (moves : PoolMoves pool action next) : next.Counted numOfThreads := by
  cases moves with
  | call operation stands =>
      obtain ⟨fixed, called⟩ := condition
      have deletes := counted.deletes
      rw [Pool.ordered, called, if_neg Bool.false_ne_true] at deletes
      have begun : Pool.ordered numOfThreads
          { pool with controller := operation.begin, calls := operation :: pool.calls } = 0 := by
        cases operation <;> simp_all [Pool.ordered, stopCalled, Operation.isStop, Operation.begin, Controller.ordered]
      constructor
      · cases operation <;> simp_all [Operation.resizes, Operation.begin, Controller.resizes]
      · cases operation <;> simp [Operation.begin, Controller.isStopping, stopCalled, Operation.isStop]
      · cases operation <;>
          simp_all [Operation.begin, Controller.isStopping, stopCalled, Operation.isStop]
      · exact counted.length
      · exact counted.number
      · rw [begun]
        exact deletes
      · cases operation <;> simp [Operation.begin]
  | control effect after base plans performed => exact counted.control plans performed
  | stopTimeOut stands =>
      have same : pool.controller.ordered numOfThreads = numOfThreads ∧ pool.controller.isStopping := by
        cases stands with
        | inl stands | inr stands => simp [stands, Controller.ordered, Controller.isStopping]
      have deletes := counted.deletes
      rw [Pool.ordered, same.1] at deletes
      exact ⟨rfl, fun _ => counted.stopping same.2, fun _ => Or.inl rfl, counted.length, counted.number, deletes,
        by simp⟩
  | stopSpurious stands =>
      have deletes := counted.deletes
      rw [Pool.ordered, stands] at deletes
      exact ⟨rfl, fun _ => counted.stopping (by rw [stands]; rfl), fun _ => Or.inl rfl, counted.length,
        counted.number, deletes, by simp⟩
  | work id place worker next present works | spurious id worker next present works =>
      exact counted.works sound present works

theorem counted_initial (numOfThreads : Nat) : (initial numOfThreads : Pool Job).Counted numOfThreads := by
  constructor <;> simp [initial, Controller.resizes, Controller.isStopping, stopCalled, Pool.ordered, outstanding,
    List.countP_replicate, Worker.deletes, Worker.new]

/-- A `DeleteTask` is taken only when nothing else is queued, and `Stop` waits only for live workers. -/
structure Drained (pool : Pool Job) : Prop where
  last : 0 < pool.workers.countP Worker.deletes ∨ pool.deleted ≠ [] → ∀ task ∈ pool.mWq, task.isDelete
  awake : pool.controller = .stopWaiting → pool.mNumOfThreads ≠ 0
  none : pool.controller = .stopLeave false → pool.mNumOfThreads = 0

/-- A `DeleteTask` has the largest number, so that it is on top only of other `DeleteTask` objects. -/
theorem isDelete_of_isTopItem {queue : List (Task Job)} (top : IsTopItem compareFunctor queue .delete) :
    ∀ task ∈ queue, task.isDelete := by
  intro task member
  have least := top.2 task member
  cases task with
  | user job priority => cases priority <;> simp [compareFunctor, Task.priority, Priority.toNat] at least
  | pause => simp [compareFunctor, Task.priority] at least
  | delete => rfl

/-- Nothing but a `DeleteTask` is added once `Stop` was called. -/
theorem Counted.first_of_enqueue (counted : pool.Counted numOfThreads) {task : Task Job}
    (plans : Plans pool (.enqueue task) after) (other : task.isDelete = false) :
    pool.workers.countP Worker.deletes = 0 ∧ pool.deleted = [] := by
  have running : pool.controller.isStopping = false ∧ pool.controller ≠ .idle := by
    have fixed := counted.fixed
    cases plans with
    | addTask job priority stands | pauseTask i stands more => simp [stands, Controller.isStopping]
    | growPauseTask diff left stands => simp [stands, Controller.resizes] at fixed
    | stopTask | delete => cases other
  have early : pool.stopCalled = false := by
    rw [← Bool.not_eq_true]
    intro stop
    cases counted.ended stop with
    | inl stopping => simp [running.1] at stopping
    | inr idle => exact running.2 idle
  have deletes := counted.deletes
  rw [ordered, early, if_neg Bool.false_ne_true, outstanding] at deletes
  exact ⟨by omega, List.length_eq_zero_iff.mp (by omega)⟩

theorem Drained.control (drained : pool.Drained) (counted : pool.Counted numOfThreads)
    (plans : Plans pool effect after) (performed : pool.perform effect = some base) :
    Drained { base with controller := after } := by
  have counts := performed_of_perform performed
  have number : base.mNumOfThreads = pool.mNumOfThreads := by
    rw [counts.number, (plans.fixed counted.fixed).2.2.1, add_zero]
  constructor
  · change 0 < base.workers.countP Worker.deletes ∨ base.deleted ≠ [] → ∀ task ∈ base.mWq, task.isDelete
    rw [counts.executing, counts.deleted]
    intro taken task member
    cases effect with
    | enqueue new =>
        obtain rfl := Option.some.inj performed
        cases List.mem_cons.mp member with
        | inr before => exact drained.last taken task before
        | inl same =>
            rw [same, ← Bool.not_eq_false]
            intro other
            obtain ⟨none, nobody⟩ := counted.first_of_enqueue plans other
            cases taken with
            | inl some => omega
            | inr some => exact some nobody
    | lock =>
        obtain ⟨_, rfl⟩ := perform_lock performed
        exact drained.last taken task member
    | nothing | setPaused | notifyAll | unlock | createThread | count =>
        obtain rfl := Option.some.inj performed
        exact drained.last taken task member
  · intro waits
    change after = .stopWaiting at waits
    change base.mNumOfThreads ≠ 0
    rw [number]
    cases plans with
    | stopWait stands some => exact some
    | _ => cases waits
  · intro leaves
    change after = .stopLeave false at leaves
    change base.mNumOfThreads = 0
    rw [number]
    cases plans with
    | stopDone stands none => exact none
    | _ => cases leaves

/-- A step of a worker that takes no task keeps what is queued behind the `DeleteTask` objects. -/
theorem Drained.last_of_set (drained : pool.Drained) (present : pool.workers[id]? = some worker)
    {new : Worker Job} (workers : next.workers = pool.workers.set id new) (idle : new.deletes = false)
    (queue : next.mWq = pool.mWq) (deleted : next.deleted = pool.deleted ∨ worker.deletes) :
    0 < next.workers.countP Worker.deletes ∨ next.deleted ≠ [] → ∀ task ∈ next.mWq, task.isDelete := by
  intro taken
  rw [queue]
  apply drained.last
  have executing := countP_set_add Worker.deletes present new
  rw [← workers, idle, Bool.toNat_false] at executing
  cases deleted with
  | inl same =>
      rw [same] at taken
      cases taken with
      | inl some => exact Or.inl (by omega)
      | inr some => exact Or.inr some
  | inr took => exact Or.inl (countP_pos_of_getElem? present took)

theorem Drained.last_of_works (drained : pool.Drained) (registered : pool.Registered)
    (present : pool.workers[id]? = some worker) (works : Works pool id worker next) :
    0 < next.workers.countP Worker.deletes ∨ next.deleted ≠ [] → ∀ task ∈ next.mWq, task.isDelete := by
  cases works with
  | register stands | user job priority stands | sleep stands | unlock stands | spurious stands
  | lock stands free => exact drained.last_of_set present rfl rfl rfl (Or.inl rfl)
  | test stands | checkPaused stands =>
      refine drained.last_of_set present rfl ?_ rfl (Or.inl rfl)
      split <;> simp [Worker.deletes]
  | delete stands free =>
      rw [(registered.deleteTask_eq present stands).2]
      exact drained.last_of_set present rfl rfl rfl (Or.inr (by simp [Worker.deletes, stands, Task.isDelete]))
  | dequeue place task rest stands popped =>
      intro taken other member
      obtain ⟨top, same⟩ := popTop_eq_some popped
      have before : other ∈ pool.mWq := same.mem_iff.mpr (List.mem_cons_of_mem task member)
      cases last : task.isDelete with
      | true =>
          obtain rfl : task = .delete := by cases task <;> simp_all [Task.isDelete]
          exact isDelete_of_isTopItem top other before
      | false =>
          have executing := countP_set_add Worker.deletes present ⟨worker.iAmAlive, .execute task⟩
          simp only [Worker.deletes, stands, last, Bool.toNat_false, add_zero] at executing
          refine absurd (drained.last ?_ task top.1) (by simp [last])
          exact taken.imp_left fun some => executing ▸ some

theorem Drained.step (drained : pool.Drained) (sound : pool.Sound) (counted : pool.Counted numOfThreads)
    {action : Action Job} (moves : PoolMoves pool action next) : next.Drained := by
  cases moves with
  | call operation stands =>
      refine ⟨drained.last, ?_, ?_⟩
      · cases operation <;> simp [Operation.begin]
      · cases operation <;> simp [Operation.begin]
  | control effect after base plans performed => exact drained.control counted plans performed
  | stopTimeOut stands | stopSpurious stands => exact ⟨drained.last, by simp, by simp⟩
  | work id place worker next present works | spurious id worker next present works =>
      obtain ⟨ids, worked⟩ := sound.registered.worked present works
      have number := worked.number
      refine ⟨drained.last_of_works sound.registered present works, ?_, ?_⟩
      · intro waits
        rw [worked.awake waits, List.length_nil, Nat.cast_zero, add_zero] at number
        rcases worked.controller with same | ⟨_, woken⟩
        · rw [number]
          exact drained.awake (same ▸ waits)
        · rw [woken] at waits
          cases waits
      · intro leaves
        have before : pool.controller = .stopLeave false := by
          rcases worked.controller with same | ⟨_, woken⟩
          · rw [← same, leaves]
          · rw [woken] at leaves
            cases leaves
        have nobody := worked.length_of_holds sound.guarded (by simp [before, Controller.holds])
        rw [nobody, Nat.cast_zero, add_zero] at number
        rw [number]
        exact drained.none before

theorem drained_initial (numOfThreads : Nat) : (initial numOfThreads : Pool Job).Drained := by
  constructor <;> simp [initial]

/-- When the count is zero, each worker has executed its `DeleteTask`. -/
theorem Counted.dead (counted : pool.Counted numOfThreads) (registered : pool.Registered)
    (none : pool.mNumOfThreads = 0) : ∀ worker ∈ pool.workers, worker.iAmAlive = false := by
  have living : pool.live = 0 := by
    have number := counted.number
    have length := counted.length
    have count := registered.count
    omega
  intro worker member
  simpa using List.countP_eq_zero.mp living worker member

theorem Registered.mMap_of_dead (registered : pool.Registered)
    (dead : ∀ worker ∈ pool.workers, worker.iAmAlive = false) : pool.mMap = [] := by
  apply List.eq_nil_iff_forall_not_mem.mpr
  intro entry inside
  obtain ⟨id, functor⟩ := entry
  obtain ⟨_, ⟨worker, present, _⟩, stays⟩ := (registered.registry.entries id functor).mp inside
  have gone := (registered.fits id worker present).dead.mp (dead worker (List.mem_of_getElem? present))
  exact stays gone

theorem Registered.inHand_of_dead (registered : pool.Registered)
    (dead : ∀ worker ∈ pool.workers, worker.iAmAlive = false) : (pool.workers.map Worker.inHand).sum = 0 := by
  apply List.sum_eq_zero
  intro hand member
  obtain ⟨worker, inside, rfl⟩ := List.mem_map.mp member
  obtain ⟨id, present⟩ := List.mem_iff_getElem?.mp inside
  have fits := registered.fits id worker present
  cases fits.retired (fits.dead.mp (dead worker inside)) with
  | inl stands | inr stands => simp [Worker.inHand, stands]

/-- Each added task was executed when nothing but `DeleteTask` objects is left. -/
theorem Conserved.executed (conserved : pool.Conserved) (registered : pool.Registered)
    (dead : ∀ worker ∈ pool.workers, worker.iAmAlive = false) (last : ∀ task ∈ pool.mWq, task.isDelete) :
    pool.added.Perm pool.executed := by
  have queued : pool.mWq.flatMap Task.jobs = [] := by
    apply List.flatMap_eq_nil_iff.mpr
    intro task member
    cases task with
    | user job priority => cases last _ member
    | pause | delete => rfl
  have moved : (pool.added : Multiset (Job × Priority)) = _ := conserved
  rw [queued, registered.inHand_of_dead dead, Multiset.coe_nil, zero_add, zero_add] at moved
  exact Multiset.coe_eq_coe.mp moved

theorem Drained.drains (drained : pool.Drained) (counted : pool.Counted numOfThreads) (sound : pool.Sound)
    (some : 0 < numOfThreads) : pool.Drains numOfThreads where
  number := counted.number
  once := sound.registered.once
  awake := by
    rintro ⟨none, waits⟩
    exact drained.awake waits none
  left := by
    intro leaves
    have none := drained.none leaves
    have dead := counted.dead sound.registered none
    refine ⟨counted.length, dead, sound.registered.mMap_of_dead dead, ?_⟩
    apply sound.conserved.executed sound.registered dead
    apply drained.last
    right
    intro nobody
    have number := counted.number
    rw [none, nobody, List.length_nil] at number
    omega

/-- These facts hold in each run that ends with one `Stop`. -/
structure Stopping (numOfThreads : Nat) (pool : Pool Job) : Prop where
  sound : pool.Sound
  counted : pool.Counted numOfThreads
  drained : pool.Drained

theorem Stopping.step (stopping : pool.Stopping numOfThreads) {action : Action Job}
    (condition : pool.UntilStop action) (moves : PoolMoves pool action next) : next.Stopping numOfThreads where
  sound := stopping.sound.step moves
  counted := stopping.counted.step stopping.sound condition moves
  drained := stopping.drained.step stopping.sound stopping.counted moves

theorem stopping_initial (numOfThreads : Nat) : (initial numOfThreads : Pool Job).Stopping numOfThreads where
  sound := sound_initial numOfThreads
  counted := counted_initial numOfThreads
  drained := drained_initial numOfThreads

end Pool

/-- In each run up to one `Stop`, no wake-up of `Stop` is lost, and `Stop` leaves its loop drained. -/
theorem drains_of_untilStop {numOfThreads : Nat} (some : 0 < numOfThreads) {actions : List (Action Job)}
    {final : Pool Job} (once : Meets poolStep Pool.UntilStop (.initial numOfThreads) actions)
    (reached : run poolStep (.initial numOfThreads) actions = Option.some final) : final.Drains numOfThreads := by
  have stopping : final.Stopping numOfThreads := run_invariant_of_meets (Pool.Stopping numOfThreads)
    (fun _ _ _ before condition stepped => before.step condition (poolMoves_of_poolStep stepped))
    (Pool.stopping_initial numOfThreads) once reached
  exact stopping.drained.drains stopping.counted stopping.sound some

end

instance decidableUntilStop {Job : Type*} (pool : Pool Job) : (action : Action Job) →
    Decidable (pool.UntilStop action)
  | .call operation => inferInstanceAs (Decidable (operation.resizes = false ∧ pool.stopCalled = false))
  | .control | .stopTimeOut | .stopSpurious | .work _ _ | .spurious _ => isTrue trivial

/-- Two threads each take one of two tasks of different priority, and then `Stop` deletes both threads. -/
def stopAfterTasks : List (Action Nat) :=
  [.call (.addTask 7 .low), .control, .call (.addTask 9 .high), .control, .work 0 0, .work 1 0, .work 0 0, .work 1 0,
    .call .stop, .control, .control, .control, .control, .control, .control, .work 1 3, .work 0 2, .work 1 0, .work 0 0,
    .work 0 0, .work 1 0, .work 1 0, .work 0 0, .work 1 0, .work 0 0, .work 0 0, .work 1 0, .control, .control]

/-- This run leaves the loop of `Stop` drained. -/
theorem stopAfterTasks_drains : ∃ final, run poolStep (.initial 2) stopAfterTasks = some final ∧
    final.controller = .stopLeave false ∧ final.executed = [(9, .high), (7, .low)] ∧ final.Drains 2 := by
  obtain ⟨final, reached, left, executed⟩ : ∃ final, run poolStep (.initial 2) stopAfterTasks = some final ∧
      final.controller = .stopLeave false ∧ final.executed = [(9, .high), (7, .low)] := by decide +kernel
  exact ⟨final, reached, left, executed, drains_of_untilStop Nat.two_pos (by decide +kernel) reached⟩

end DistributedNas.ThreadPool
