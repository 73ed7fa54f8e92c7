import DistributedNas.ThreadPool.Count
import DistributedNas.ThreadPool.Shutdown

/-
This file proves that a pause reaches each worker: its queued objects and its held workers cover the live workers.
-/

namespace DistributedNas.ThreadPool
open Library

section
variable {Job : Type*}

def Task.isPause : Task Job → Bool
  | .pause => true
  | _ => false

/-- A worker is held from the moment it takes a `PauseTask` until it observes that the flag is clear. -/
def Worker.isHeld (worker : Worker Job) : Bool :=
  match worker.place with
  | .execute task => task.isPause
  | .checkPaused | .sleep | .waiting | .woken => true
  | _ => false

/-- The pause holds this number of workers, or it holds them as soon as they take the queued objects. -/
def Pool.capacity (pool : Pool Job) : Nat := pool.mWq.countP Task.isPause + pool.workers.countP Worker.isHeld

/-- The controlling thread is not inside `Pause`, `Resume` or `SetThreadNumber`. -/
def Controller.isOutside : Controller Job → Bool
  | .pauseSet | .pauseLoop _ | .resumeClear | .resumeNotify => false
  | other => !other.resizes

/-- The controlling thread is inside `Resume`. -/
def Controller.Clears (controller : Controller Job) : Prop :=
  controller = .resumeClear ∨ controller = .resumeNotify

/-- No call shrinks the pool or stops it. -/
def Pool.GrowsOnly (pool : Pool Job) : Action Job → Prop
  | .call (.setThreadNumber newNumOfThreads) => pool.mNumOfThreads ≤ newNumOfThreads
  | .call .stop => False
  | _ => True

def Task.isUser : Task Job → Bool
  | .user _ _ => true
  | _ => false

/-- A worker has started a task of the user. -/
def Worker.executesUser (worker : Worker Job) : Bool :=
  match worker.place with
  | .execute task => task.isUser
  | _ => false

/-- A task is added only while each live worker is held, and a worker is created only while no task is queued. -/
def Pool.HoldsFirst (pool : Pool Job) (action : Action Job) : Prop :=
  action = .control →
    match pool.controller with
    | .addTask _ _ => ∀ worker ∈ pool.workers, worker.iAmAlive → worker.isHeld
    | .resizeCreate (_ + 1) => pool.mWq.countP Task.isUser = 0
    | _ => True

/-- Each live worker is held, and such a continuation starts no task of the user before the next call of `Resume`. -/
def Pool.StandsStill (pool : Pool Job) : Prop :=
  (∀ worker ∈ pool.workers, worker.iAmAlive → worker.isHeld) ∧
    ∀ actions final, (∀ action ∈ actions, action ≠ .call .resume) → Meets poolStep Pool.HoldsFirst pool actions →
      run poolStep pool actions = some final →
        final.executed = pool.executed ∧ ∀ worker ∈ final.workers, worker.executesUser = false

/-- The pause has to cover this number of workers at this step. -/
def Controller.required (live : Nat) : Controller Job → Nat
  | .pauseLoop i => i
  | .resizePause diff left => live + (diff - left)
  | .resizeCreate left | .resizeIncrement left => live + left
  | _ => live

/-- The pause covers as many workers as the operation in progress requires. -/
def Pool.Covered (pool : Pool Job) : Prop :=
  pool.mIsPaused = true → pool.controller.required pool.live ≤ pool.capacity

/-- An effect enqueues at most one `PauseTask`. -/
def Effect.pauses : Effect Job → Nat
  | .enqueue task => task.isPause.toNat
  | _ => 0

/-- This function gives the flag after an effect. -/
def Effect.flag (before : Bool) : Effect Job → Bool
  | .setPaused paused => paused
  | _ => before

variable {pool next base : Pool Job} {id numOfThreads : Nat} {worker : Worker Job}
  {effect : Effect Job} {after : Controller Job} {action : Action Job}

@[simp] theorem Worker.notified_isHeld : worker.notified.isHeld = worker.isHeld := by
  unfold Worker.notified
  split
  · next stands => simp [isHeld, stands]
  · rfl

@[simp] theorem Worker.notified_executesUser : worker.notified.executesUser = worker.executesUser := by
  unfold Worker.notified
  split
  · next stands => simp [executesUser, stands]
  · rfl

theorem Pool.mIsPaused_of_perform (performed : pool.perform effect = some base) :
    base.mIsPaused = effect.flag pool.mIsPaused := by
  cases effect with
  | lock =>
      obtain ⟨_, rfl⟩ := perform_lock performed
      rfl
  | nothing | enqueue | setPaused | notifyAll | unlock | createThread | count =>
      obtain rfl := Option.some.inj performed
      rfl

/-- An effect changes the capacity by the `PauseTask` that it enqueues. -/
theorem Pool.capacity_of_perform (performed : pool.perform effect = some base) :
    base.capacity = pool.capacity + effect.pauses := by
  cases effect with
  | lock =>
      obtain ⟨_, rfl⟩ := perform_lock performed
      rfl
  | nothing | setPaused | unlock | count =>
      obtain rfl := Option.some.inj performed
      rfl
  | enqueue task =>
      obtain rfl := Option.some.inj performed
      simp only [capacity, Effect.pauses, List.countP_cons]
      cases task.isPause <;> simp [add_right_comm]
  | notifyAll =>
      obtain rfl := Option.some.inj performed
      show _ + (pool.workers.map Worker.notified).countP Worker.isHeld = _
      simp [List.countP_map, Function.comp_def, capacity, Effect.pauses]
  | createThread =>
      obtain rfl := Option.some.inj performed
      show _ + (pool.workers ++ [Worker.new]).countP Worker.isHeld = _
      simp [Worker.isHeld, Worker.new, capacity, Effect.pauses]

/-- A held worker stays held while the flag is set. -/
theorem Works.isHeld (works : Works pool id worker next) (paused : pool.mIsPaused = true)
    (held : worker.isHeld) :
    ∃ place, next.workers = pool.workers.set id ⟨worker.iAmAlive, place⟩ ∧
      (⟨worker.iAmAlive, place⟩ : Worker Job).isHeld ∧ next.mWq = pool.mWq ∧ next.executed = pool.executed := by
  cases works with
  | lock stands free => exact ⟨.checkPaused, rfl, rfl, rfl, rfl⟩
  | checkPaused stands => exact ⟨.sleep, by simp [paused, Pool.put], rfl, rfl, rfl⟩
  | sleep stands => exact ⟨.waiting, rfl, rfl, rfl, rfl⟩
  | spurious stands => exact ⟨.woken, rfl, rfl, rfl, rfl⟩
  | register stands | test stands | dequeue place task rest stands | user job priority stands | delete stands
  | unlock stands => simp [Worker.isHeld, stands, Task.isPause] at held

namespace Pool

/-- A step of a worker that is not held takes a `PauseTask` or leaves the capacity. -/
theorem Registered.capacity_of_works (registered : pool.Registered) (present : pool.workers[id]? = some worker)
    (works : Works pool id worker next) (paused : pool.mIsPaused = true) : next.capacity = pool.capacity := by
  have moved : ∀ new : Worker Job, next.workers = pool.workers.set id new →
      next.mWq.countP Task.isPause + new.isHeld.toNat = pool.mWq.countP Task.isPause + worker.isHeld.toNat →
      next.capacity = pool.capacity := by
    intro new workers balance
    have counts := countP_set_add Worker.isHeld present new
    rw [capacity, capacity, workers]
    omega
  cases held : worker.isHeld with
  | true =>
      obtain ⟨place, workers, stays, queue, _⟩ := works.isHeld paused held
      apply moved _ workers
      rw [queue, stays, held]
  | false =>
      cases works with
      | dequeue place task rest stands popped =>
          apply moved _ rfl
          rw [(popTop_eq_some popped).2.countP_eq, List.countP_cons, held]
          simp only [Worker.isHeld]
          cases task.isPause <;> simp
      | delete stands free =>
          rw [(registered.deleteTask_eq present stands).2] at moved ⊢
          apply moved _ rfl
          rw [held]
          rfl
      | test stands =>
          apply moved _ rfl
          rw [held]
          cases worker.iAmAlive <;> rfl
      | register stands | user job priority stands | unlock stands =>
          apply moved _ rfl
          rw [held]
          rfl
      | lock stands =>
          cases stands with
          | inl stands | inr stands => simp [Worker.isHeld, stands, Task.isPause] at held
      | checkPaused stands | sleep stands | spurious stands => simp [Worker.isHeld, stands] at held

/-- Each step of an operation covers what the next one requires. -/
theorem Covered.control (covered : pool.Covered) (tallied : pool.Tallied numOfThreads)
    (plans : Plans pool effect after) (performed : pool.perform effect = some base) :
    Covered { base with controller := after } := by
  have count := tallied.count
  have live := (performed_of_perform performed).live
  intro paused
  show after.required base.live ≤ base.capacity
  have flag : effect.flag pool.mIsPaused = true := (mIsPaused_of_perform performed).symm.trans paused
  rw [capacity_of_perform performed, live]
  cases plans with
  | pauseSet stands => exact Nat.zero_le _
  | resumeClear stands => cases flag
  | growUnpaused new stands unpaused =>
      change pool.mIsPaused = true at flag
      rw [unpaused] at flag
      cases flag
  | pauseEnd i stands done =>
      have reached := covered flag
      rw [stands] at reached count
      simp only [Controller.required, Controller.uncounted, Effect.created, Effect.pauses] at reached count ⊢
      omega
  | growPauseTask diff left stands | growPauseEnd diff stands | pauseTask i stands | create left stands
  | growPaused new stands =>
      have reached := covered flag
      rw [stands] at reached
      simp only [Controller.required, Effect.created, Effect.pauses, Task.isPause, Bool.toNat_true] at reached ⊢
      omega
  | addTask job priority stands | resumeNotify stands | stopLock stands | stopBroadcast stands
  | stopTask i stands | stopTasksEnd i stands | stopDone stands | stopWait stands | stopRetest stands
  | stopGiveUp stands | stopLeave timedOut stands | grow new stands | shrink new stands | createEnd stands
  | increment left stands | shrinkStart new stands | delete left stands | deleteEnd stands
  | decrement left stands =>
      have reached := covered flag
      rw [stands] at reached
      exact reached

theorem Covered.works (covered : pool.Covered) (registered : pool.Registered)
    (present : pool.workers[id]? = some worker) (works : Works pool id worker next) : next.Covered := by
  obtain ⟨ids, worked⟩ := registered.worked present works
  intro paused
  have before : pool.mIsPaused = true := worked.paused ▸ paused
  rw [registered.capacity_of_works present works before]
  have lives := worked.live
  have reached := covered before
  rcases worked.controller with same | ⟨stands, woken⟩
  · rw [same]
    cases controller : pool.controller <;> rw [controller] at reached <;>
      simp only [Controller.required] at reached ⊢ <;> omega
  · rw [stands] at reached
    rw [woken]
    simp only [Controller.required] at reached ⊢
    omega

theorem Covered.step (covered : pool.Covered) (sound : pool.Sound) (tallied : pool.Tallied numOfThreads)
    (moves : PoolMoves pool action next) : next.Covered := by
  cases moves with
  | call operation stands =>
      intro paused
      have reached := covered paused
      rw [stands] at reached
      cases operation <;> exact reached
  | control effect after base plans performed => exact covered.control tallied plans performed
  | stopTimeOut stands =>
      intro paused
      have reached := covered paused
      cases stands with
      | inl stands | inr stands =>
          rw [stands] at reached
          exact reached
  | stopSpurious stands =>
      intro paused
      have reached := covered paused
      rw [stands] at reached
      exact reached
  | work id place worker next present works | spurious id worker next present works =>
      exact covered.works sound.registered present works

/-- These facts hold in each run that only grows its pool. -/
structure Growing (numOfThreads : Nat) (pool : Pool Job) : Prop where
  sound : pool.Sound
  tallied : pool.Tallied numOfThreads
  covered : pool.Covered
  running : goal numOfThreads pool.calls ≠ none

/-- No call stops the pool, so that no `DeleteTask` is ever outstanding. -/
theorem Growing.growsQuietly (growing : pool.Growing numOfThreads) (condition : pool.GrowsOnly action) :
    pool.GrowsQuietly action := by
  obtain ⟨number, aim⟩ := Option.ne_none_iff_exists'.mp growing.running
  unfold GrowsQuietly
  split
  · exact ⟨(growing.tallied.towards number aim).1, condition⟩
  · trivial

theorem calls_of_moves (moves : PoolMoves pool action next) (registered : pool.Registered) :
    next.calls = pool.calls ∨ ∃ operation, action = .call operation ∧ next.calls = operation :: pool.calls := by
  cases moves with
  | call operation stands => exact Or.inr ⟨operation, rfl, rfl⟩
  | control effect after base plans performed => exact Or.inl (performed_of_perform performed).calls
  | stopTimeOut | stopSpurious => exact Or.inl rfl
  | work id place worker next present works | spurious id worker next present works =>
      obtain ⟨ids, worked⟩ := registered.worked present works
      exact Or.inl worked.calls

theorem Growing.step (growing : pool.Growing numOfThreads) (condition : pool.GrowsOnly action)
    (moves : PoolMoves pool action next) : next.Growing numOfThreads where
  sound := growing.sound.step moves
  tallied := growing.tallied.step growing.sound (growing.growsQuietly condition) moves
  covered := growing.covered.step growing.sound growing.tallied moves
  running := by
    rcases calls_of_moves moves growing.sound.registered with same | ⟨operation, rfl, called⟩
    · rw [same]
      exact growing.running
    · rw [called]
      cases operation with
      | addTask | pause | resume => exact growing.running
      | setThreadNumber new => exact Option.some_ne_none _
      | stop => exact absurd condition id

theorem growing_initial (numOfThreads : Nat) : (initial numOfThreads : Pool Job).Growing numOfThreads where
  sound := sound_initial numOfThreads
  tallied := tallied_initial numOfThreads
  covered := by
    intro paused
    cases paused
  running := Option.some_ne_none _

/-- Outside the operations that pause or resize, the pause covers all live workers. -/
theorem Growing.covers (growing : pool.Growing numOfThreads) (paused : pool.mIsPaused = true)
    (outside : pool.controller.isOutside) : pool.live ≤ pool.capacity := by
  have reached := growing.covered paused
  cases stands : pool.controller <;> rw [stands] at outside reached <;>
    first | exact reached | cases outside

/-- A held worker has no `DeleteTask` behind it. -/
theorem Registered.alive_of_isHeld (registered : pool.Registered) (present : pool.workers[id]? = some worker)
    (held : worker.isHeld) : worker.iAmAlive := by
  have fits := registered.fits id worker present
  apply fits.alive
  intro gone
  cases fits.retired gone with
  | inl stands | inr stands => simp [Worker.isHeld, stands] at held

/-- With no `PauseTask` in the queue each live worker is held. -/
theorem Growing.held (growing : pool.Growing numOfThreads) (paused : pool.mIsPaused = true)
    (outside : pool.controller.isOutside) (empty : pool.mWq.countP Task.isPause = 0) :
    ∀ worker ∈ pool.workers, worker.iAmAlive → worker.isHeld := by
  have covers := growing.covers paused outside
  rw [capacity, empty, zero_add] at covers
  apply forall_of_countP_le _ covers
  intro worker member held
  obtain ⟨id, present⟩ := List.mem_iff_getElem?.mp member
  exact growing.sound.registered.alive_of_isHeld present held

/-- While a task of the user is queued each live worker is held, and no such task was started. -/
structure Frozen (before pool : Pool Job) : Prop where
  registered : pool.Registered
  paused : pool.mIsPaused = true
  keeps : ¬ pool.controller.Clears
  waits : pool.mWq.countP Task.isUser ≠ 0 → ∀ worker ∈ pool.workers, worker.iAmAlive → worker.isHeld
  started : ∀ worker ∈ pool.workers, worker.executesUser = false
  executed : pool.executed = before.executed

variable {before : Pool Job}

/-- A worker without a flag can only leave its loop. -/
theorem Registered.works_of_dead (registered : pool.Registered) (present : pool.workers[id]? = some worker)
    (works : Works pool id worker next) (dead : worker.iAmAlive = false) :
    next.workers = pool.workers.set id ⟨false, .finished⟩ ∧ next.executed = pool.executed := by
  have fits := registered.fits id worker present
  cases works with
  | test stands => simp [put, dead]
  | register stands | dequeue place task rest stands | user job priority stands | delete stands
  | checkPaused stands | sleep stands | unlock stands | spurious stands =>
      cases fits.retired (fits.dead.mp dead) with
      | inl other | inr other => simp [stands] at other
  | lock stands =>
      cases fits.retired (fits.dead.mp dead) with
      | inl other | inr other => simp [other] at stands

/-- A held worker executes no task of the user. -/
theorem executesUser_of_isHeld (held : worker.isHeld) : worker.executesUser = false := by
  unfold Worker.isHeld at held
  unfold Worker.executesUser
  split at held
  · next task stands =>
      rw [stands]
      cases task with
      | pause => rfl
      | user job priority | delete => cases held
  all_goals simp_all

/-- A step of a worker takes no task of the user while the pool is frozen. -/
theorem Frozen.worked (frozen : before.Frozen pool) (present : pool.workers[id]? = some worker)
    (works : Works pool id worker next) :
    ∃ new : Worker Job, next.workers = pool.workers.set id new ∧ new.executesUser = false ∧
      next.executed = pool.executed ∧ next.mWq.countP Task.isUser = pool.mWq.countP Task.isUser ∧
      (pool.mWq.countP Task.isUser ≠ 0 → new.iAmAlive → new.isHeld) := by
  have member := List.mem_of_getElem? present
  cases alive : worker.iAmAlive with
  | false =>
      have gone := (frozen.registered.fits id worker present).dead.mp alive
      obtain ⟨workers, executed⟩ := frozen.registered.works_of_dead present works alive
      have queue := frozen.registered.mWq_of_deleted present gone works
      exact ⟨_, workers, rfl, executed, by rw [queue], by simp⟩
  | true =>
      cases held : worker.isHeld with
      | true =>
          obtain ⟨place, workers, stays, queue, executed⟩ := works.isHeld frozen.paused held
          exact ⟨_, workers, executesUser_of_isHeld stays, executed, by rw [queue], fun _ _ => stays⟩
      | false =>
          -- A worker that is not held finds only objects of the pool in the queue.
          have none : pool.mWq.countP Task.isUser = 0 := by
            by_contra some
            exact absurd (frozen.waits some worker member alive) (by simp [held])
          cases works with
          | register stands => exact ⟨_, rfl, rfl, rfl, rfl, fun some => absurd none some⟩
          | test stands =>
              exact ⟨_, rfl, by cases worker.iAmAlive <;> rfl, rfl, rfl, fun some => absurd none some⟩
          | dequeue place task rest stands popped =>
              have counted := (popTop_eq_some popped).2.countP_eq Task.isUser
              rw [none, List.countP_cons] at counted
              refine ⟨_, rfl, ?_, rfl, ?_, fun some => absurd none some⟩
              · cases user : task.isUser with
                | false => exact user
                | true => simp [user] at counted
              · show rest.countP Task.isUser = _
                omega
          | user job priority stands =>
              have started := frozen.started worker member
              simp [Worker.executesUser, stands, Task.isUser] at started
          | delete stands free =>
              rw [(frozen.registered.deleteTask_eq present stands).2]
              exact ⟨_, rfl, rfl, rfl, rfl, fun some => absurd none some⟩
          | unlock stands => exact ⟨_, rfl, rfl, rfl, rfl, fun some => absurd none some⟩
          | lock stands =>
              cases stands with
              | inl stands | inr stands => simp [Worker.isHeld, stands, Task.isPause] at held
          | checkPaused stands | sleep stands | spurious stands => simp [Worker.isHeld, stands] at held

theorem Frozen.works (frozen : before.Frozen pool) (present : pool.workers[id]? = some worker)
    (works : Works pool id worker next) : before.Frozen next := by
  obtain ⟨ids, worked⟩ := frozen.registered.worked present works
  obtain ⟨new, workers, idle, executed, queue, stays⟩ := frozen.worked present works
  constructor
  · exact frozen.registered.works present works
  · rw [worked.paused]
    exact frozen.paused
  · intro clears
    apply frozen.keeps
    rcases worked.controller with same | ⟨_, woken⟩
    · rwa [same] at clears
    · rw [woken] at clears
      cases clears with
      | inl stands | inr stands => cases stands
  · intro some other member alive
    rw [queue] at some
    rw [workers] at member
    rcases List.mem_or_eq_of_mem_set member with inside | rfl
    · exact frozen.waits some other inside alive
    · exact stays some alive
  · intro other member
    rw [workers] at member
    rcases List.mem_or_eq_of_mem_set member with inside | rfl
    · exact frozen.started other inside
    · exact idle
  · rw [executed]
    exact frozen.executed

/-- An effect adds one task of the user, or it leaves their number. -/
theorem users_of_perform (performed : pool.perform effect = some base) :
    base.mWq.countP Task.isUser = pool.mWq.countP Task.isUser ∨
      ∃ job priority, effect = .enqueue (.user job priority) := by
  cases effect with
  | lock =>
      obtain ⟨_, rfl⟩ := perform_lock performed
      exact Or.inl rfl
  | enqueue task =>
      obtain rfl := Option.some.inj performed
      cases task with
      | user job priority => exact Or.inr ⟨job, priority, rfl⟩
      | pause | delete => exact Or.inl (List.countP_cons_of_neg (by simp [Task.isUser]))
  | nothing | setPaused | notifyAll | unlock | createThread | count =>
      obtain rfl := Option.some.inj performed
      exact Or.inl rfl

/-- The effects of all operations but `Resume` keep the pool frozen. -/
theorem Frozen.control (frozen : before.Frozen pool) (condition : pool.HoldsFirst .control)
    (plans : Plans pool effect after) (performed : pool.perform effect = some base) :
    before.Frozen { base with controller := after } := by
  have meets := condition rfl
  constructor
  · exact (frozen.registered.perform performed).frame rfl rfl rfl
  · show base.mIsPaused = true
    rw [mIsPaused_of_perform performed]
    cases plans with
    | resumeClear stands => exact absurd (Or.inl stands) frozen.keeps
    | _ => first | rfl | exact frozen.paused
  · show ¬ after.Clears
    intro clears
    cases plans with
    | resumeClear stands => exact frozen.keeps (Or.inl stands)
    | _ => simp [Controller.Clears] at clears
  · intro some worker member alive
    change base.mWq.countP Task.isUser ≠ 0 at some
    change worker ∈ base.workers at member
    have held : ∀ old ∈ pool.workers, old.iAmAlive → old.isHeld := by
      rcases users_of_perform performed with same | ⟨job, priority, rfl⟩
      · exact frozen.waits (same ▸ some)
      · cases plans with
        | addTask _ _ stands =>
            rw [stands] at meets
            exact meets
    rcases workers_of_perform performed with ⟨-, -, same⟩ | ⟨-, notified⟩ | ⟨rfl, -⟩
    · exact held worker (same ▸ member) alive
    · rw [notified] at member
      obtain ⟨old, there, rfl⟩ := List.mem_map.mp member
      rw [Worker.notified_iAmAlive] at alive
      rw [Worker.notified_isHeld]
      exact held old there alive
    · obtain rfl := Option.some.inj performed
      cases plans with
      | create left stands =>
          rw [stands] at meets
          exact absurd meets some
  · intro worker member
    change worker ∈ base.workers at member
    rcases workers_of_perform performed with ⟨-, -, same⟩ | ⟨-, notified⟩ | ⟨-, created⟩
    · exact frozen.started worker (same ▸ member)
    · rw [notified] at member
      obtain ⟨old, there, rfl⟩ := List.mem_map.mp member
      rw [Worker.notified_executesUser]
      exact frozen.started old there
    · rw [created] at member
      rcases List.mem_append.mp member with inside | new
      · exact frozen.started worker inside
      · rw [List.mem_singleton.mp new]
        rfl
  · show base.executed = before.executed
    rw [(kept_of_perform performed).2.1]
    exact frozen.executed

theorem Frozen.step (frozen : before.Frozen pool) (stays : action ≠ .call .resume) (condition : pool.HoldsFirst action)
    (moves : PoolMoves pool action next) : before.Frozen next := by
  cases moves with
  | call operation stands =>
      refine ⟨frozen.registered.frame rfl rfl rfl, frozen.paused, ?_, frozen.waits, frozen.started, frozen.executed⟩
      intro clears
      cases operation with
      | resume => exact stays rfl
      | addTask | setThreadNumber | pause | stop => simp [Controller.Clears, Operation.begin] at clears
  | control effect after base plans performed => exact frozen.control condition plans performed
  | stopTimeOut | stopSpurious =>
      refine ⟨frozen.registered.frame rfl rfl rfl, frozen.paused, ?_, frozen.waits, frozen.started, frozen.executed⟩
      simp [Controller.Clears]
  | work id place worker next present works | spurious id worker next present works =>
      exact frozen.works present works

/-- A dead worker has left its loop, and a held one waits. -/
theorem Registered.idle (registered : pool.Registered)
    (held : ∀ worker ∈ pool.workers, worker.iAmAlive → worker.isHeld) :
    ∀ worker ∈ pool.workers, worker.executesUser = false := by
  intro worker member
  cases alive : worker.iAmAlive with
  | true => exact executesUser_of_isHeld (held worker member alive)
  | false =>
      obtain ⟨id, present⟩ := List.mem_iff_getElem?.mp member
      have fits := registered.fits id worker present
      unfold Worker.executesUser
      cases fits.retired (fits.dead.mp alive) with
      | inl stands | inr stands => rw [stands]

/-- A paused pool with no `PauseTask` in its queue stands still. -/
theorem Growing.standsStill (growing : pool.Growing numOfThreads) (paused : pool.mIsPaused = true)
    (outside : pool.controller.isOutside) (empty : pool.mWq.countP Task.isPause = 0) : pool.StandsStill := by
  have held := growing.held paused outside empty
  refine ⟨held, ?_⟩
  intro actions final stays condition reached
  have start : pool.Frozen pool := by
    refine ⟨growing.sound.registered, paused, ?_, fun _ => held, growing.sound.registered.idle held, rfl⟩
    intro clears
    cases clears with
    | inl stands | inr stands => simp [stands, Controller.isOutside] at outside
  have frozen : pool.Frozen final := run_invariant_of_meets (Frozen pool)
    (fun _ _ _ before both stepped => before.step both.1 both.2 (poolMoves_of_poolStep stepped)) start
    ((meets_of_forall stays pool).and condition) reached
  exact ⟨frozen.executed, frozen.started⟩

end Pool

/-- In each run that only grows its pool, a pause covers the live workers, and in the end it holds them. -/
theorem covers_of_growsOnly {actions : List (Action Job)} {final : Pool Job}
    (grows : Meets poolStep Pool.GrowsOnly (.initial numOfThreads) actions)
    (reached : run poolStep (.initial numOfThreads) actions = some final) (paused : final.mIsPaused = true)
    (outside : final.controller.isOutside) :
    final.live ≤ final.mWq.countP Task.isPause + final.workers.countP Worker.isHeld ∧
      (final.mWq.countP Task.isPause = 0 → final.StandsStill) := by
  have growing : final.Growing numOfThreads := run_invariant_of_meets (Pool.Growing numOfThreads)
    (fun _ _ _ before condition stepped => before.step condition (poolMoves_of_poolStep stepped))
    (Pool.growing_initial numOfThreads) grows reached
  exact ⟨growing.covers paused outside, growing.standsStill paused outside⟩

end

instance decidableGrowsOnly {Job : Type*} (pool : Pool Job) : (action : Action Job) →
    Decidable (pool.GrowsOnly action)
  | .call (.setThreadNumber newNumOfThreads) => inferInstanceAs (Decidable (pool.mNumOfThreads ≤ newNumOfThreads))
  | .call .stop => isFalse id
  | .call (.addTask _ _) | .call .pause | .call .resume => isTrue trivial
  | .control | .stopTimeOut | .work _ _ | .stopSpurious | .spurious _ => isTrue trivial

instance decidableHoldsFirst {Job : Type*} (pool : Pool Job) (action : Action Job) :
    Decidable (pool.HoldsFirst action) :=
  match action with
  | .control =>
      match stands : pool.controller with
      | .addTask _ _ =>
          decidable_of_iff (∀ worker ∈ pool.workers, worker.iAmAlive → worker.isHeld) (by simp [Pool.HoldsFirst, stands])
      | .resizeCreate (_ + 1) =>
          decidable_of_iff (pool.mWq.countP Task.isUser = 0) (by simp [Pool.HoldsFirst, stands])
      | .idle | .pauseSet | .pauseLoop _ | .resumeClear | .resumeNotify | .stopLock | .stopBroadcast | .stopLoop _
      | .stopTest | .stopWaiting | .stopWoken _ | .stopLeave _ | .resizeTest _ | .resizeGrow _ | .resizePause _ _
      | .resizeCreate 0 | .resizeIncrement _ | .resizeShrink _ | .resizeDelete _ | .resizeDecrement _ =>
          isTrue (by simp [Pool.HoldsFirst, stands])
  | .call _ | .stopTimeOut | .stopSpurious | .work _ _ | .spurious _ => isTrue (by simp [Pool.HoldsFirst])

/-- A paused pool of one thread grows to two, and both workers take their `PauseTask`. -/
def growWhilePaused : List (Action Nat) :=
  [.work 0 0, .work 0 0, .call .pause, .control, .control, .control, .call (.setThreadNumber 2), .control, .control,
    .control, .control, .control, .control, .control, .work 1 0, .work 1 0, .work 1 0, .work 0 0, .work 0 0,
    .work 0 0, .work 0 0]

/-- A third worker is created and takes its `PauseTask`, and then a task is added. -/
def growAgain : List (Action Nat) :=
  [.call (.setThreadNumber 3), .control, .control, .control, .control, .control, .control, .control, .work 2 0,
    .work 2 0, .work 2 0, .call (.addTask 7 .low), .control, .spurious 0, .work 2 0, .work 2 0, .work 2 0]

/-- The added task waits while three workers are held. -/
theorem growWhilePaused_covers : ∃ final last, run poolStep (.initial 1) growWhilePaused = some final ∧
    run poolStep final growAgain = some last ∧ last.mWq = [.user 7 .low] ∧ last.executed = [] ∧
      final.live ≤ final.mWq.countP Task.isPause + final.workers.countP Worker.isHeld ∧ final.StandsStill := by
  obtain ⟨final, reached, flag, outside, empty, none, last, continued, queue, stays, condition⟩ :
      ∃ final, run poolStep (.initial 1) growWhilePaused = some final ∧ final.mIsPaused = true ∧
        final.controller.isOutside ∧ final.mWq.countP Task.isPause = 0 ∧ final.executed = [] ∧
        ∃ last, run poolStep final growAgain = some last ∧ last.mWq = [.user 7 .low] ∧
          (∀ action ∈ growAgain, action ≠ .call .resume) ∧ Meets poolStep Pool.HoldsFirst final growAgain := by
    decide
  obtain ⟨covers, still⟩ := covers_of_growsOnly (by decide) reached flag outside
  have kept := ((still empty).2 growAgain last stays condition continued).1
  exact ⟨final, last, reached, continued, queue, kept.trans none, covers, still empty⟩

/-- The only worker is held, and a task of the lowest priority is added. -/
def pauseThenAdd : List (Action Nat) :=
  [.work 0 0, .work 0 0, .call .pause, .control, .control, .control, .work 0 0, .work 0 0, .work 0 0, .work 0 0,
    .call (.addTask 7 .low), .control]

/-- The pool grows to two threads, and the new worker takes the task before its `PauseTask`. -/
def growOverTask : List (Action Nat) :=
  [.call (.setThreadNumber 2), .control, .control, .control, .control, .control, .control, .control, .work 1 0,
    .work 1 0, .work 1 1, .work 1 0]

/-- The pause has reached each live worker, and a task is executed before `Resume` is called. -/
theorem growOverTask_executes : ∃ final, run poolStep (.initial 1) pauseThenAdd = some final ∧
    Meets poolStep Pool.GrowsOnly (.initial 1) (pauseThenAdd ++ growOverTask) ∧ final.mIsPaused = true ∧
      final.controller.isOutside ∧ final.mWq = [.user 7 .low] ∧
      (∀ worker ∈ final.workers, worker.iAmAlive → worker.isHeld) ∧ final.executed = [] ∧
      ∃ last, run poolStep final growOverTask = some last ∧ (∀ action ∈ growOverTask, action ≠ .call .resume) ∧
        last.mIsPaused = true ∧ last.mWq = [.pause] ∧ last.executed = [(7, .low)] := by
  decide

end DistributedNas.ThreadPool
