import DistributedNas.Engine.Server
import DistributedNas.Library.Transition

/-
This file models `ThreadPool`: one controlling thread, the workers, their task queue, and their two condition variables.
-/

namespace DistributedNas.ThreadPool
open Library
open Engine (Priority)

/-- A task of the pool is a task of the user, a `PauseTask`, or a `DeleteTask`. -/
inductive Task (Job : Type*) where
  | user (job : Job) (priority : Priority)
  | pause
  | delete
  deriving DecidableEq, Repr

/-- The tasks of the pool have the numbers 4 and 5. -/
def Task.priority {Job : Type*} : Task Job → Nat
  | .user _ priority => priority.toNat
  | .pause => 4
  | .delete => 5

/-- `CompareFunctor` puts the lowest number on top. -/
def compareFunctor {Job : Type*} (lhs rhs : Task Job) : Bool := decide (lhs.priority > rhs.priority)

/-- A worker stands before this step, and it holds `m_mutex` in `LockCV` at `checkPaused`, `sleep` and `unlock`. -/
inductive Place (Job : Type*) where
  | register
  | test
  | dequeue
  | execute (task : Task Job)
  | checkPaused
  | sleep
  | waiting
  | woken
  | unlock
  | finished
  | undefined
  deriving DecidableEq, Repr

/-- A `ThreadFunctor` has its flag and its place in `operator()`. -/
structure Worker (Job : Type*) where
  iAmAlive : Bool
  place : Place Job
  deriving DecidableEq, Repr

/-- The mutex of the pool is held by the controlling thread or by a worker. -/
inductive Owner where
  | controller
  | worker (id : Nat)
  deriving DecidableEq, Repr

/-- The controlling thread stands before this step of an operation. -/
inductive Controller (Job : Type*) where
  | idle
  | addTask (job : Job) (priority : Priority)
  | pauseSet
  | pauseLoop (i : Nat)
  | resumeClear
  | resumeNotify
  | stopLock
  | stopBroadcast
  | stopLoop (i : Nat)
  | stopTest
  | stopWaiting
  | stopWoken (timedOut : Bool)
  | stopLeave (timedOut : Bool)
  | resizeTest (newNumOfThreads : Int)
  | resizeGrow (newNumOfThreads : Int)
  | resizePause (diff left : Nat)
  | resizeCreate (left : Nat)
  | resizeIncrement (left : Nat)
  | resizeShrink (newNumOfThreads : Int)
  | resizeDelete (left : Nat)
  | resizeDecrement (left : Nat)
  deriving DecidableEq, Repr

/-- These are the public operations of the pool. -/
inductive Operation (Job : Type*) where
  | addTask (job : Job) (priority : Priority)
  | setThreadNumber (newNumOfThreads : Int)
  | pause
  | resume
  | stop
  deriving DecidableEq, Repr

/-- The fields of the pool come first, and the histories of tasks, deletions and calls come last. -/
structure Pool (Job : Type*) where
  mIsPaused : Bool
  mNumOfThreads : Int
  mWq : List (Task Job)
  mMap : List (Nat × Nat)
  mMutex : Option Owner
  workers : List (Worker Job)
  controller : Controller Job
  added : List (Job × Priority)
  executed : List (Job × Priority)
  deleted : List Nat
  calls : List (Operation Job)
  deriving DecidableEq

/-- The steps of the threads interleave, and a wait may end without a notification. -/
inductive Action (Job : Type*) where
  | call (operation : Operation Job)
  | control
  | stopTimeOut
  | stopSpurious
  | work (id place : Nat)
  | spurious (id : Nat)
  deriving DecidableEq, Repr

section
variable {Job : Type*}

/-- A new worker has not yet registered. -/
def Worker.new : Worker Job := ⟨true, .register⟩

/-- The constructor of the pool creates its threads. -/
def Pool.initial (numOfThreads : Nat) : Pool Job where
  mIsPaused := false
  mNumOfThreads := numOfThreads
  mWq := []
  mMap := []
  mMutex := none
  workers := List.replicate numOfThreads .new
  controller := .idle
  added := []
  executed := []
  deleted := []
  calls := []

/-- The controlling thread enters an operation here. -/
def Operation.begin : Operation Job → Controller Job
  | .addTask job priority => .addTask job priority
  | .setThreadNumber newNumOfThreads => .resizeTest newNumOfThreads
  | .pause => .pauseSet
  | .resume => .resumeClear
  | .stop => .stopLock

/-- A step of an operation has one effect on the shared fields. -/
inductive Effect (Job : Type*) where
  | nothing
  | enqueue (task : Task Job)
  | setPaused (paused : Bool)
  | notifyAll
  | lock
  | unlock
  | createThread
  | count (change : Int)
  deriving DecidableEq, Repr

/-- A waiting worker is woken by `notify_all`. -/
def Worker.notified (worker : Worker Job) : Worker Job :=
  match worker.place with
  | .waiting => ⟨worker.iAmAlive, .woken⟩
  | _ => worker

/-- These are the tasks of the user among some tasks. -/
def Task.jobs : Task Job → List (Job × Priority)
  | .user job priority => [(job, priority)]
  | _ => []

namespace Pool
variable (pool : Pool Job)

/-- This function performs an effect, and the lock waits for a free mutex. -/
def perform : Effect Job → Option (Pool Job)
  | .nothing => some pool
  | .enqueue task => some { pool with mWq := task :: pool.mWq, added := task.jobs ++ pool.added }
  | .setPaused paused => some { pool with mIsPaused := paused }
  | .notifyAll => some { pool with workers := pool.workers.map Worker.notified }
  | .lock => if pool.mMutex.isNone then some { pool with mMutex := some .controller } else none
  | .unlock => some { pool with mMutex := none }
  | .createThread => some { pool with workers := pool.workers ++ [.new] }
  | .count change => some { pool with mNumOfThreads := pool.mNumOfThreads + change }

/-- This function gives the next effect of the running operation and the step after it. -/
def plan : Option (Effect Job × Controller Job) :=
  match pool.controller with
  | .idle => none
  | .addTask job priority => some (.enqueue (.user job priority), .idle)
  | .pauseSet => some (.setPaused true, .pauseLoop 0)
  | .pauseLoop i =>
      some (if i < pool.mNumOfThreads then (.enqueue .pause, .pauseLoop (i + 1)) else (.nothing, .idle))
  | .resumeClear => some (.setPaused false, .resumeNotify)
  | .resumeNotify => some (.notifyAll, .idle)
  | .stopLock => some (.lock, .stopBroadcast)
  | .stopBroadcast => some (.notifyAll, .stopLoop 0)
  | .stopLoop i =>
      some (if i < pool.mNumOfThreads then (.enqueue .delete, .stopLoop (i + 1)) else (.nothing, .stopTest))
  | .stopTest =>
      some (if pool.mNumOfThreads = 0 then (.nothing, .stopLeave false) else (.unlock, .stopWaiting))
  | .stopWaiting => none
  | .stopWoken timedOut => some (.lock, if timedOut then .stopLeave true else .stopTest)
  | .stopLeave _ => some (.unlock, .idle)
  | .resizeTest new =>
      some (.nothing, if pool.mNumOfThreads < new then .resizeGrow new else .resizeShrink new)
  | .resizeGrow new =>
      let diff := (new - pool.mNumOfThreads).toNat
      some (.nothing, if pool.mIsPaused then .resizePause diff diff else .resizeCreate diff)
  | .resizePause diff 0 => some (.nothing, .resizeCreate diff)
  | .resizePause diff (left + 1) => some (.enqueue .pause, .resizePause diff left)
  | .resizeCreate 0 => some (.nothing, .idle)
  | .resizeCreate (left + 1) => some (.createThread, .resizeIncrement left)
  | .resizeIncrement left => some (.count 1, .resizeCreate left)
  | .resizeShrink new => some (.nothing, .resizeDelete (pool.mNumOfThreads - new).toNat)
  | .resizeDelete 0 => some (.nothing, .idle)
  | .resizeDelete (left + 1) => some (.enqueue .delete, .resizeDecrement left)
  | .resizeDecrement left => some (.count (-1), .resizeDelete left)

/-- The controlling thread takes its next step. -/
def control : Option (Pool Job) :=
  pool.plan.bind fun planned =>
    (pool.perform planned.1).map fun next => { next with controller := planned.2 }

/-- This function puts a worker at its place. -/
def put (id : Nat) (worker : Worker Job) : Pool Job := { pool with workers := pool.workers.set id worker }

/-- The map keeps an existing entry of the same key. -/
def register (id : Nat) : List (Nat × Nat) :=
  if pool.mMap.any (fun entry => entry.1 = id) then pool.mMap else (id, id) :: pool.mMap

/-- A waiting `Stop` is woken by `notify_one`. -/
def notifyStop : Controller Job :=
  match pool.controller with
  | .stopWaiting => .stopWoken false
  | other => other

/-- `DeleteTask::operator()` uses the result of `find` without a check. -/
def deleteTask (id : Nat) (worker : Worker Job) : Pool Job :=
  match pool.mMap.find? fun entry => entry.1 = id with
  | none => pool.put id ⟨worker.iAmAlive, .undefined⟩
  | some entry =>
      { pool with
        workers := (pool.workers.set id ⟨worker.iAmAlive, .test⟩).modify entry.2 fun other => ⟨false, other.place⟩
        mMap := pool.mMap.eraseP fun entry => entry.1 = id
        mNumOfThreads := pool.mNumOfThreads - 1
        controller := pool.notifyStop
        deleted := id :: pool.deleted }

/-- A worker takes its next step, and each lock waits for a free mutex. -/
def work (id : Nat) (worker : Worker Job) (place : Nat) : Option (Pool Job) :=
  match worker.place with
  | .register =>
      if pool.mMutex.isNone then some { pool.put id ⟨worker.iAmAlive, .test⟩ with mMap := pool.register id }
      else none
  | .test => some (pool.put id ⟨worker.iAmAlive, if worker.iAmAlive then .dequeue else .finished⟩)
  | .dequeue =>
      (popTop compareFunctor pool.mWq place).map fun popped =>
        { pool.put id ⟨worker.iAmAlive, .execute popped.1⟩ with mWq := popped.2 }
  | .execute (.user job priority) =>
      some { pool.put id ⟨worker.iAmAlive, .test⟩ with executed := (job, priority) :: pool.executed }
  | .execute .pause | .woken =>
      if pool.mMutex.isNone then
        some { pool.put id ⟨worker.iAmAlive, .checkPaused⟩ with mMutex := some (.worker id) }
      else none
  | .execute .delete => if pool.mMutex.isNone then some (pool.deleteTask id worker) else none
  | .checkPaused => some (pool.put id ⟨worker.iAmAlive, if pool.mIsPaused then .sleep else .unlock⟩)
  | .sleep => some { pool.put id ⟨worker.iAmAlive, .waiting⟩ with mMutex := none }
  | .unlock => some { pool.put id ⟨worker.iAmAlive, .test⟩ with mMutex := none }
  | .waiting | .finished | .undefined => none

end Pool

/-- This function takes one step of the pool. -/
def poolStep (pool : Pool Job) : Action Job → Option (Pool Job)
  | .call operation =>
      match pool.controller with
      | .idle => some { pool with controller := operation.begin, calls := operation :: pool.calls }
      | _ => none
  | .control => pool.control
  | .stopTimeOut =>
      match pool.controller with
      | .stopWaiting | .stopWoken false => some { pool with controller := .stopWoken true }
      | _ => none
  | .stopSpurious =>
      match pool.controller with
      | .stopWaiting => some { pool with controller := .stopWoken false }
      | _ => none
  | .work id place => (pool.workers[id]?).bind fun worker => pool.work id worker place
  | .spurious id =>
      (pool.workers[id]?).bind fun worker =>
        match worker.place with
        | .waiting => some (pool.put id ⟨worker.iAmAlive, .woken⟩)
        | _ => none

variable {pool : Pool Job} {id : Nat} {worker : Worker Job}

/-- This relation lists what a worker can do. -/
inductive Works (pool : Pool Job) (id : Nat) (worker : Worker Job) : Pool Job → Prop
  | register (stands : worker.place = .register) (free : pool.mMutex = none) :
      Works pool id worker { pool.put id ⟨worker.iAmAlive, .test⟩ with mMap := pool.register id }
  | test (stands : worker.place = .test) :
      Works pool id worker (pool.put id ⟨worker.iAmAlive, if worker.iAmAlive then .dequeue else .finished⟩)
  | dequeue (place : Nat) (task : Task Job) (rest : List (Task Job)) (stands : worker.place = .dequeue)
      (popped : popTop compareFunctor pool.mWq place = some (task, rest)) :
      Works pool id worker { pool.put id ⟨worker.iAmAlive, .execute task⟩ with mWq := rest }
  | user (job : Job) (priority : Priority) (stands : worker.place = .execute (.user job priority)) :
      Works pool id worker
        { pool.put id ⟨worker.iAmAlive, .test⟩ with executed := (job, priority) :: pool.executed }
  | lock (stands : worker.place = .execute .pause ∨ worker.place = .woken) (free : pool.mMutex = none) :
      Works pool id worker { pool.put id ⟨worker.iAmAlive, .checkPaused⟩ with mMutex := some (.worker id) }
  | delete (stands : worker.place = .execute .delete) (free : pool.mMutex = none) :
      Works pool id worker (pool.deleteTask id worker)
  | checkPaused (stands : worker.place = .checkPaused) :
      Works pool id worker (pool.put id ⟨worker.iAmAlive, if pool.mIsPaused then .sleep else .unlock⟩)
  | sleep (stands : worker.place = .sleep) :
      Works pool id worker { pool.put id ⟨worker.iAmAlive, .waiting⟩ with mMutex := none }
  | unlock (stands : worker.place = .unlock) :
      Works pool id worker { pool.put id ⟨worker.iAmAlive, .test⟩ with mMutex := none }
  | spurious (stands : worker.place = .waiting) :
      Works pool id worker (pool.put id ⟨worker.iAmAlive, .woken⟩)

/-- Each step of a worker is one of the listed moves. -/
theorem works_of_work {place : Nat} {next : Pool Job} (worked : pool.work id worker place = some next) :
    Works pool id worker next := by
  unfold Pool.work at worked
  split at worked
  · next stands =>
      split at worked
      · next free => exact Option.some.inj worked ▸ .register stands (Option.isNone_iff_eq_none.mp free)
      · cases worked
  · next stands => exact Option.some.inj worked ▸ .test stands
  · next stands =>
      obtain ⟨⟨task, rest⟩, popped, rfl⟩ := Option.map_eq_some_iff.mp worked
      exact .dequeue place task rest stands popped
  · next job priority stands => exact Option.some.inj worked ▸ .user job priority stands
  · next stands =>
      split at worked
      · next free => exact Option.some.inj worked ▸ .lock (Or.inl stands) (Option.isNone_iff_eq_none.mp free)
      · cases worked
  · next stands =>
      split at worked
      · next free => exact Option.some.inj worked ▸ .lock (Or.inr stands) (Option.isNone_iff_eq_none.mp free)
      · cases worked
  · next stands =>
      split at worked
      · next free => exact Option.some.inj worked ▸ .delete stands (Option.isNone_iff_eq_none.mp free)
      · cases worked
  · next stands => exact Option.some.inj worked ▸ .checkPaused stands
  · next stands => exact Option.some.inj worked ▸ .sleep stands
  · next stands => exact Option.some.inj worked ▸ .unlock stands
  · cases worked
  · cases worked
  · cases worked

/-- This relation lists the next effect of each operation and the step after it. -/
inductive Plans (pool : Pool Job) : Effect Job → Controller Job → Prop
  | addTask (job : Job) (priority : Priority) (stands : pool.controller = .addTask job priority) :
      Plans pool (.enqueue (.user job priority)) .idle
  | pauseSet (stands : pool.controller = .pauseSet) : Plans pool (.setPaused true) (.pauseLoop 0)
  | pauseTask (i : Nat) (stands : pool.controller = .pauseLoop i) (more : i < pool.mNumOfThreads) :
      Plans pool (.enqueue .pause) (.pauseLoop (i + 1))
  | pauseEnd (i : Nat) (stands : pool.controller = .pauseLoop i) (done : ¬ i < pool.mNumOfThreads) :
      Plans pool .nothing .idle
  | resumeClear (stands : pool.controller = .resumeClear) : Plans pool (.setPaused false) .resumeNotify
  | resumeNotify (stands : pool.controller = .resumeNotify) : Plans pool .notifyAll .idle
  | stopLock (stands : pool.controller = .stopLock) : Plans pool .lock .stopBroadcast
  | stopBroadcast (stands : pool.controller = .stopBroadcast) : Plans pool .notifyAll (.stopLoop 0)
  | stopTask (i : Nat) (stands : pool.controller = .stopLoop i) (more : i < pool.mNumOfThreads) :
      Plans pool (.enqueue .delete) (.stopLoop (i + 1))
  | stopTasksEnd (i : Nat) (stands : pool.controller = .stopLoop i) (done : ¬ i < pool.mNumOfThreads) :
      Plans pool .nothing .stopTest
  | stopDone (stands : pool.controller = .stopTest) (none : pool.mNumOfThreads = 0) :
      Plans pool .nothing (.stopLeave false)
  | stopWait (stands : pool.controller = .stopTest) (some : pool.mNumOfThreads ≠ 0) :
      Plans pool .unlock .stopWaiting
  | stopRetest (stands : pool.controller = .stopWoken false) : Plans pool .lock .stopTest
  | stopGiveUp (stands : pool.controller = .stopWoken true) : Plans pool .lock (.stopLeave true)
  | stopLeave (timedOut : Bool) (stands : pool.controller = .stopLeave timedOut) : Plans pool .unlock .idle
  | grow (new : Int) (stands : pool.controller = .resizeTest new) (less : pool.mNumOfThreads < new) :
      Plans pool .nothing (.resizeGrow new)
  | shrink (new : Int) (stands : pool.controller = .resizeTest new) (enough : ¬ pool.mNumOfThreads < new) :
      Plans pool .nothing (.resizeShrink new)
  | growPaused (new : Int) (stands : pool.controller = .resizeGrow new) (paused : pool.mIsPaused = true) :
      Plans pool .nothing
        (.resizePause (new - pool.mNumOfThreads).toNat (new - pool.mNumOfThreads).toNat)
  | growUnpaused (new : Int) (stands : pool.controller = .resizeGrow new) (unpaused : pool.mIsPaused = false) :
      Plans pool .nothing (.resizeCreate (new - pool.mNumOfThreads).toNat)
  | growPauseTask (diff left : Nat) (stands : pool.controller = .resizePause diff (left + 1)) :
      Plans pool (.enqueue .pause) (.resizePause diff left)
  | growPauseEnd (diff : Nat) (stands : pool.controller = .resizePause diff 0) :
      Plans pool .nothing (.resizeCreate diff)
  | create (left : Nat) (stands : pool.controller = .resizeCreate (left + 1)) :
      Plans pool .createThread (.resizeIncrement left)
  | createEnd (stands : pool.controller = .resizeCreate 0) : Plans pool .nothing .idle
  | increment (left : Nat) (stands : pool.controller = .resizeIncrement left) :
      Plans pool (.count 1) (.resizeCreate left)
  | shrinkStart (new : Int) (stands : pool.controller = .resizeShrink new) :
      Plans pool .nothing (.resizeDelete (pool.mNumOfThreads - new).toNat)
  | delete (left : Nat) (stands : pool.controller = .resizeDelete (left + 1)) :
      Plans pool (.enqueue .delete) (.resizeDecrement left)
  | deleteEnd (stands : pool.controller = .resizeDelete 0) : Plans pool .nothing .idle
  | decrement (left : Nat) (stands : pool.controller = .resizeDecrement left) :
      Plans pool (.count (-1)) (.resizeDelete left)

/-- Each planned step is one of the listed ones. -/
theorem plans_of_plan {planned : Effect Job × Controller Job} (found : pool.plan = some planned) :
    Plans pool planned.1 planned.2 := by
  unfold Pool.plan at found
  split at found
  · cases found
  · next job priority stands => exact Option.some.inj found ▸ .addTask job priority stands
  · next stands => exact Option.some.inj found ▸ .pauseSet stands
  · next i stands =>
      rw [← Option.some.inj found]
      split
      · next more => exact .pauseTask i stands more
      · next done => exact .pauseEnd i stands done
  · next stands => exact Option.some.inj found ▸ .resumeClear stands
  · next stands => exact Option.some.inj found ▸ .resumeNotify stands
  · next stands => exact Option.some.inj found ▸ .stopLock stands
  · next stands => exact Option.some.inj found ▸ .stopBroadcast stands
  · next i stands =>
      rw [← Option.some.inj found]
      split
      · next more => exact .stopTask i stands more
      · next done => exact .stopTasksEnd i stands done
  · next stands =>
      rw [← Option.some.inj found]
      split
      · next none => exact .stopDone stands none
      · next some => exact .stopWait stands some
  · cases found
  · next timedOut stands =>
      rw [← Option.some.inj found]
      cases timedOut with
      | false => exact .stopRetest stands
      | true => exact .stopGiveUp stands
  · next timedOut stands => exact Option.some.inj found ▸ .stopLeave timedOut stands
  · next new stands =>
      rw [← Option.some.inj found]
      split
      · next less => exact .grow new stands less
      · next enough => exact .shrink new stands enough
  · next new stands =>
      rw [← Option.some.inj found]
      split
      · next paused => exact .growPaused new stands paused
      · next unpaused => exact .growUnpaused new stands (Bool.not_eq_true _ ▸ unpaused)
  · next diff stands => exact Option.some.inj found ▸ .growPauseEnd diff stands
  · next diff left stands => exact Option.some.inj found ▸ .growPauseTask diff left stands
  · next stands => exact Option.some.inj found ▸ .createEnd stands
  · next left stands => exact Option.some.inj found ▸ .create left stands
  · next left stands => exact Option.some.inj found ▸ .increment left stands
  · next new stands => exact Option.some.inj found ▸ .shrinkStart new stands
  · next stands => exact Option.some.inj found ▸ .deleteEnd stands
  · next left stands => exact Option.some.inj found ▸ .delete left stands
  · next left stands => exact Option.some.inj found ▸ .decrement left stands

theorem plan_of_plans {effect : Effect Job} {after : Controller Job} (plans : Plans pool effect after) :
    pool.plan = some (effect, after) := by
  cases plans <;> simp [Pool.plan, *]

/-- The lock takes the free mutex for the controlling thread. -/
theorem Pool.perform_lock {base : Pool Job} (performed : pool.perform .lock = some base) :
    pool.mMutex = none ∧ base = { pool with mMutex := some .controller } := by
  simp only [Pool.perform] at performed
  split at performed
  · next free => exact ⟨Option.isNone_iff_eq_none.mp free, (Option.some.inj performed).symm⟩
  · cases performed

/-- An effect never changes the map or the histories of executed tasks, deletions and calls. -/
theorem Pool.kept_of_perform {effect : Effect Job} {base : Pool Job} (performed : pool.perform effect = some base) :
    base.mMap = pool.mMap ∧ base.executed = pool.executed ∧ base.deleted = pool.deleted ∧ base.calls = pool.calls := by
  cases effect with
  | lock =>
      obtain ⟨_, rfl⟩ := perform_lock performed
      exact ⟨rfl, rfl, rfl, rfl⟩
  | nothing | enqueue | setPaused | notifyAll | unlock | createThread | count =>
      obtain rfl := Option.some.inj performed
      exact ⟨rfl, rfl, rfl, rfl⟩

/-- An effect notifies all workers, adds a new one, or leaves them. -/
theorem Pool.workers_of_perform {effect : Effect Job} {base : Pool Job}
    (performed : pool.perform effect = some base) :
    (effect ≠ .notifyAll ∧ effect ≠ .createThread ∧ base.workers = pool.workers) ∨
      (effect = .notifyAll ∧ base.workers = pool.workers.map Worker.notified) ∨
        (effect = .createThread ∧ base.workers = pool.workers ++ [.new]) := by
  cases effect with
  | lock =>
      obtain ⟨_, rfl⟩ := perform_lock performed
      exact Or.inl ⟨by simp, by simp, rfl⟩
  | nothing | enqueue | setPaused | unlock | count =>
      obtain rfl := Option.some.inj performed
      exact Or.inl ⟨by simp, by simp, rfl⟩
  | notifyAll =>
      obtain rfl := Option.some.inj performed
      exact Or.inr (Or.inl ⟨rfl, rfl⟩)
  | createThread =>
      obtain rfl := Option.some.inj performed
      exact Or.inr (Or.inr ⟨rfl, rfl⟩)

/-- A worker after an effect was there before, was there before a notification, or is new. -/
theorem Pool.getElem?_of_perform {effect : Effect Job} {base : Pool Job} {id : Nat} {worker : Worker Job}
    (performed : pool.perform effect = some base) (there : base.workers[id]? = some worker) :
    (∃ old, pool.workers[id]? = some old ∧ (worker = old ∨ worker = old.notified)) ∨
      id = pool.workers.length ∧ worker = .new := by
  rcases workers_of_perform performed with ⟨-, -, same⟩ | ⟨-, notified⟩ | ⟨-, created⟩
  · rw [same] at there
    exact Or.inl ⟨worker, there, Or.inl rfl⟩
  · rw [notified, List.getElem?_map] at there
    obtain ⟨old, present, rfl⟩ := Option.map_eq_some_iff.mp there
    exact Or.inl ⟨old, present, Or.inr rfl⟩
  · rw [created] at there
    by_cases inside : id < pool.workers.length
    · rw [List.getElem?_append_left inside] at there
      exact Or.inl ⟨worker, there, Or.inl rfl⟩
    · have bound := (List.getElem?_eq_some_iff.mp there).1
      rw [List.length_append, List.length_singleton] at bound
      have last : id = pool.workers.length := by omega
      subst last
      exact Or.inr ⟨rfl, by simpa using there.symm⟩

/-- This relation lists what a step of the pool can do. -/
inductive PoolMoves (pool : Pool Job) : Action Job → Pool Job → Prop
  | call (operation : Operation Job) (stands : pool.controller = .idle) :
      PoolMoves pool (.call operation)
        { pool with controller := operation.begin, calls := operation :: pool.calls }
  | control (effect : Effect Job) (after : Controller Job) (base : Pool Job)
      (plans : Plans pool effect after) (performed : pool.perform effect = some base) :
      PoolMoves pool .control { base with controller := after }
  | stopTimeOut (stands : pool.controller = .stopWaiting ∨ pool.controller = .stopWoken false) :
      PoolMoves pool .stopTimeOut { pool with controller := .stopWoken true }
  | stopSpurious (stands : pool.controller = .stopWaiting) :
      PoolMoves pool .stopSpurious { pool with controller := .stopWoken false }
  | work (id place : Nat) (worker : Worker Job) (next : Pool Job) (present : pool.workers[id]? = some worker)
      (works : Works pool id worker next) : PoolMoves pool (.work id place) next
  | spurious (id : Nat) (worker : Worker Job) (next : Pool Job) (present : pool.workers[id]? = some worker)
      (works : Works pool id worker next) : PoolMoves pool (.spurious id) next

/-- Each step of the pool is one of the listed moves. -/
theorem poolMoves_of_poolStep {action : Action Job} {next : Pool Job} (stepped : poolStep pool action = some next) :
    PoolMoves pool action next := by
  cases action with
  | call operation =>
      simp only [poolStep] at stepped
      split at stepped
      · next stands => exact Option.some.inj stepped ▸ .call operation stands
      · cases stepped
  | control =>
      obtain ⟨planned, found, continued⟩ := Option.bind_eq_some_iff.mp stepped
      obtain ⟨base, performed, rfl⟩ := Option.map_eq_some_iff.mp continued
      exact .control planned.1 planned.2 base (plans_of_plan found) performed
  | stopTimeOut =>
      simp only [poolStep] at stepped
      split at stepped
      · next stands => exact Option.some.inj stepped ▸ .stopTimeOut (Or.inl stands)
      · next stands => exact Option.some.inj stepped ▸ .stopTimeOut (Or.inr stands)
      · cases stepped
  | stopSpurious =>
      simp only [poolStep] at stepped
      split at stepped
      · next stands => exact Option.some.inj stepped ▸ .stopSpurious stands
      · cases stepped
  | work id place =>
      obtain ⟨worker, present, worked⟩ := Option.bind_eq_some_iff.mp stepped
      exact .work id place worker next present (works_of_work worked)
  | spurious id =>
      obtain ⟨worker, present, worked⟩ := Option.bind_eq_some_iff.mp stepped
      split at worked
      · next stands => exact Option.some.inj worked ▸ .spurious id worker _ present (.spurious stands)
      · cases worked

end

end DistributedNas.ThreadPool
