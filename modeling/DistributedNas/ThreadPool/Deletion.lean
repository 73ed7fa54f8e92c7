import DistributedNas.ThreadPool.Mutex

/-
This file counts the `DeleteTask` objects of the pool: what each effect and each worker changes.
-/

namespace DistributedNas.ThreadPool
open Library
open Engine (Priority)

section
variable {Job : Type*}

def Task.isDelete : Task Job → Bool
  | .delete => true
  | _ => false

/-- A worker has taken a `DeleteTask` and has not yet executed it. -/
def Worker.deletes (worker : Worker Job) : Bool :=
  match worker.place with
  | .execute task => task.isDelete
  | _ => false

/-- These `DeleteTask` objects are queued or executing. -/
def Pool.outstanding (pool : Pool Job) : Nat := pool.mWq.countP Task.isDelete + pool.workers.countP Worker.deletes

def Operation.isStop : Operation Job → Bool
  | .stop => true
  | _ => false

def Operation.resizes : Operation Job → Bool
  | .setThreadNumber _ => true
  | _ => false

/-- `Stop` was called at least once. -/
def Pool.stopCalled (pool : Pool Job) : Bool := pool.calls.any Operation.isStop

/-- An effect enqueues at most one `DeleteTask`. -/
def Effect.ordered : Effect Job → Nat
  | .enqueue task => task.isDelete.toNat
  | _ => 0

def Effect.created : Effect Job → Nat
  | .createThread => 1
  | _ => 0

def Effect.change : Effect Job → Int
  | .count change => change
  | _ => 0

/-- The counts follow the effect. -/
structure Pool.Performed (pool : Pool Job) (effect : Effect Job) (base : Pool Job) : Prop where
  deleted : base.deleted = pool.deleted
  calls : base.calls = pool.calls
  number : base.mNumOfThreads = pool.mNumOfThreads + effect.change
  length : base.workers.length = pool.workers.length + effect.created
  live : base.live = pool.live + effect.created
  executing : base.workers.countP Worker.deletes = pool.workers.countP Worker.deletes
  outstanding : base.outstanding = pool.outstanding + effect.ordered

/-- The counts follow the `DeleteTask` objects that a step of a worker completes. -/
structure Pool.Worked (pool : Pool Job) (ids : List Nat) (next : Pool Job) : Prop where
  deleted : next.deleted = ids ++ pool.deleted
  number : next.mNumOfThreads + ids.length = pool.mNumOfThreads
  length : next.workers.length = pool.workers.length
  live : next.live + ids.length = pool.live
  outstanding : next.outstanding + ids.length = pool.outstanding
  calls : next.calls = pool.calls
  paused : next.mIsPaused = pool.mIsPaused
  controller : next.controller = pool.controller ∨
    pool.controller = .stopWaiting ∧ next.controller = .stopWoken false
  awake : next.controller = .stopWaiting → ids = []
  free : ids ≠ [] → pool.mMutex = none

variable {pool next base : Pool Job} {id : Nat} {worker : Worker Job}

@[simp] theorem Worker.notified_deletes : worker.notified.deletes = worker.deletes := by
  unfold Worker.notified
  split
  · next stands => simp [deletes, stands]
  · rfl

namespace Pool

theorem performed_of_perform {effect : Effect Job} (performed : pool.perform effect = some base) :
    pool.Performed effect base := by
  cases effect with
  | nothing | setPaused | unlock =>
      obtain rfl := Option.some.inj performed
      exact ⟨rfl, rfl, (add_zero _).symm, rfl, rfl, rfl, rfl⟩
  | count change =>
      obtain rfl := Option.some.inj performed
      exact ⟨rfl, rfl, rfl, rfl, rfl, rfl, rfl⟩
  | lock =>
      obtain ⟨_, rfl⟩ := perform_lock performed
      exact ⟨rfl, rfl, (add_zero _).symm, rfl, rfl, rfl, rfl⟩
  | enqueue task =>
      obtain rfl := Option.some.inj performed
      refine ⟨rfl, rfl, (add_zero _).symm, rfl, rfl, rfl, ?_⟩
      simp only [outstanding, Effect.ordered, List.countP_cons]
      cases task.isDelete <;> simp [add_right_comm]
  | notifyAll =>
      obtain rfl := Option.some.inj performed
      have executing : (pool.workers.map Worker.notified).countP Worker.deletes =
          pool.workers.countP Worker.deletes := by
        simp [List.countP_map, Function.comp_def]
      refine ⟨rfl, rfl, (add_zero _).symm, by simp [Effect.created], ?_, executing, ?_⟩
      · simp [live, List.countP_map, Function.comp_def, Effect.created]
      · simp only [outstanding, executing, Effect.ordered, add_zero]
  | createThread =>
      obtain rfl := Option.some.inj performed
      have executing : (pool.workers ++ [Worker.new]).countP Worker.deletes =
          pool.workers.countP Worker.deletes := by
        simp [Worker.deletes, Worker.new]
      refine ⟨rfl, rfl, (add_zero _).symm, by simp [Effect.created], ?_, executing, ?_⟩
      · simp [live, Worker.new, Effect.created]
      · simp only [outstanding, executing, Effect.ordered, add_zero]

/-- A step of a worker that completes no `DeleteTask` leaves the counts. -/
theorem worked_of_set (present : pool.workers[id]? = some worker) {new : Worker Job}
    (workers : next.workers = pool.workers.set id new) (alive : new.iAmAlive = worker.iAmAlive)
    (deleted : next.deleted = pool.deleted) (number : next.mNumOfThreads = pool.mNumOfThreads)
    (calls : next.calls = pool.calls) (paused : next.mIsPaused = pool.mIsPaused)
    (controller : next.controller = pool.controller)
    (outstanding : next.mWq.countP Task.isDelete + new.deletes.toNat =
      pool.mWq.countP Task.isDelete + worker.deletes.toNat) : pool.Worked [] next where
  deleted := deleted
  number := by simp [number]
  length := by simp [workers]
  live := by
    have counts := countP_set_add Worker.iAmAlive present new
    simp only [live, workers, List.length_nil]
    rw [alive] at counts
    omega
  outstanding := by
    have counts := countP_set_add Worker.deletes present new
    simp only [Pool.outstanding, workers, List.length_nil]
    omega
  calls := calls
  paused := paused
  controller := Or.inl controller
  awake := fun _ => rfl
  free := fun absent => absurd rfl absent

theorem Registered.worked_delete (registered : pool.Registered) (present : pool.workers[id]? = some worker)
    (stands : worker.place = .execute .delete) (free : pool.mMutex = none) :
    pool.Worked [id] (pool.deleteTask id worker) := by
  have fits := registered.fits id worker present
  have alive := fits.alive (fits.notMem (by simp [stands]) (by simp [stands]))
  rw [(registered.deleteTask_eq present stands).2]
  have living := countP_set_add Worker.iAmAlive present ⟨false, .test⟩
  have executing := countP_set_add Worker.deletes present ⟨false, .test⟩
  have took : worker.deletes = true := by simp [Worker.deletes, stands, Task.isDelete]
  have done : (⟨false, .test⟩ : Worker Job).deletes = false := rfl
  simp only [alive, Bool.toNat_true, Bool.toNat_false] at living
  simp only [took, done, Bool.toNat_true, Bool.toNat_false] at executing
  constructor
  · rfl
  · simp
  · simp
  · simp only [live, List.length_singleton]
    omega
  · simp only [Pool.outstanding, List.length_singleton]
    omega
  · rfl
  · rfl
  · unfold notifyStop
    split
    · next waits => exact Or.inr ⟨waits, rfl⟩
    · exact Or.inl rfl
  · intro waits
    change pool.notifyStop = .stopWaiting at waits
    unfold notifyStop at waits
    split at waits
    · cases waits
    · next awake => exact absurd waits awake
  · exact fun _ => free

/-- Each step of a worker completes at most one `DeleteTask`. -/
theorem Registered.worked (registered : pool.Registered) (present : pool.workers[id]? = some worker)
    (works : Works pool id worker next) : ∃ ids, pool.Worked ids next := by
  cases works with
  | delete stands free => exact ⟨[id], registered.worked_delete present stands free⟩
  | dequeue place task rest stands popped =>
      refine ⟨[], worked_of_set present rfl rfl rfl rfl rfl rfl rfl ?_⟩
      rw [(popTop_eq_some popped).2.countP_eq, List.countP_cons]
      simp only [Worker.deletes, stands]
      cases task.isDelete <;> simp
  | lock stands free =>
      refine ⟨[], worked_of_set present rfl rfl rfl rfl rfl rfl rfl ?_⟩
      cases stands with
      | inl stands | inr stands => simp [Worker.deletes, stands, Task.isDelete, put]
  | test stands | checkPaused stands =>
      refine ⟨[], worked_of_set present rfl rfl rfl rfl rfl rfl rfl ?_⟩
      split <;> simp [Worker.deletes, stands, put]
  | register stands | user job priority stands | sleep stands | unlock stands | spurious stands =>
      refine ⟨[], worked_of_set present rfl rfl rfl rfl rfl rfl rfl ?_⟩
      simp [Worker.deletes, stands, put, Task.isDelete]

theorem Performed.stopCalled {effect : Effect Job} (counts : pool.Performed effect base) :
    base.stopCalled = pool.stopCalled := by
  rw [Pool.stopCalled, counts.calls, ← Pool.stopCalled]

theorem Worked.stopCalled {ids : List Nat} (worked : pool.Worked ids next) :
    next.stopCalled = pool.stopCalled := by
  rw [Pool.stopCalled, worked.calls, ← Pool.stopCalled]

/-- No `DeleteTask` is completed while the controlling thread holds the mutex. -/
theorem Worked.length_of_holds {ids : List Nat} (worked : pool.Worked ids next) (guarded : pool.Guarded)
    (holds : pool.controller.holds) : ids.length = 0 := by
  rw [List.length_eq_zero_iff]
  by_contra some
  have owned := guarded.controller holds
  rw [worked.free some] at owned
  cases owned

end Pool
end

end DistributedNas.ThreadPool
