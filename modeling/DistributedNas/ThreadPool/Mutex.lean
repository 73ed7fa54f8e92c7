import DistributedNas.ThreadPool.Registry

/-
This file proves what each run keeps: one thread holds `m_mutex`, and no task of the user is lost or duplicated.
-/

namespace DistributedNas.ThreadPool
open Library
open Engine (Priority)

section
variable {Job : Type*}

/-- The controlling thread holds the mutex inside `Stop`, but not while it waits. -/
def Controller.holds : Controller Job → Bool
  | .stopBroadcast | .stopLoop _ | .stopTest | .stopLeave _ => true
  | _ => false

/-- A worker holds the mutex inside `LockCV`, but not while it waits. -/
def Place.holds : Place Job → Bool
  | .checkPaused | .sleep | .unlock => true
  | _ => false

/-- The thread that holds the mutex is its owner. -/
structure Pool.Guarded (pool : Pool Job) : Prop where
  controller : pool.controller.holds → pool.mMutex = some .controller
  worker : ∀ id (worker : Worker Job), pool.workers[id]? = some worker → worker.place.holds →
    pool.mMutex = some (.worker id)

/-- A worker may hold a task of the user that it has not yet executed. -/
def Worker.inHand (worker : Worker Job) : Multiset (Job × Priority) :=
  match worker.place with
  | .execute task => task.jobs
  | _ => 0

/-- Each added task of the user is queued, in the hand of a worker, or executed. -/
def Pool.Conserved (pool : Pool Job) : Prop :=
  (pool.added : Multiset (Job × Priority)) =
    (pool.mWq.flatMap Task.jobs : List (Job × Priority)) + (pool.workers.map Worker.inHand).sum + pool.executed

variable {pool next base : Pool Job} {id : Nat} {worker : Worker Job}

/-- An operation locks the mutex, releases it from inside, or keeps it. -/
theorem Plans.holds {effect : Effect Job} {after : Controller Job} (plans : Plans pool effect after) :
    (effect = .unlock → pool.controller.holds ∧ after.holds = false) ∧
      (effect ≠ .lock → after.holds → pool.controller.holds) := by
  cases plans <;> simp [*, Controller.holds]

@[simp] theorem Worker.notified_holds : worker.notified.place.holds = worker.place.holds := by
  unfold Worker.notified
  split
  · next stands => simp [stands, Place.holds]
  · rfl

@[simp] theorem Pool.notifyStop_holds : pool.notifyStop.holds = pool.controller.holds := by
  unfold Pool.notifyStop
  split
  · next stands => simp [stands, Controller.holds]
  · rfl

namespace Pool

/-- The invariant is about the mutex, the controlling thread and the places of the workers. -/
theorem Guarded.frame (guarded : pool.Guarded) (workers : next.workers = pool.workers)
    (mutex : next.mMutex = pool.mMutex) (controller : next.controller.holds → pool.controller.holds) :
    next.Guarded where
  controller := by
    intro holds
    rw [mutex]
    exact guarded.controller (controller holds)
  worker := by
    intro id worker present holds
    rw [mutex]
    rw [workers] at present
    exact guarded.worker id worker present holds

/-- One worker moves and keeps the mutex as it is. -/
theorem Guarded.moved (guarded : pool.Guarded) (present : pool.workers[id]? = some worker) {new : Worker Job}
    (workers : next.workers = pool.workers.set id new) (mutex : next.mMutex = pool.mMutex)
    (controller : next.controller.holds = pool.controller.holds) (keeps : new.place.holds → worker.place.holds) :
    next.Guarded where
  controller := by
    intro holds
    rw [mutex]
    exact guarded.controller (controller ▸ holds)
  worker := by
    intro other found there holds
    rw [mutex]
    rw [workers] at there
    obtain ⟨rfl, rfl⟩ | ⟨_, before⟩ := getElem?_set_cases there
    · exact guarded.worker other worker present (keeps holds)
    · exact guarded.worker other found before holds

/-- A worker acquires the free mutex. -/
theorem Guarded.lock (guarded : pool.Guarded) (free : pool.mMutex = none) {new : Worker Job}
    (workers : next.workers = pool.workers.set id new) (mutex : next.mMutex = some (.worker id))
    (controller : next.controller = pool.controller) : next.Guarded where
  controller := by
    intro holds
    have owned := guarded.controller (controller ▸ holds)
    rw [free] at owned
    cases owned
  worker := by
    intro other found there holds
    rw [workers] at there
    obtain ⟨rfl, rfl⟩ | ⟨_, before⟩ := getElem?_set_cases there
    · exact mutex
    · have owned := guarded.worker other found before holds
      rw [free] at owned
      cases owned

/-- A worker that holds the mutex releases it. -/
theorem Guarded.release (guarded : pool.Guarded) (present : pool.workers[id]? = some worker)
    (held : worker.place.holds) {new : Worker Job} (workers : next.workers = pool.workers.set id new)
    (free : new.place.holds = false) (controller : next.controller = pool.controller) : next.Guarded where
  controller := by
    intro holds
    have owned := guarded.controller (controller ▸ holds)
    rw [guarded.worker id worker present held] at owned
    cases owned
  worker := by
    intro other found there holds
    rw [workers] at there
    obtain ⟨rfl, rfl⟩ | ⟨apart, before⟩ := getElem?_set_cases there
    · rw [free] at holds
      cases holds
    · have owned := guarded.worker other found before holds
      rw [guarded.worker id worker present held, Option.some.injEq, Owner.worker.injEq] at owned
      exact absurd owned.symm apart

theorem Guarded.works (guarded : pool.Guarded) (registered : pool.Registered)
    (present : pool.workers[id]? = some worker) (works : Works pool id worker next) : next.Guarded := by
  cases works with
  | register stands free | dequeue place task rest stands popped | user job priority stands | spurious stands =>
      refine guarded.moved present rfl rfl rfl ?_
      simp [Place.holds]
  | test stands =>
      refine guarded.moved present rfl rfl rfl ?_
      split <;> simp [Place.holds]
  | checkPaused stands =>
      refine guarded.moved present rfl rfl rfl ?_
      simp [stands, Place.holds]
  | lock stands free => exact guarded.lock free rfl rfl rfl
  | sleep stands | unlock stands => exact guarded.release present (by simp [stands, Place.holds]) rfl rfl rfl
  | delete stands free =>
      rw [(registered.deleteTask_eq present stands).2]
      refine guarded.moved present rfl rfl notifyStop_holds ?_
      simp [Place.holds]

theorem Guarded.control (guarded : pool.Guarded) {effect : Effect Job} {after : Controller Job}
    (plans : Plans pool effect after) (performed : pool.perform effect = some base) :
    Guarded { base with controller := after } := by
  obtain ⟨releases, keeps⟩ := plans.holds
  cases effect with
  | nothing | enqueue task | setPaused paused | count change =>
      obtain rfl := Option.some.inj performed
      exact guarded.frame rfl rfl (keeps (by simp))
  | lock =>
      obtain ⟨free, rfl⟩ := perform_lock performed
      constructor
      · exact fun _ => rfl
      · intro other found there holds
        have owned := guarded.worker other found there holds
        rw [free] at owned
        cases owned
  | unlock =>
      obtain rfl := Option.some.inj performed
      obtain ⟨held, released⟩ := releases rfl
      constructor
      · intro holds
        rw [released] at holds
        cases holds
      · intro other found there holds
        have owned := guarded.worker other found there holds
        rw [guarded.controller held] at owned
        cases owned
  | notifyAll | createThread =>
      obtain rfl := Option.some.inj performed
      constructor
      · exact fun holds => guarded.controller (keeps (by simp) holds)
      · intro other found there holds
        rcases getElem?_of_perform performed there with ⟨old, present, rfl | rfl⟩ | ⟨-, rfl⟩
        · exact guarded.worker other found present holds
        · exact guarded.worker other old present (Worker.notified_holds ▸ holds)
        · cases holds

theorem Guarded.step (guarded : pool.Guarded) (registered : pool.Registered) {action : Action Job}
    (moves : PoolMoves pool action next) : next.Guarded := by
  cases moves with
  | call operation stands =>
      refine guarded.frame rfl rfl ?_
      cases operation <;> simp [Operation.begin, Controller.holds]
  | control effect after base plans performed => exact guarded.control plans performed
  | stopTimeOut stands | stopSpurious stands =>
      refine guarded.frame rfl rfl ?_
      simp [Controller.holds]
  | work id place worker next present works | spurious id worker next present works =>
      exact guarded.works registered present works

theorem guarded_initial (numOfThreads : Nat) : (initial numOfThreads : Pool Job).Guarded where
  controller := by simp [initial, Controller.holds]
  worker := by
    intro id worker there holds
    obtain rfl : worker = Worker.new := List.eq_of_mem_replicate (List.mem_of_getElem? there)
    cases holds

/-- A worker moves a task of the user on, and nothing is lost on the way. -/
theorem Conserved.set (conserved : pool.Conserved) (present : pool.workers[id]? = some worker) {new : Worker Job}
    (workers : next.workers = pool.workers.set id new) (added : next.added = pool.added)
    (moved : ((next.mWq.flatMap Task.jobs : List (Job × Priority)) : Multiset (Job × Priority)) + new.inHand +
      next.executed = (pool.mWq.flatMap Task.jobs : List (Job × Priority)) + worker.inHand + pool.executed) :
    next.Conserved := by
  have hands := sum_map_set Worker.inHand present new
  rw [← workers] at hands
  have before : (pool.added : Multiset (Job × Priority)) = _ := conserved
  change (next.added : Multiset (Job × Priority)) = _
  apply add_right_cancel (b := worker.inHand)
  calc (next.added : Multiset (Job × Priority)) + worker.inHand
      = (pool.workers.map Worker.inHand).sum +
          ((pool.mWq.flatMap Task.jobs : List (Job × Priority)) + worker.inHand + pool.executed) := by
        rw [added, before]
        abel
    _ = (pool.workers.map Worker.inHand).sum + new.inHand +
          ((next.mWq.flatMap Task.jobs : List (Job × Priority)) + next.executed) := by
        rw [← moved]
        abel
    _ = (next.mWq.flatMap Task.jobs : List (Job × Priority)) + (next.workers.map Worker.inHand).sum +
          next.executed + worker.inHand := by
        rw [← hands]
        abel

theorem Conserved.works (conserved : pool.Conserved) (registered : pool.Registered)
    (present : pool.workers[id]? = some worker) (works : Works pool id worker next) : next.Conserved := by
  cases works with
  | register stands free | sleep stands | unlock stands | spurious stands =>
      refine conserved.set present rfl rfl ?_
      simp [Worker.inHand, stands, put]
  | test stands | checkPaused stands =>
      refine conserved.set present rfl rfl ?_
      split <;> simp [Worker.inHand, stands, put]
  | lock stands free =>
      refine conserved.set present rfl rfl ?_
      cases stands with
      | inl stands | inr stands => simp [Worker.inHand, stands, put, Task.jobs]
  | dequeue place task rest stands popped =>
      refine conserved.set present rfl rfl ?_
      have taken := Multiset.coe_eq_coe.mpr ((popTop_eq_some popped).2.flatMap_right Task.jobs)
      simp only [Worker.inHand, stands, taken, List.flatMap_cons, ← Multiset.coe_add]
      abel
  | user job priority stands =>
      refine conserved.set present rfl rfl ?_
      simp only [Worker.inHand, stands, put, Task.jobs, add_zero, ← Multiset.cons_coe]
      rw [Multiset.coe_nil, add_assoc, Multiset.cons_add, zero_add]
  | delete stands free =>
      rw [(registered.deleteTask_eq present stands).2]
      refine conserved.set present rfl rfl ?_
      simp [Worker.inHand, stands, Task.jobs]

@[simp] theorem inHand_notified : worker.notified.inHand = worker.inHand := by
  unfold Worker.notified
  split
  · next stands => simp [Worker.inHand, stands]
  · rfl

theorem Conserved.perform (conserved : pool.Conserved) {effect : Effect Job}
    (performed : pool.perform effect = some base) : base.Conserved := by
  have before : (pool.added : Multiset (Job × Priority)) = _ := conserved
  cases effect with
  | nothing | setPaused | unlock | count =>
      obtain rfl := Option.some.inj performed
      exact conserved
  | lock =>
      obtain ⟨_, rfl⟩ := perform_lock performed
      exact conserved
  | enqueue task =>
      obtain rfl := Option.some.inj performed
      change ((task.jobs ++ pool.added : List (Job × Priority)) : Multiset (Job × Priority)) = _
      rw [← Multiset.coe_add, before, List.flatMap_cons, ← Multiset.coe_add]
      abel
  | notifyAll =>
      obtain rfl := Option.some.inj performed
      change (pool.added : Multiset (Job × Priority)) = _
      simp [before, Function.comp_def]
  | createThread =>
      obtain rfl := Option.some.inj performed
      change (pool.added : Multiset (Job × Priority)) = _
      simp [before, Worker.inHand, Worker.new]

theorem Conserved.step (conserved : pool.Conserved) (registered : pool.Registered) {action : Action Job}
    (moves : PoolMoves pool action next) : next.Conserved := by
  cases moves with
  | call | stopTimeOut | stopSpurious => exact conserved
  | control effect after base plans performed =>
      have performs := conserved.perform performed
      exact performs
  | work id place worker next present works | spurious id worker next present works =>
      exact conserved.works registered present works

theorem conserved_initial (numOfThreads : Nat) : (initial numOfThreads : Pool Job).Conserved := by
  simp [Conserved, initial, Worker.inHand, Worker.new]

/-- These facts hold in each run of any operations and workers. -/
structure Sound (pool : Pool Job) : Prop where
  registered : pool.Registered
  guarded : pool.Guarded
  conserved : pool.Conserved

theorem Sound.step (sound : pool.Sound) {action : Action Job} (moves : PoolMoves pool action next) : next.Sound where
  registered := sound.registered.step moves
  guarded := sound.guarded.step sound.registered moves
  conserved := sound.conserved.step sound.registered moves

theorem sound_initial (numOfThreads : Nat) : (initial numOfThreads : Pool Job).Sound where
  registered := registered_initial numOfThreads
  guarded := guarded_initial numOfThreads
  conserved := conserved_initial numOfThreads

end Pool
end

end DistributedNas.ThreadPool
