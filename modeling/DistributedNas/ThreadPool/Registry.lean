import DistributedNas.Library.Interleaving
import DistributedNas.Library.OrderedMap
import DistributedNas.ThreadPool.Pool

/-
This file proves that `m_map` lists the registered workers that have not executed a `DeleteTask`.
-/

namespace DistributedNas.ThreadPool
open Library

section
variable {Job : Type*}

/-- This is the number of live workers. -/
def Pool.live (pool : Pool Job) : Nat := pool.workers.countP Worker.iAmAlive

/-- A worker has registered when it is past `RegisterFunctor`. -/
def Pool.HasRegistered (pool : Pool Job) (id : Nat) : Prop :=
  ∃ worker, pool.workers[id]? = some worker ∧ worker.place ≠ .register

/-- The map has one entry for each registered worker without a `DeleteTask`, and each `DeleteTask` finds its entry. -/
structure Pool.Registry (pool : Pool Job) : Prop where
  entries : ∀ id functor, (id, functor) ∈ pool.mMap ↔ functor = id ∧ pool.HasRegistered id ∧ id ∉ pool.deleted
  single : (pool.mMap.map Prod.fst).Nodup
  defined : ∀ worker ∈ pool.workers, worker.place ≠ .undefined
  found : ∀ id worker, pool.workers[id]? = some worker → worker.place = .execute .delete →
    (pool.mMap.find? fun entry => entry.1 = id) = some (id, id)
  cleared : ∀ id worker place next, pool.workers[id]? = some worker → worker.place = .execute .delete →
    poolStep pool (.work id place) = some next →
    next.workers = pool.workers.set id ⟨false, .test⟩ ∧ next.deleted = id :: pool.deleted
  retired : ∀ id ∈ pool.deleted, ∀ place next, poolStep pool (.work id place) = some next → next.mWq = pool.mWq
  kept : ∀ action next, poolStep pool action = some next → pool.deleted ⊆ next.deleted
  count : pool.workers.length = pool.live + pool.deleted.length

/-- A worker agrees with its entry in the map and with the history of deletions. -/
structure Worker.Fits (worker : Worker Job) (entered deleted : Prop) : Prop where
  dead : worker.iAmAlive = false ↔ deleted
  entered : entered ↔ worker.place ≠ .register ∧ ¬ deleted
  retired : deleted → worker.place = .test ∨ worker.place = .finished
  defined : worker.place ≠ .undefined

/-- Each worker fits, and the map and the history of deletions name each worker at most once. -/
structure Pool.Registered (pool : Pool Job) : Prop where
  fits : ∀ id (worker : Worker Job), pool.workers[id]? = some worker →
    worker.Fits ((id, id) ∈ pool.mMap) (id ∈ pool.deleted)
  own : ∀ entry ∈ pool.mMap, entry.2 = entry.1 ∧ entry.1 < pool.workers.length
  single : (pool.mMap.map Prod.fst).Nodup
  once : pool.deleted.Nodup
  created : ∀ id ∈ pool.deleted, id < pool.workers.length
  count : pool.workers.length = pool.live + pool.deleted.length

variable {pool next base : Pool Job} {id : Nat} {worker : Worker Job} {entered deleted : Prop}

namespace Worker

/-- A worker inside a loop iteration is alive. -/
theorem Fits.notMem (fits : worker.Fits entered deleted) (test : worker.place ≠ .test)
    (finished : worker.place ≠ .finished) : ¬ deleted := by
  intro gone
  cases fits.retired gone with
  | inl stands => exact test stands
  | inr stands => exact finished stands

theorem Fits.alive (fits : worker.Fits entered deleted) (stays : ¬ deleted) : worker.iAmAlive = true := by
  rw [← Bool.not_eq_false, fits.dead]
  exact stays

/-- A worker past its registration keeps fitting when it moves on inside its loop. -/
theorem Fits.moved (fits : worker.Fits entered deleted) {place : Place Job} (before : worker.place ≠ .register)
    (after : place ≠ .register) (defined : place ≠ .undefined)
    (retired : deleted → place = .test ∨ place = .finished) :
    (⟨worker.iAmAlive, place⟩ : Worker Job).Fits entered deleted where
  dead := fits.dead
  entered := by
    rw [fits.entered]
    simp [before, after]
  retired := retired
  defined := defined

theorem Fits.notified (fits : worker.Fits entered deleted) : worker.notified.Fits entered deleted := by
  unfold Worker.notified
  split
  · next stands =>
      apply fits.moved
      · simp [stands]
      · simp
      · simp
      · exact fun gone => absurd gone (fits.notMem (by simp [stands]) (by simp [stands]))
  · exact fits

@[simp] theorem notified_iAmAlive : worker.notified.iAmAlive = worker.iAmAlive := by
  unfold Worker.notified
  split <;> rfl

theorem fits_new : (new : Worker Job).Fits False False where
  dead := by simp [new]
  entered := by simp [new]
  retired := False.elim
  defined := by simp [new]

end Worker

namespace Pool

/-- The invariant is about the workers, the map and the history of deletions. -/
theorem Registered.frame (registered : pool.Registered) (workers : next.workers = pool.workers)
    (map : next.mMap = pool.mMap) (deleted : next.deleted = pool.deleted) : next.Registered := by
  constructor
  · rw [workers, map, deleted]
    exact registered.fits
  · rw [workers, map]
    exact registered.own
  · rw [map]
    exact registered.single
  · rw [deleted]
    exact registered.once
  · rw [workers, deleted]
    exact registered.created
  · rw [live, workers, deleted]
    exact registered.count

/-- One worker changes, and the entries and deletions of the others stay. -/
theorem Registered.set (registered : pool.Registered) (present : pool.workers[id]? = some worker)
    {new : Worker Job} (workers : next.workers = pool.workers.set id new)
    (map : ∀ other, other ≠ id → ((other, other) ∈ next.mMap ↔ (other, other) ∈ pool.mMap))
    (deleted : ∀ other, other ≠ id → (other ∈ next.deleted ↔ other ∈ pool.deleted))
    (fits : new.Fits ((id, id) ∈ next.mMap) (id ∈ next.deleted))
    (own : ∀ entry ∈ next.mMap, entry = (id, id) ∨ entry ∈ pool.mMap)
    (single : (next.mMap.map Prod.fst).Nodup) (once : next.deleted.Nodup)
    (count : next.deleted.length + new.iAmAlive.toNat = pool.deleted.length + worker.iAmAlive.toNat) :
    next.Registered where
  fits := by
    intro other found there
    rw [workers] at there
    obtain ⟨rfl, rfl⟩ | ⟨apart, before⟩ := getElem?_set_cases there
    · exact fits
    · rw [map other apart, deleted other apart]
      exact registered.fits other found before
  own := by
    intro entry inside
    rw [workers, List.length_set]
    cases own entry inside with
    | inl here =>
        rw [here]
        exact ⟨rfl, (List.getElem?_eq_some_iff.mp present).1⟩
    | inr before => exact registered.own entry before
  single := single
  once := once
  created := by
    intro other gone
    rw [workers, List.length_set]
    by_cases here : other = id
    · rw [here]
      exact (List.getElem?_eq_some_iff.mp present).1
    · exact registered.created other ((deleted other here).mp gone)
  count := by
    have alive := countP_set_add Worker.iAmAlive present new
    have before := registered.count
    rw [live] at before
    rw [live, workers, List.length_set]
    omega

/-- A worker moves on inside its loop. -/
theorem Registered.moved (registered : pool.Registered) (present : pool.workers[id]? = some worker)
    {place : Place Job} (workers : next.workers = pool.workers.set id ⟨worker.iAmAlive, place⟩)
    (map : next.mMap = pool.mMap) (deleted : next.deleted = pool.deleted) (before : worker.place ≠ .register)
    (after : place ≠ .register) (defined : place ≠ .undefined)
    (retired : id ∈ pool.deleted → place = .test ∨ place = .finished) : next.Registered := by
  apply registered.set present workers
  · intro other _
    rw [map]
  · intro other _
    rw [deleted]
  · rw [map, deleted]
    exact (registered.fits id worker present).moved before after defined retired
  · intro entry inside
    right
    rwa [map] at inside
  · rw [map]
    exact registered.single
  · rw [deleted]
    exact registered.once
  · rw [deleted]

/-- A live worker that stands at a step inside its loop moves on. -/
theorem Registered.proceeds (registered : pool.Registered) (present : pool.workers[id]? = some worker)
    {place : Place Job} (workers : next.workers = pool.workers.set id ⟨worker.iAmAlive, place⟩)
    (map : next.mMap = pool.mMap) (deleted : next.deleted = pool.deleted) (before : worker.place ≠ .register)
    (test : worker.place ≠ .test) (finished : worker.place ≠ .finished) (after : place ≠ .register)
    (defined : place ≠ .undefined) : next.Registered := by
  apply registered.moved present workers map deleted before after defined
  exact fun gone => absurd gone ((registered.fits id worker present).notMem test finished)

/-- A worker inserts its entry under its own id. -/
theorem Registered.register (registered : pool.Registered) (present : pool.workers[id]? = some worker)
    (stands : worker.place = .register) :
    Registered { pool.put id ⟨worker.iAmAlive, .test⟩ with mMap := pool.register id } := by
  have fits := registered.fits id worker present
  have absent : (id, id) ∉ pool.mMap := by
    intro inside
    exact (fits.entered.mp inside).1 stands
  have here : id ∉ pool.deleted := fits.notMem (by simp [stands]) (by simp [stands])
  have fresh : id ∉ pool.mMap.map Prod.fst := by
    intro inside
    obtain ⟨entry, member, same⟩ := List.mem_map.mp inside
    have own := (registered.own entry member).1
    apply absent
    rwa [← show entry = (id, id) from Prod.ext same (own.trans same)]
  have inserted : pool.register id = (id, id) :: pool.mMap := by
    apply if_neg
    intro taken
    obtain ⟨entry, member, same⟩ := List.any_eq_true.mp taken
    exact fresh (List.mem_map.mpr ⟨entry, member, by simpa using same⟩)
  apply registered.set present rfl
  · intro other apart
    simp [inserted, apart]
  · exact fun _ _ => Iff.rfl
  · constructor
    · exact fits.dead
    · simp [inserted, put, here]
    · exact fun gone => absurd gone here
    · simp
  · intro entry inside
    exact List.mem_cons.mp (inserted ▸ inside)
  · simpa [inserted] using ⟨by simpa using fresh, registered.single⟩
  · exact registered.once
  · rfl

/-- A `DeleteTask` finds the entry of its worker, and it clears the flag of this worker alone. -/
theorem Registered.deleteTask_eq (registered : pool.Registered) (present : pool.workers[id]? = some worker)
    (stands : worker.place = .execute .delete) :
    (pool.mMap.find? fun entry => entry.1 = id) = some (id, id) ∧
      pool.deleteTask id worker =
        { pool with
          workers := pool.workers.set id ⟨false, .test⟩
          mMap := pool.mMap.eraseP fun entry => entry.1 = id
          mNumOfThreads := pool.mNumOfThreads - 1
          controller := pool.notifyStop
          deleted := id :: pool.deleted } := by
  have fits := registered.fits id worker present
  have inside : (id, id) ∈ pool.mMap := by
    rw [fits.entered]
    exact ⟨by simp [stands], fits.notMem (by simp [stands]) (by simp [stands])⟩
  obtain ⟨entry, member, key, found⟩ := exists_find?_key inside
  rw [show entry = (id, id) from Prod.ext key ((registered.own entry member).1.trans key)] at found
  refine ⟨found, ?_⟩
  obtain ⟨bound, _⟩ := List.getElem?_eq_some_iff.mp present
  rw [deleteTask, found]
  simp [List.modify_eq_set_getElem?, bound]

theorem Registered.delete (registered : pool.Registered) (present : pool.workers[id]? = some worker)
    (stands : worker.place = .execute .delete) : (pool.deleteTask id worker).Registered := by
  have fits := registered.fits id worker present
  have here : id ∉ pool.deleted := fits.notMem (by simp [stands]) (by simp [stands])
  have alive := fits.alive here
  rw [(registered.deleteTask_eq present stands).2]
  apply registered.set present rfl
  · intro other apart
    simp [mem_eraseP_key registered.single, apart]
  · intro other apart
    simp [apart]
  · constructor
    · simp
    · simp [mem_eraseP_key registered.single]
    · simp
    · simp
  · intro entry inside
    exact Or.inr ((mem_eraseP_key registered.single).mp inside).1
  · exact nodup_eraseP_key registered.single
  · exact List.nodup_cons.mpr ⟨here, registered.once⟩
  · simp [alive]

/-- Each step of a worker keeps the registry. -/
theorem Registered.works (registered : pool.Registered) (present : pool.workers[id]? = some worker)
    (works : Works pool id worker next) : next.Registered := by
  cases works with
  | register stands free => exact registered.register present stands
  | test stands =>
      refine registered.moved present rfl rfl rfl ?_ ?_ ?_ ?_
      · simp [stands]
      · split <;> simp
      · split <;> simp
      · intro gone
        rw [if_neg (by simp [(registered.fits id worker present).dead.mpr gone])]
        exact Or.inr rfl
  | delete stands free => exact registered.delete present stands
  | dequeue place task rest stands popped | user job priority stands | sleep stands | unlock stands
  | spurious stands => refine registered.proceeds present rfl rfl rfl ?_ ?_ ?_ ?_ ?_ <;> simp [stands]
  | lock stands free =>
      cases stands with
      | inl stands | inr stands => refine registered.proceeds present rfl rfl rfl ?_ ?_ ?_ ?_ ?_ <;> simp [stands]
  | checkPaused stands =>
      refine registered.proceeds present rfl rfl rfl ?_ ?_ ?_ ?_ ?_
      · simp [stands]
      · simp [stands]
      · simp [stands]
      · split <;> simp
      · split <;> simp

/-- Each effect of an operation keeps the registry. -/
theorem Registered.perform (registered : pool.Registered) {effect : Effect Job}
    (performed : pool.perform effect = some base) : base.Registered := by
  obtain ⟨map, -, deleted, -⟩ := kept_of_perform performed
  rcases workers_of_perform performed with ⟨-, -, same⟩ | ⟨-, notified⟩ | ⟨-, created⟩
  · exact registered.frame same map deleted
  · constructor
    · intro other found there
      rw [notified, List.getElem?_map] at there
      obtain ⟨before, present, rfl⟩ := Option.map_eq_some_iff.mp there
      rw [map, deleted]
      exact (registered.fits other before present).notified
    · rw [map, notified, List.length_map]
      exact registered.own
    · rw [map]
      exact registered.single
    · rw [deleted]
      exact registered.once
    · rw [deleted, notified, List.length_map]
      exact registered.created
    · rw [live, deleted, notified, List.length_map, List.countP_map]
      simpa [live, Function.comp_def] using registered.count
  · have longer : base.workers.length = pool.workers.length + 1 := by
      rw [created, List.length_append, List.length_singleton]
    constructor
    · intro other found there
      rw [map, deleted]
      rcases getElem?_of_perform performed there with ⟨old, present, rfl | rfl⟩ | ⟨rfl, rfl⟩
      · exact registered.fits other found present
      · exact (registered.fits other old present).notified
      · have absent : (pool.workers.length, pool.workers.length) ∉ pool.mMap :=
          fun inside => (registered.own _ inside).2.false
        have kept : pool.workers.length ∉ pool.deleted := fun gone => (registered.created _ gone).false
        simpa [absent, kept] using Worker.fits_new
    · intro entry inside
      rw [map] at inside
      have own := registered.own entry inside
      exact ⟨own.1, by omega⟩
    · rw [map]
      exact registered.single
    · rw [deleted]
      exact registered.once
    · intro other gone
      rw [deleted] at gone
      have there := registered.created other gone
      omega
    · have count := registered.count
      rw [live] at count ⊢
      rw [longer, deleted, created, List.countP_append, List.countP_singleton, Worker.new, if_pos rfl]
      omega

theorem Registered.step (registered : pool.Registered) {action : Action Job} (moves : PoolMoves pool action next) :
    next.Registered := by
  cases moves with
  | call operation stands => exact registered.frame rfl rfl rfl
  | control effect after base plans performed => exact (registered.perform performed).frame rfl rfl rfl
  | stopTimeOut stands | stopSpurious stands => exact registered.frame rfl rfl rfl
  | work id place worker next present works | spurious id worker next present works =>
      exact registered.works present works

theorem registered_initial (numOfThreads : Nat) : (initial numOfThreads : Pool Job).Registered where
  fits := by
    intro id worker there
    obtain rfl : worker = Worker.new := List.eq_of_mem_replicate (List.mem_of_getElem? there)
    simpa [initial] using Worker.fits_new
  own := by simp [initial]
  single := List.nodup_nil
  once := List.nodup_nil
  created := by simp [initial]
  count := by simp [initial, live, Worker.new, List.countP_replicate]

/-- A worker whose `DeleteTask` is done can only leave its loop. -/
theorem Registered.mWq_of_deleted (registered : pool.Registered) (present : pool.workers[id]? = some worker)
    (gone : id ∈ pool.deleted) (works : Works pool id worker next) : next.mWq = pool.mWq := by
  cases works with
  | dequeue place task rest stands popped =>
      exact absurd gone ((registered.fits id worker present).notMem (by simp [stands]) (by simp [stands]))
  | delete stands free =>
      exact absurd gone ((registered.fits id worker present).notMem (by simp [stands]) (by simp [stands]))
  | register | test | user | lock | checkPaused | sleep | unlock | spurious => rfl

theorem Registered.subset_of_works (registered : pool.Registered) (present : pool.workers[id]? = some worker)
    (works : Works pool id worker next) : pool.deleted ⊆ next.deleted := by
  cases works with
  | delete stands free =>
      rw [(registered.deleteTask_eq present stands).2]
      exact List.subset_cons_self id pool.deleted
  | register | test | dequeue | user | lock | checkPaused | sleep | unlock | spurious => exact fun _ gone => gone

theorem Registered.subset_of_step (registered : pool.Registered) {action : Action Job}
    (moves : PoolMoves pool action next) : pool.deleted ⊆ next.deleted := by
  cases moves with
  | call | stopTimeOut | stopSpurious => exact fun _ gone => gone
  | control effect after base plans performed =>
      change pool.deleted ⊆ base.deleted
      rw [(kept_of_perform performed).2.2.1]
      exact fun _ gone => gone
  | work id place worker next present works | spurious id worker next present works =>
      exact registered.subset_of_works present works

theorem Registered.registry (registered : pool.Registered) : pool.Registry where
  entries := by
    intro id functor
    constructor
    · intro inside
      obtain ⟨same, bound⟩ := registered.own _ inside
      obtain rfl : functor = id := same
      have entered := (registered.fits functor _ (List.getElem?_eq_getElem bound)).entered.mp inside
      exact ⟨rfl, ⟨_, List.getElem?_eq_getElem bound, entered.1⟩, entered.2⟩
    · rintro ⟨rfl, ⟨worker, present, past⟩, stays⟩
      exact (registered.fits functor worker present).entered.mpr ⟨past, stays⟩
  single := registered.single
  defined := by
    intro worker member
    obtain ⟨id, present⟩ := List.mem_iff_getElem?.mp member
    exact (registered.fits id worker present).defined
  found := fun id worker present stands => (registered.deleteTask_eq present stands).1
  cleared := by
    intro id worker place next present stands stepped
    rw [poolStep, present, Option.bind_some, work] at stepped
    simp only [stands] at stepped
    split at stepped
    · rw [← Option.some.inj stepped, (registered.deleteTask_eq present stands).2]
      exact ⟨rfl, rfl⟩
    · cases stepped
  retired := by
    intro id gone place next stepped
    cases poolMoves_of_poolStep stepped with
    | work _ _ worker _ present works => exact registered.mWq_of_deleted present gone works
  kept := fun action next stepped => registered.subset_of_step (poolMoves_of_poolStep stepped)
  count := registered.count

theorem registered_of_run {numOfThreads : Nat} {actions : List (Action Job)} {final : Pool Job}
    (reached : run poolStep (.initial numOfThreads) actions = some final) : final.Registered :=
  run_invariant Registered (fun _ _ _ registered stepped => registered.step (poolMoves_of_poolStep stepped))
    (registered_initial numOfThreads) reached

end Pool

/-- The registry is right in each run of any operations and workers. -/
theorem registry_of_run {numOfThreads : Nat} {actions : List (Action Job)} {final : Pool Job}
    (reached : run poolStep (.initial numOfThreads) actions = some final) : final.Registry :=
  (Pool.registered_of_run reached).registry

end

/-- A pool of two threads shrinks, grows, and is paused. -/
def shrinkAndGrow : List (Action Nat) :=
  [.work 0 0, .work 1 0, .call (.setThreadNumber 1), .control, .control, .control, .control, .control,
    .work 0 0, .work 0 0, .work 0 0, .call (.setThreadNumber 3), .control, .control, .control, .work 2 0,
    .control, .control, .control, .control, .control, .control, .call .pause, .control]

/-- The registry is right after this run. -/
theorem shrinkAndGrow_registry : ∃ final, run poolStep (.initial 2) shrinkAndGrow = some final ∧ final.Registry := by
  obtain ⟨final, reached⟩ : ∃ final, run poolStep (.initial 2) shrinkAndGrow = some final :=
    Option.isSome_iff_exists.mp (by decide)
  exact ⟨final, reached, registry_of_run reached⟩

end DistributedNas.ThreadPool
