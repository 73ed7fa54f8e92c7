import DistributedNas.ThreadPool.Pool

/-
This file proves in which order the workers take the tasks of the queue.
`CompareFunctor` compares with the larger number, and a priority queue puts its greatest item on top.
-/

namespace DistributedNas.ThreadPool
open Library
open Engine (Priority)

section
variable {Job : Type*}

/-- All tasks of the queue have one priority. -/
def Uniform (queue : List (Task Job)) : Prop := ∀ first ∈ queue, ∀ second ∈ queue, first.priority = second.priority

/-- A worker takes no task while a task of greater priority is queued, and the taken priorities never rise. -/
structure HighestFirst (queue : List (Task Job)) : Prop where
  dequeue : ∀ (pool next : Pool Job) id place worker task, pool.mWq = queue → pool.workers[id]? = some worker →
    worker.place = .dequeue → poolStep pool (.work id place) = some next →
    next.workers[id]? = some ⟨worker.iAmAlive, .execute task⟩ → ∀ other ∈ next.mWq, other.priority ≤ task.priority
  sequence : ∀ places tasks rest, popEach compareFunctor queue places = some (tasks, rest) →
    tasks.Pairwise fun earlier later => later.priority ≤ earlier.priority

variable {queue rest tasks : List (Task Job)} {task : Task Job} {place : Nat} {pool next : Pool Job} {id : Nat}
  {worker : Worker Job}

/-- The task on top has the least priority of all queued tasks. -/
theorem least_of_popTop (popped : popTop compareFunctor queue place = some (task, rest)) :
    ∀ other ∈ queue, task.priority ≤ other.priority :=
  ((isTopItem_iff_least Task.priority).mp (popTop_eq_some popped).1).2

/-- No queued task exceeds the task on top exactly when all queued tasks have one priority. -/
theorem greatest_iff_uniform (popped : popTop compareFunctor queue place = some (task, rest)) :
    (∀ other ∈ rest, other.priority ≤ task.priority) ↔ Uniform queue := by
  have least := least_of_popTop popped
  have perm := (popTop_eq_some popped).2
  constructor
  · intro greatest
    have same : ∀ other ∈ queue, other.priority = task.priority := by
      intro other member
      cases List.mem_cons.mp (perm.mem_iff.mp member) with
      | inl here => rw [here]
      | inr left => exact le_antisymm (greatest other left) (least other member)
    intro first left second right
    rw [same first left, same second right]
  · intro uniform other member
    apply le_of_eq
    apply uniform
    · exact perm.mem_iff.mpr (List.mem_cons_of_mem task member)
    · exact (popTop_eq_some popped).1.1

/-- The step of a worker at `Dequeue` hands the task on top to it. -/
theorem popped_of_poolStep (present : pool.workers[id]? = some worker) (stands : worker.place = .dequeue)
    (stepped : poolStep pool (.work id place) = some next)
    (handed : next.workers[id]? = some ⟨worker.iAmAlive, .execute task⟩) :
    popTop compareFunctor pool.mWq place = some (task, next.mWq) := by
  simp only [poolStep, present, Option.bind_some, Pool.work, stands] at stepped
  obtain ⟨⟨taken, left⟩, popped, rfl⟩ := Option.map_eq_some_iff.mp stepped
  change (pool.workers.set id ⟨worker.iAmAlive, .execute taken⟩)[id]? = _ at handed
  rw [List.getElem?_set_self (List.getElem?_eq_some_iff.mp present).1] at handed
  obtain rfl : taken = task := by simpa using handed
  exact popped

/-- A pool whose only worker stands at `Dequeue` has this queue. -/
def Pool.serving (queue : List (Task Job)) : Pool Job :=
  { Pool.initial 1 with mWq := queue, workers := [⟨true, .dequeue⟩] }

/-- A queue that is taken from the greatest priority on has only tasks of one priority. -/
theorem HighestFirst.uniform (highest : HighestFirst queue) : Uniform queue := by
  by_cases filled : queue = []
  · rw [filled]
    intro first member
    cases member
  · obtain ⟨task, top⟩ := exists_least Task.priority filled
    obtain ⟨place, rest, popped⟩ := exists_popTop top
    have stepped : poolStep (Pool.serving queue) (.work 0 place) =
        some { (Pool.serving queue).put 0 ⟨true, .execute task⟩ with mWq := rest } := by
      show (popTop compareFunctor queue place).map _ = _
      rw [show popTop compareFunctor queue place = some (task, rest) from popped]
      rfl
    exact (greatest_iff_uniform popped).mp (highest.dequeue _ _ 0 place _ task rfl rfl rfl stepped rfl)

/-- The workers take the tasks from the greatest priority on exactly when all queued tasks have one priority. -/
theorem highestFirst_iff_uniform (queue : List (Task Job)) : HighestFirst queue ↔ Uniform queue := by
  constructor
  · exact HighestFirst.uniform
  · intro uniform
    constructor
    · rintro pool next id place worker task rfl present stands stepped handed
      exact (greatest_iff_uniform (popped_of_poolStep present stands stepped handed)).mpr uniform
    · intro places tasks rest popped
      have member : ∀ task ∈ tasks, task ∈ queue := by
        intro task inside
        exact (perm_of_popEach popped).mem_iff.mpr (List.mem_append_left rest inside)
      apply List.pairwise_of_forall_mem_list
      intro earlier first later second
      exact (uniform later (member later second) earlier (member earlier first)).le

/-- Over successive calls of `Dequeue` the taken priorities never fall. -/
theorem ascending_of_dequeues {places : List Nat}
    (popped : popEach compareFunctor queue places = some (tasks, rest)) :
    tasks.Pairwise fun earlier later => earlier.priority ≤ later.priority :=
  ascending_of_popEach Task.priority popped

end

/-- A low task is taken while a high task is queued. -/
theorem lowAndHigh_not_highestFirst :
    popTop compareFunctor [.user 0 .low, .user 1 .high] 0 = some (.user 0 .low, [.user 1 .high]) ∧
      ¬ HighestFirst [.user 0 .low, .user 1 .high] := by
  refine ⟨by decide, ?_⟩
  intro highest
  have same := highest.uniform (.user 0 .low) (by simp) (.user 1 .high) (by simp)
  cases same

end DistributedNas.ThreadPool
