import Mathlib.Data.List.Perm.Basic
import Mathlib.Data.Multiset.Basic
import Mathlib.Tactic

namespace DistributedNas.Library
variable {A : Type*}

/-- A top item of a priority queue compares below no queued item. -/
def IsTopItem (compare : A → A → Bool) (queue : List A) (item : A) : Prop :=
  item ∈ queue ∧ ∀ other ∈ queue, compare item other = false

/-- This function pops the item at one place when it is a top item. -/
def popTop (compare : A → A → Bool) (queue : List A) (place : Nat) : Option (A × List A) :=
  (queue[place]?).bind fun item =>
    if queue.all (fun other => !compare item other) then some (item, queue.eraseIdx place) else none

/-- The popped item was a top item, and the rest keeps each other item. -/
theorem popTop_eq_some {compare : A → A → Bool} {queue rest : List A} {place : Nat} {item : A}
    (popped : popTop compare queue place = some (item, rest)) :
    IsTopItem compare queue item ∧ queue.Perm (item :: rest) := by
  obtain ⟨found, present, kept⟩ := Option.bind_eq_some_iff.mp popped
  split at kept
  · next least =>
      obtain ⟨rfl, rfl⟩ := Prod.mk.inj (Option.some.inj kept)
      obtain ⟨inside, rfl⟩ := List.getElem?_eq_some_iff.mp present
      refine ⟨⟨List.getElem_mem inside, fun other member => ?_⟩, ?_⟩
      · simpa using List.all_eq_true.mp least other member
      · exact (List.getElem_cons_eraseIdx_perm inside).symm
  · cases kept

/-- The items of another kind stay in the queue in their order. -/
theorem filter_of_popTop {compare : A → A → Bool} {queue rest : List A} {place : Nat} {item : A}
    (popped : popTop compare queue place = some (item, rest)) {kind : A → Bool} (other : kind item = false) :
    rest.filter kind = queue.filter kind := by
  obtain ⟨found, present, kept⟩ := Option.bind_eq_some_iff.mp popped
  split at kept
  · obtain ⟨rfl, rfl⟩ := Prod.mk.inj (Option.some.inj kept)
    obtain ⟨inside, rfl⟩ := List.getElem?_eq_some_iff.mp present
    rw [List.eraseIdx_eq_take_drop_succ, List.filter_append]
    conv_rhs => rw [← List.take_append_drop place queue, List.drop_eq_getElem_cons inside, List.filter_append]
    rw [List.filter_cons_of_neg (by rw [other]; exact Bool.false_ne_true)]
  · cases kept

/-- A strict order leaves a top item in each queue that is not empty. -/
theorem exists_isTopItem {compare : A → A → Bool} (irreflexive : ∀ item, compare item item = false)
    (transitive : ∀ first second third, compare first second → compare second third → compare first third)
    {queue : List A} (filled : queue ≠ []) : ∃ item, IsTopItem compare queue item := by
  induction queue with
  | nil => exact absurd rfl filled
  | cons head rest ih =>
      by_cases single : rest = []
      · refine ⟨head, List.mem_cons_self, ?_⟩
        intro other member
        rw [single] at member
        rw [List.mem_singleton.mp member]
        exact irreflexive head
      · obtain ⟨item, inside, least⟩ := ih single
        cases below : compare item head with
        | false =>
            refine ⟨item, List.mem_cons_of_mem head inside, ?_⟩
            intro other member
            cases List.mem_cons.mp member with
            | inl same => exact same ▸ below
            | inr later => exact least other later
        | true =>
            refine ⟨head, List.mem_cons_self, ?_⟩
            intro other member
            cases List.mem_cons.mp member with
            | inl same => exact same ▸ irreflexive head
            | inr later =>
                have above := least other later
                cases farther : compare head other with
                | false => rfl
                | true => exact absurd (transitive item head other below farther) (by simp [above])

/-- Each top item can be popped at its place. -/
theorem exists_popTop {compare : A → A → Bool} {queue : List A} {item : A} (top : IsTopItem compare queue item) :
    ∃ place rest, popTop compare queue place = some (item, rest) := by
  obtain ⟨place, inside, found⟩ := List.getElem_of_mem top.1
  have least : queue.all (fun other => !compare item other) = true := by
    apply List.all_eq_true.mpr
    intro other member
    simp [top.2 other member]
  refine ⟨place, queue.eraseIdx place, ?_⟩
  rw [popTop, List.getElem?_eq_getElem inside, found, Option.bind_some, if_pos least]

/-- This function pops an item at each of some places in turn. -/
def popEach (compare : A → A → Bool) : List A → List Nat → Option (List A × List A)
  | queue, [] => some ([], queue)
  | queue, place :: places =>
      (popTop compare queue place).bind fun popped =>
        (popEach compare popped.2 places).map fun more => (popped.1 :: more.1, more.2)

theorem popEach_cons {compare : A → A → Bool} {queue items rest : List A} {place : Nat} {places : List Nat}
    (popped : popEach compare queue (place :: places) = some (items, rest)) :
    ∃ first left later, popTop compare queue place = some (first, left) ∧
      popEach compare left places = some (later, rest) ∧ items = first :: later := by
  obtain ⟨⟨first, left⟩, top, continued⟩ := Option.bind_eq_some_iff.mp popped
  obtain ⟨⟨later, remains⟩, more, same⟩ := Option.map_eq_some_iff.mp continued
  obtain ⟨rfl, rfl⟩ := Prod.mk.inj same
  exact ⟨first, left, later, top, more, rfl⟩

/-- The popped items and the rest are the items of the queue. -/
theorem perm_of_popEach {compare : A → A → Bool} {queue items rest : List A} {places : List Nat}
    (popped : popEach compare queue places = some (items, rest)) : queue.Perm (items ++ rest) := by
  induction places generalizing queue items with
  | nil =>
      obtain ⟨rfl, rfl⟩ := Prod.mk.inj (Option.some.inj popped)
      exact List.Perm.refl queue
  | cons place places ih =>
      obtain ⟨first, left, later, top, more, rfl⟩ := popEach_cons popped
      exact (popTop_eq_some top).2.trans ((ih more).cons first)

section
variable {Key : Type*} [LinearOrder Key] (key : A → Key)

/-- A comparison with the larger key puts an item with the least key on top. -/
theorem isTopItem_iff_least {queue : List A} {item : A} :
    IsTopItem (fun lhs rhs => decide (key lhs > key rhs)) queue item ↔
      item ∈ queue ∧ ∀ other ∈ queue, key item ≤ key other := by
  simp only [IsTopItem, decide_eq_false_iff_not, gt_iff_lt, not_lt]

/-- Such a queue hands its items out with the keys in ascending order. -/
theorem ascending_of_popEach {queue items rest : List A} {places : List Nat}
    (popped : popEach (fun lhs rhs => decide (key lhs > key rhs)) queue places = some (items, rest)) :
    items.Pairwise fun earlier later => key earlier ≤ key later := by
  induction places generalizing queue items with
  | nil =>
      obtain ⟨rfl, _⟩ := Prod.mk.inj (Option.some.inj popped)
      exact List.Pairwise.nil
  | cons place places ih =>
      obtain ⟨first, left, later, top, more, rfl⟩ := popEach_cons popped
      obtain ⟨least, perm⟩ := popTop_eq_some top
      apply List.Pairwise.cons _ (ih more)
      intro other member
      apply ((isTopItem_iff_least key).mp least).2
      exact perm.mem_iff.mpr (List.mem_cons_of_mem first
        ((perm_of_popEach more).mem_iff.mpr (List.mem_append_left rest member)))

/-- Such a queue has an item on top unless it is empty. -/
theorem exists_least {queue : List A} (filled : queue ≠ []) :
    ∃ item, IsTopItem (fun lhs rhs => decide (key lhs > key rhs)) queue item := by
  apply exists_isTopItem _ _ filled
  · simp
  · intro first second third below farther
    simp only [decide_eq_true_eq] at below farther ⊢
    exact farther.trans below

end

end DistributedNas.Library
