import Mathlib.Algebra.BigOperators.Group.Finset.Piecewise
import Mathlib.Data.List.Nodup
import Mathlib.Data.List.Perm.Lattice
import Mathlib.Tactic

namespace DistributedNas.Library
open scoped BigOperators List

section
variable {Thread Local Total : Type*} [Fintype Thread] [DecidableEq Thread] [AddCommMonoid Total]

/-- A change of one thread replaces its part of the sum over all threads. -/
theorem sum_update (part : Local → Total) (threads : Thread → Local) (thread : Thread) (next : Local) :
    (∑ other, part (Function.update threads thread next other)) + part (threads thread) =
      (∑ other, part (threads other)) + part next := by
  have same : ∀ other ∈ Finset.univ.erase thread,
      part (Function.update threads thread next other) = part (threads other) := by
    intro other member
    rw [Function.update_of_ne (Finset.ne_of_mem_erase member)]
  rw [← Finset.sum_erase_add _ _ (Finset.mem_univ thread), Finset.sum_congr rfl same, Function.update_self,
    ← Finset.sum_erase_add _ (fun other => part (threads other)) (Finset.mem_univ thread)]
  abel

end

section
variable {Local Total : Type*} {threads : List Local} {place : Nat} {old : Local}

/-- A change of one thread of a list replaces its part of the sum. -/
theorem sum_map_set [AddCommMonoid Total] (part : Local → Total) (present : threads[place]? = some old)
    (new : Local) : ((threads.set place new).map part).sum + part old = (threads.map part).sum + part new := by
  induction threads generalizing place with
  | nil => simp at present
  | cons head rest ih =>
      cases place with
      | zero =>
          obtain rfl : head = old := by simpa using present
          simp only [List.set_cons_zero, List.map_cons, List.sum_cons]
          abel
      | succ place =>
          simp only [List.set_cons_succ, List.map_cons, List.sum_cons, add_assoc]
          rw [ih (by simpa using present)]

/-- A change of one thread of a list changes the number of threads with a property by at most one. -/
theorem countP_set_add (property : Local → Bool) (present : threads[place]? = some old) (new : Local) :
    (threads.set place new).countP property + (property old).toNat =
      threads.countP property + (property new).toNat := by
  have sums : ∀ list : List Local, list.countP property = (list.map fun thread => (property thread).toNat).sum := by
    intro list
    induction list with
    | nil => rfl
    | cons head rest ih =>
        rw [List.countP_cons, List.map_cons, List.sum_cons, ih]
        cases property head <;> simp [add_comm]
  rw [sums, sums]
  exact sum_map_set (fun thread => (property thread).toNat) present new

/-- A thread with a property is counted. -/
theorem countP_pos_of_getElem? {property : Local → Bool} (present : threads[place]? = some old)
    (has : property old) : 0 < threads.countP property :=
  List.countP_pos_iff.mpr ⟨old, List.mem_of_getElem? present, has⟩

/-- A property with at least as many threads as a wider one holds of each thread of the wider one. -/
theorem forall_of_countP_le {wide narrow : Local → Bool} (within : ∀ thread ∈ threads, narrow thread → wide thread)
    (enough : threads.countP wide ≤ threads.countP narrow) : ∀ thread ∈ threads, wide thread → narrow thread := by
  have same : threads.countP narrow = (threads.filter wide).countP narrow := by
    rw [List.countP_filter]
    apply List.countP_congr
    intro thread member
    have implied := within thread member
    rw [Bool.and_eq_true]
    exact ⟨fun has => ⟨has, implied has⟩, And.left⟩
  rw [same, List.countP_eq_length_filter] at enough
  intro thread member has
  exact List.countP_eq_length.mp (le_antisymm List.countP_le_length enough) thread (List.mem_filter.mpr ⟨member, has⟩)

/-- A thread of a changed list is the changed one, or it was there before. -/
theorem getElem?_set_cases {new other : Local} {index : Nat}
    (found : (threads.set place new)[index]? = some other) :
    index = place ∧ other = new ∨ index ≠ place ∧ threads[index]? = some other := by
  by_cases here : index = place
  · subst here
    rw [List.getElem?_set_self' ] at found
    left
    cases present : threads[index]? with
    | none => simp [present] at found
    | some old => exact ⟨rfl, by simpa [present] using found.symm⟩
  · right
    rw [List.getElem?_set_ne (Ne.symm here)] at found
    exact ⟨here, found⟩

end

section
variable {Operation Content : Type*}

/-- A sequential order explains the final content and each answer from the first content on. -/
def Explains (perform : Operation → Content → Content) (Answers : Operation → Content → Prop) :
    Content → List Operation → Content → Prop
  | start, [], final => final = start
  | start, operation :: rest, final =>
      Answers operation start ∧ Explains perform Answers (perform operation start) rest final

variable {perform : Operation → Content → Content} {Answers : Operation → Content → Prop}

/-- An operation performed on the final content extends the order at its end. -/
theorem Explains.snoc {start final : Content} {order : List Operation}
    (explains : Explains perform Answers start order final) (operation : Operation)
    (answers : Answers operation final) :
    Explains perform Answers start (order ++ [operation]) (perform operation final) := by
  induction order generalizing start with
  | nil =>
      obtain rfl : final = start := explains
      exact ⟨answers, rfl⟩
  | cons head rest ih => exact ⟨explains.1, ih explains.2⟩

/-- A property of the content that each operation keeps holds of the final content. -/
theorem Explains.invariant (Holds : Content → Prop) {start final : Content} {order : List Operation}
    (explains : Explains perform Answers start order final)
    (kept : ∀ operation ∈ order, ∀ content, Holds content → Holds (perform operation content))
    (first : Holds start) : Holds final := by
  induction order generalizing start with
  | nil =>
      obtain rfl : final = start := explains
      exact first
  | cons head rest ih =>
      exact ih explains.2 (fun operation member => kept operation (List.mem_cons_of_mem head member))
        (kept head List.mem_cons_self start first)

end

section
variable {Name : Type*}

/-- A name that was listed before stays before a name that is added at the end. -/
theorem sublist_snoc {names : List Name} {first : Name} (member : first ∈ names) (last : Name) :
    [first, last] <+ names ++ [last] :=
  (List.singleton_sublist.mpr member).append (List.Sublist.refl [last])

/-- A pair in a list with one more entry either was there before or ends with the new entry. -/
theorem pair_sublist_snoc {names : List Name} {first second last : Name}
    (pair : [first, second] <+ names ++ [last]) :
    [first, second] <+ names ∨ first ∈ names ∧ second = last := by
  obtain ⟨before, after, same, early, late⟩ := List.sublist_append_iff.mp pair
  rcases List.sublist_singleton.mp late with rfl | rfl
  · rw [List.append_nil] at same
    left
    exact same ▸ early
  · have shape : [first] ++ [second] = before ++ [last] := same
    obtain ⟨rfl, ends⟩ := List.append_inj' shape rfl
    right
    exact ⟨List.singleton_sublist.mp early, List.head_eq_of_cons_eq ends⟩

end

end DistributedNas.Library
