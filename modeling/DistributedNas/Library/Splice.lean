import Mathlib.Data.List.Basic
import Mathlib.Tactic

namespace DistributedNas.Library
variable {A : Type*}

/-- The slice is the part of a list that starts at an offset and has at most the given length. -/
def slice (source : List A) (offset count : Nat) : List A := (source.drop offset).take count

@[simp] theorem slice_zero (source : List A) (offset : Nat) : slice source offset 0 = [] := by
  simp [slice]

theorem length_slice (source : List A) (offset count : Nat) :
    (slice source offset count).length = min count (source.length - offset) := by
  simp [slice]

/-- A slice that lies inside the list has the requested length. -/
theorem length_slice_of_le {source : List A} {offset count : Nat}
    (inside : offset + count ≤ source.length) : (slice source offset count).length = count := by
  rw [length_slice]
  omega

theorem getElem?_slice (source : List A) (offset count index : Nat) :
    (slice source offset count)[index]? = if index < count then source[offset + index]? else none := by
  rw [slice, List.getElem?_take, List.getElem?_drop]

/-- Two adjacent slices form one slice. -/
theorem slice_add (source : List A) (offset first second : Nat) :
    slice source offset (first + second) =
      slice source offset first ++ slice source (offset + first) second := by
  simp only [slice, List.take_add, List.drop_drop]

/-- The slice at the place of an inner part is that part. -/
theorem slice_middle (before middle after : List A) :
    slice (before ++ middle ++ after) before.length middle.length = middle := by
  rw [slice, List.append_assoc, List.drop_left, List.take_left]

/-- The overwriting puts a block at an offset and fills a gap after the old end. -/
def overwrite (fill : A) (target : List A) (offset : Nat) (block : List A) : List A :=
  if block = [] then target else
    (target ++ List.replicate (offset - target.length) fill).take offset ++ block ++
      target.drop (offset + block.length)

section
variable (fill : A)

@[simp] theorem overwrite_nil (target : List A) (offset : Nat) :
    overwrite fill target offset [] = target := by
  simp [overwrite]

theorem length_overwrite (target : List A) (offset : Nat) (block : List A) :
    (overwrite fill target offset block).length =
      if block = [] then target.length else max target.length (offset + block.length) := by
  unfold overwrite
  split
  · rfl
  · simp only [List.length_append, List.length_take, List.length_replicate, List.length_drop]
    omega

/-- An overwriting inside the list keeps its length. -/
theorem length_overwrite_of_le {target : List A} {offset : Nat} {block : List A}
    (inside : offset + block.length ≤ target.length) :
    (overwrite fill target offset block).length = target.length := by
  rw [length_overwrite]
  split <;> omega

/-- The overwritten list holds the block on its range and the old elements elsewhere. -/
theorem getElem?_overwrite (target : List A) (offset : Nat) (block : List A) (index : Nat) :
    (overwrite fill target offset block)[index]? =
      if offset ≤ index ∧ index < offset + block.length then block[index - offset]?
      else if target.length ≤ index ∧ index < offset ∧ block ≠ [] then some fill
      else target[index]? := by
  unfold overwrite
  by_cases empty : block = []
  · subst empty
    simp only [↓reduceIte, List.length_nil, ne_eq, not_true_eq_false, and_false]
    rw [if_neg (by omega)]
  have width : ((target ++ List.replicate (offset - target.length) fill).take offset).length = offset := by
    simp only [List.length_take, List.length_append, List.length_replicate]
    omega
  rw [if_neg empty, List.append_assoc]
  rcases lt_or_ge index offset with before | after
  · rw [List.getElem?_append_left (by omega), List.getElem?_take, if_pos before, if_neg (by omega)]
    rcases lt_or_ge index target.length with short | long
    · rw [List.getElem?_append_left short, if_neg (by omega)]
    · rw [List.getElem?_append_right long, if_pos ⟨long, before, empty⟩,
        List.getElem?_replicate_of_lt (by omega)]
  · rw [List.getElem?_append_right (by omega), width]
    rcases lt_or_ge index (offset + block.length) with inside | outside
    · rw [List.getElem?_append_left (by omega), if_pos ⟨after, inside⟩]
    · rw [List.getElem?_append_right (by omega), List.getElem?_drop, if_neg (by omega),
        if_neg (by omega)]
      congr 1
      omega

/-- An element outside the block's range stays when the block lies inside the list. -/
theorem getElem?_overwrite_of_le {target : List A} {offset : Nat} {block : List A}
    (inside : offset ≤ target.length) (index : Nat) :
    (overwrite fill target offset block)[index]? =
      if offset ≤ index ∧ index < offset + block.length then block[index - offset]?
      else target[index]? := by
  rw [getElem?_overwrite]
  congr 1
  rw [if_neg (by omega)]

/-- Two adjacent blocks overwrite as one block. -/
theorem overwrite_adjacent (target : List A) (offset : Nat) (first second : List A) :
    overwrite fill (overwrite fill target offset first) (offset + first.length) second =
      overwrite fill target offset (first ++ second) := by
  by_cases noFirst : first = []
  · subst noFirst
    simp
  by_cases noSecond : second = []
  · subst noSecond
    simp
  apply List.ext_getElem?
  intro index
  have size : (overwrite fill target offset first).length =
      max target.length (offset + first.length) := by
    rw [length_overwrite, if_neg noFirst]
  rw [getElem?_overwrite_of_le fill (by omega), getElem?_overwrite, getElem?_overwrite,
    List.length_append]
  have positive : 0 < first.length := List.length_pos_of_ne_nil noFirst
  rcases lt_or_ge index (offset + first.length) with early | late
  · rw [if_neg (by omega)]
    rcases lt_or_ge index offset with before | after
    · simp [show ¬offset ≤ index by omega, noFirst]
    · rw [if_pos ⟨after, early⟩, if_pos ⟨after, by omega⟩, List.getElem?_append_left (by omega)]
  · rcases lt_or_ge index (offset + first.length + second.length) with inside | outside
    · rw [if_pos ⟨late, inside⟩, if_pos ⟨by omega, by omega⟩, List.getElem?_append_right (by omega)]
      congr 1
      omega
    · rw [if_neg (by omega), if_neg (by omega), if_neg (by omega), if_neg (by omega),
        if_neg (by omega)]

variable {Operation : Type*} (offset : Operation → Nat) (block : Operation → List A)

/-- This function finds the last operation whose block covers a place. -/
def lastCovering (operations : List Operation) (place : Nat) : Option Operation :=
  operations.reverse.find? fun operation =>
    decide (offset operation ≤ place ∧ place < offset operation + (block operation).length)

theorem lastCovering_cons (operation : Operation) (later : List Operation) (place : Nat) :
    lastCovering offset block (operation :: later) place =
      (lastCovering offset block later place).or
        (if offset operation ≤ place ∧ place < offset operation + (block operation).length then some operation
          else none) := by
  rw [lastCovering, List.reverse_cons, List.find?_append, List.find?_singleton]
  simp only [decide_eq_true_eq]
  rfl

/-- After overwritings inside a list each place holds the element of the last block that covers it. -/
theorem getElem?_foldl_overwrite {target : List A} {operations : List Operation}
    (inside : ∀ operation ∈ operations, offset operation + (block operation).length ≤ target.length) (place : Nat) :
    (operations.foldl (fun list operation => overwrite fill list (offset operation) (block operation)) target)[place]? =
      (lastCovering offset block operations place).elim target[place]? fun operation =>
        (block operation)[place - offset operation]? := by
  induction operations generalizing target with
  | nil => rfl
  | cons operation later ih =>
      obtain ⟨first, rest⟩ := List.forall_mem_cons.mp inside
      have size := length_overwrite_of_le fill first
      rw [List.foldl_cons, ih (by rwa [size]), lastCovering_cons]
      cases lastCovering offset block later place with
      | some covering => rfl
      | none =>
          rw [Option.elim_none, Option.none_or, getElem?_overwrite_of_le fill (by omega)]
          split <;> rfl

end

end DistributedNas.Library
