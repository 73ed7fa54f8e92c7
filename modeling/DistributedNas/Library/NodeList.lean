import Mathlib.Data.List.Nodup
import Mathlib.Tactic

/-
This file models a doubly linked list with stable iterators, and a loop whose body may change the list.
-/

namespace DistributedNas.Library

/-- Each node has its own name, which stays the same while other nodes come and go. -/
abbrev Node := Nat

section
variable {Item : Type*}

/-- This function finds the node after one node, and a node that is not in the list has none. -/
def following : List (Node × Item) → Node → Option (Option Node)
  | [], _ => none
  | entry :: rest, node => if entry.1 = node then some (rest.head?.map Prod.fst) else following rest node

theorem following_append {before rest : List (Node × Item)} {entry : Node × Item}
    (fresh : entry.1 ∉ before.map Prod.fst) :
    following (before ++ entry :: rest) entry.1 = some (rest.head?.map Prod.fst) := by
  induction before with
  | nil => simp [following]
  | cons head tail ih =>
      simp only [List.map_cons, List.mem_cons, not_or] at fresh
      simp only [List.cons_append, following, if_neg (Ne.symm fresh.1)]
      exact ih fresh.2

theorem following_eq_none {nodes : List (Node × Item)} {node : Node} (erased : node ∉ nodes.map Prod.fst) :
    following nodes node = none := by
  induction nodes with
  | nil => rfl
  | cons head tail ih =>
      simp only [List.map_cons, List.mem_cons, not_or] at erased
      simp only [following, if_neg (Ne.symm erased.1)]
      exact ih erased.2

end

/-- The nodes of a list have distinct names, and a fresh name is above them. -/
structure NodeList (Item : Type*) where
  nodes : List (Node × Item)
  fresh : Node
  below : ∀ entry ∈ nodes, entry.1 < fresh
  distinct : (nodes.map Prod.fst).Nodup

namespace NodeList
variable {Item : Type*} (list : NodeList Item)

/-- A new list has no node. -/
def empty : NodeList Item := ⟨[], 0, by simp, List.nodup_nil⟩

/-- These are the items from the front on. -/
def items : List Item := list.nodes.map Prod.snd

/-- This function puts an item before the others, in a fresh node. -/
def pushFront (item : Item) : NodeList Item where
  nodes := (list.fresh, item) :: list.nodes
  fresh := list.fresh + 1
  below := by
    intro entry member
    cases List.mem_cons.mp member with
    | inl new => exact new ▸ Nat.lt_succ_self _
    | inr old => exact (list.below entry old).trans (Nat.lt_succ_self _)
  distinct := by
    apply List.nodup_cons.mpr
    constructor
    · intro member
      obtain ⟨entry, old, same⟩ := List.mem_map.mp member
      exact absurd same (list.below entry old).ne
    · exact list.distinct

/-- This function unlinks one node and keeps the others. -/
def erase (node : Node) : NodeList Item where
  nodes := list.nodes.eraseP fun entry => entry.1 = node
  fresh := list.fresh
  below := fun entry member => list.below entry (List.eraseP_sublist.mem member)
  distinct := (List.eraseP_sublist.map Prod.fst).nodup list.distinct

/-- The first iterator is the past-the-end iterator `none` for an empty list. -/
def first : Option Node := list.nodes.head?.map Prod.fst

/-- The dereference of a node that is not in the list is undefined. -/
def deref (node : Node) : Option Item := (list.nodes.find? fun entry => entry.1 = node).map Prod.snd

/-- The increment reads the link in the node, which is undefined for a node that is not in the list. -/
def next (node : Node) : Option (Option Node) := following list.nodes node

/-- This function finds the first node that holds an item. -/
def find [DecidableEq Item] (item : Item) : Option Node :=
  (list.nodes.find? fun entry => entry.2 = item).map Prod.fst

variable {list} {before rest : List (Node × Item)} {entry : Node × Item}

@[simp] theorem items_pushFront (item : Item) : (list.pushFront item).items = item :: list.items := rfl

theorem notMem_before (split : list.nodes = before ++ entry :: rest) : entry.1 ∉ before.map Prod.fst := by
  have distinct := list.distinct
  rw [split, List.map_append, List.map_cons, List.nodup_append] at distinct
  intro member
  exact distinct.2.2 _ member _ List.mem_cons_self rfl

theorem deref_of_split (split : list.nodes = before ++ entry :: rest) : list.deref entry.1 = some entry.2 := by
  have skipped : ∀ other ∈ before, ¬ decide (other.1 = entry.1) = true := by
    intro other member
    simp only [decide_eq_true_eq]
    intro same
    exact notMem_before split (List.mem_map.mpr ⟨other, member, same⟩)
  unfold deref
  rw [split, List.find?_append, List.find?_eq_none.mpr skipped]
  simp

theorem next_of_split (split : list.nodes = before ++ entry :: rest) :
    list.next entry.1 = some (rest.head?.map Prod.fst) := by
  unfold next
  rw [split]
  exact following_append (notMem_before split)

theorem nodes_erase (split : list.nodes = before ++ entry :: rest) :
    (list.erase entry.1).nodes = before ++ rest := by
  change list.nodes.eraseP _ = _
  rw [split, List.eraseP_append_right]
  · simp
  · intro other member
    simp only [decide_eq_true_eq]
    intro same
    exact notMem_before split (List.mem_map.mpr ⟨other, member, same⟩)

/-- The dereference and the increment of an erased node are undefined. -/
theorem notMem_erase (split : list.nodes = before ++ entry :: rest) :
    entry.1 ∉ (list.erase entry.1).nodes.map Prod.fst := by
  rw [nodes_erase split, List.map_append, List.mem_append]
  have distinct := list.distinct
  rw [split, List.map_append, List.map_cons, List.nodup_append, List.nodup_cons] at distinct
  intro member
  cases member with
  | inl left => exact notMem_before split left
  | inr right => exact distinct.2.1.1 right

theorem next_erase (split : list.nodes = before ++ entry :: rest) :
    (list.erase entry.1).next entry.1 = none :=
  following_eq_none (notMem_erase split)

theorem deref_erase (split : list.nodes = before ++ entry :: rest) :
    (list.erase entry.1).deref entry.1 = none := by
  unfold deref
  rw [List.find?_eq_none.mpr, Option.map_none]
  intro other member
  simp only [decide_eq_true_eq]
  intro same
  exact notMem_erase split (List.mem_map.mpr ⟨other, member, same⟩)

/-- The nodes also split at each node before a split. -/
theorem split_of_mem_before (split : list.nodes = before ++ entry :: rest) {other : Node × Item}
    (member : other ∈ before) : ∃ left right, list.nodes = left ++ other :: right := by
  obtain ⟨left, right, apart⟩ := List.append_of_mem member
  exact ⟨left, right ++ entry :: rest, by simp [split, apart]⟩

/-- A listed item splits the list at its node. -/
theorem exists_split {item : Item} (member : item ∈ list.items) :
    ∃ before node rest, list.nodes = before ++ (node, item) :: rest := by
  obtain ⟨⟨node, held⟩, inside, same⟩ := List.mem_map.mp member
  obtain rfl : held = item := same
  obtain ⟨before, rest, split⟩ := List.append_of_mem inside
  exact ⟨before, node, rest, split⟩

section
variable [DecidableEq Item]

/-- An item that is not in the list has no node. -/
theorem find_eq_none {item : Item} (absent : item ∉ list.items) : list.find item = none := by
  unfold find
  rw [List.find?_eq_none.mpr, Option.map_none]
  intro entry member
  simp only [decide_eq_true_eq]
  intro same
  exact absent (List.mem_map.mpr ⟨entry, member, same⟩)

/-- The search finds the first node of an item, and its erasure removes the first of these items. -/
theorem exists_find {item : Item} (member : item ∈ list.items) :
    ∃ node, list.find item = some node ∧ (list.erase node).items = list.items.erase item := by
  have some : ∃ entry ∈ list.nodes, entry.2 = item := List.mem_map.mp member
  obtain ⟨entry, found⟩ := Option.isSome_iff_exists.mp
    (List.find?_isSome.mpr (by simpa using some) : (list.nodes.find? fun entry => entry.2 = item).isSome)
  obtain ⟨same, before, rest, split, skipped⟩ := List.find?_eq_some_iff_append.mp found
  rw [decide_eq_true_eq] at same
  subst same
  refine ⟨entry.1, by rw [find, found, Option.map_some], ?_⟩
  unfold items
  rw [nodes_erase split, split, List.map_append, List.map_append, List.map_cons, List.erase_append_right,
    List.erase_cons_head]
  intro inside
  obtain ⟨other, left, same⟩ := List.mem_map.mp inside
  simpa [same] using skipped other left

/-- The search ends at the only node that holds the item. -/
theorem find_of_split (nodup : list.items.Nodup) (split : list.nodes = before ++ entry :: rest) :
    list.find entry.2 = some entry.1 := by
  have skipped : ∀ other ∈ before, ¬ decide (other.2 = entry.2) = true := by
    unfold items at nodup
    rw [split, List.map_append, List.map_cons, List.nodup_append] at nodup
    intro other member
    simp only [decide_eq_true_eq]
    intro same
    exact nodup.2.2 _ (List.mem_map.mpr ⟨other, member, rfl⟩) _ List.mem_cons_self same
  unfold find
  rw [split, List.find?_append, List.find?_eq_none.mpr skipped]
  simp

/-- The erasure of the only node of an item removes exactly this item. -/
theorem items_erase (nodup : list.items.Nodup) (split : list.nodes = before ++ entry :: rest) :
    (list.erase entry.1).items = list.items.erase entry.2 := by
  unfold items at nodup ⊢
  rw [nodes_erase split, split, List.map_append, List.map_append, List.map_cons, List.erase_append_right,
    List.erase_cons_head]
  rw [split, List.map_append, List.map_cons, List.nodup_append] at nodup
  intro member
  exact nodup.2.2 _ member _ List.mem_cons_self rfl

end

end NodeList

/-- A loop finishes in a state, reaches undefined behaviour, or uses up its steps. -/
inductive Outcome (State : Type*) where
  | finished (state : State)
  | undefined
  | running
  deriving DecidableEq, Repr

section
variable {State Item : Type*}

/-- This loop runs a body at each node, and its iterator is incremented after the body. -/
def walk (nodes : State → NodeList Item) (body : Node → State → Option State) :
    Nat → Option Node → State → Outcome State
  | _, none, state => .finished state
  | 0, some _, _ => .running
  | steps + 1, some node, state =>
      match body node state with
      | none => .undefined
      | some changed =>
          match (nodes changed).next node with
          | none => .undefined
          | some iterator => walk nodes body steps iterator changed

variable {nodes : State → NodeList Item} (body : Node → State → Option State) (effect : Item → State → State)
  {list : NodeList Item} {Holds : State → Prop}

/-- A loop whose body keeps the list performs its effect at each item of a segment in order. -/
theorem walk_kept (keeps : ∀ state, Holds state → nodes state = list)
    {middle rest : List (Node × Item)}
    (visits : ∀ entry ∈ middle, ∀ state, Holds state →
      body entry.1 state = some (effect entry.2 state) ∧ Holds (effect entry.2 state))
    {before : List (Node × Item)} (split : list.nodes = before ++ (middle ++ rest)) (steps : Nat)
    {state : State} (holds : Holds state) :
    walk nodes body (middle.length + steps) ((middle ++ rest).head?.map Prod.fst) state =
        walk nodes body steps (rest.head?.map Prod.fst)
          ((middle.map Prod.snd).foldl (fun current item => effect item current) state) ∧
      Holds ((middle.map Prod.snd).foldl (fun current item => effect item current) state) := by
  induction middle generalizing before state with
  | nil => simpa using holds
  | cons entry tail ih =>
      have visit := visits entry List.mem_cons_self state holds
      have later : ∀ other ∈ tail, ∀ state, Holds state →
          body other.1 state = some (effect other.2 state) ∧ Holds (effect other.2 state) :=
        fun other member => visits other (List.mem_cons_of_mem entry member)
      have increment : (nodes (effect entry.2 state)).next entry.1 = some ((tail ++ rest).head?.map Prod.fst) := by
        rw [keeps _ visit.2]
        exact NodeList.next_of_split split
      have shifted : list.nodes = (before ++ [entry]) ++ (tail ++ rest) := by simpa using split
      have continued := ih later shifted visit.2
      have more : (entry :: tail).length + steps = tail.length + steps + 1 := by
        simp only [List.length_cons]
        omega
      rw [more]
      simp only [List.cons_append, List.head?_cons, Option.map_some, walk, visit.1, increment, List.map_cons,
        List.foldl_cons]
      exact continued

/-- A loop that meets a node at which its body erases this node or fails does not finish. -/
theorem walk_segment_stuck (keeps : ∀ state, Holds state → nodes state = list)
    {middle rest : List (Node × Item)} {stuck : Node × Item}
    (visits : ∀ entry ∈ middle, ∀ state, Holds state →
      body entry.1 state = some (effect entry.2 state) ∧ Holds (effect entry.2 state))
    (erases : ∀ state changed, Holds state → body stuck.1 state = some changed →
      (nodes changed).next stuck.1 = none)
    {before : List (Node × Item)} (split : list.nodes = before ++ (middle ++ stuck :: rest)) (steps : Nat)
    {state : State} (holds : Holds state) (final : State) :
    walk nodes body steps ((middle ++ stuck :: rest).head?.map Prod.fst) state ≠ .finished final := by
  induction middle generalizing before state steps with
  | nil =>
      intro finished
      cases steps with
      | zero => cases finished
      | succ steps =>
          simp only [List.nil_append, List.head?_cons, Option.map_some, walk] at finished
          cases entered : body stuck.1 state with
          | none =>
              rw [entered] at finished
              cases finished
          | some changed =>
              simp only [entered, erases state changed holds entered] at finished
              cases finished
  | cons entry tail ih =>
      have visit := visits entry List.mem_cons_self state holds
      have increment : (nodes (effect entry.2 state)).next entry.1 =
          some ((tail ++ stuck :: rest).head?.map Prod.fst) := by
        rw [keeps _ visit.2]
        exact NodeList.next_of_split split
      have shifted : list.nodes = (before ++ [entry]) ++ (tail ++ stuck :: rest) := by simpa using split
      intro finished
      cases steps with
      | zero => cases finished
      | succ steps =>
          simp only [List.cons_append, List.head?_cons, Option.map_some, walk, visit.1, increment] at finished
          exact ih (fun other member => visits other (List.mem_cons_of_mem entry member)) shifted steps visit.2
            finished

/-- A loop whose body erases its node or fails there does not finish with any number of steps. -/
theorem walk_stuck (keeps : ∀ state, Holds state → nodes state = list)
    {before rest : List (Node × Item)} {stuck : Node × Item} (split : list.nodes = before ++ stuck :: rest)
    (visits : ∀ entry ∈ before, ∀ state, Holds state →
      body entry.1 state = some (effect entry.2 state) ∧ Holds (effect entry.2 state))
    (erases : ∀ state changed, Holds state → body stuck.1 state = some changed →
      (nodes changed).next stuck.1 = none)
    (steps : Nat) {state : State} (holds : Holds state) (final : State) :
    walk nodes body steps list.first state ≠ .finished final := by
  have whole : list.nodes = [] ++ (before ++ stuck :: rest) := split
  rw [NodeList.first, split]
  exact walk_segment_stuck body effect keeps visits erases whole steps holds final

/-- A loop whose body keeps the list finishes after one step for each node. -/
theorem walk_finished (keeps : ∀ state, Holds state → nodes state = list)
    (visits : ∀ entry ∈ list.nodes, ∀ state, Holds state →
      body entry.1 state = some (effect entry.2 state) ∧ Holds (effect entry.2 state))
    {state : State} (holds : Holds state) :
    walk nodes body list.nodes.length list.first state =
        .finished (list.items.foldl (fun current item => effect item current) state) ∧
      Holds (list.items.foldl (fun current item => effect item current) state) := by
  have split : list.nodes = [] ++ (list.nodes ++ []) := by simp
  have visited := walk_kept body effect keeps visits split 0 holds
  simpa [NodeList.first, NodeList.items, walk] using visited

end

end DistributedNas.Library
