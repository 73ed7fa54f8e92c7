import Mathlib.Data.List.Perm.Basic
import Mathlib.Order.Defs.LinearOrder
import Mathlib.Tactic

namespace DistributedNas.Library

/-- This function puts an entry at its place and keeps an existing entry of the same key. -/
def insertEntry {Key Value : Type*} [LinearOrder Key] (entry : Key × Value) :
    List (Key × Value) → List (Key × Value)
  | [] => [entry]
  | head :: rest =>
      if entry.1 < head.1 then entry :: head :: rest
      else if entry.1 = head.1 then head :: rest
      else head :: insertEntry entry rest

section
variable {Key Value : Type*} [LinearOrder Key] {entry : Key × Value} {entries : List (Key × Value)}

theorem mem_insertEntry {other : Key × Value} (member : other ∈ insertEntry entry entries) :
    other = entry ∨ other ∈ entries := by
  induction entries with
  | nil => exact Or.inl (List.mem_singleton.mp member)
  | cons head rest ih =>
      unfold insertEntry at member
      split at member
      · exact List.mem_cons.mp member
      · split at member
        · right
          exact member
        · rcases List.mem_cons.mp member with rfl | later
          · right
            exact List.mem_cons_self
          · exact (ih later).imp_right (List.mem_cons_of_mem head)

/-- The insertion keeps the keys in strict order. -/
theorem pairwise_insertEntry (sorted : entries.Pairwise fun first second => first.1 < second.1) :
    (insertEntry entry entries).Pairwise fun first second => first.1 < second.1 := by
  induction entries with
  | nil => exact List.pairwise_singleton _ _
  | cons head rest ih =>
      obtain ⟨least, tail⟩ := List.pairwise_cons.mp sorted
      unfold insertEntry
      split
      · next before =>
          refine List.pairwise_cons.mpr ⟨fun other member => ?_, sorted⟩
          rcases List.mem_cons.mp member with rfl | later
          · exact before
          · exact before.trans (least other later)
      · next notBefore =>
          split
          · exact sorted
          · next different =>
              have after : head.1 < entry.1 := lt_of_le_of_ne (not_lt.mp notBefore) (Ne.symm different)
              refine List.pairwise_cons.mpr ⟨fun other member => ?_, ih tail⟩
              rcases mem_insertEntry member with rfl | later
              · exact after
              · exact least other later

/-- The insertion of a fresh key adds exactly the new entry. -/
theorem insertEntry_perm (fresh : entry.1 ∉ entries.map Prod.fst) :
    (insertEntry entry entries).Perm (entry :: entries) := by
  induction entries with
  | nil => exact List.Perm.refl _
  | cons head rest ih =>
      simp only [List.map_cons, List.mem_cons, not_or] at fresh
      unfold insertEntry
      split
      · exact List.Perm.refl _
      · rw [if_neg fresh.1]
        exact ((ih fresh.2).cons head).trans (List.Perm.swap entry head rest)

end

/-- An ordered map keeps its entries in strict order of their keys. -/
structure OrderedMap (Key Value : Type*) [LinearOrder Key] where
  entries : List (Key × Value)
  sorted : entries.Pairwise fun first second => first.1 < second.1

section
variable {Key Value : Type*} [LinearOrder Key]

/-- A new map has no entry. -/
def OrderedMap.empty : OrderedMap Key Value := ⟨[], List.Pairwise.nil⟩

/-- The insertion into a map does nothing when the key is known. -/
def OrderedMap.insert (map : OrderedMap Key Value) (entry : Key × Value) : OrderedMap Key Value :=
  ⟨insertEntry entry map.entries, pairwise_insertEntry map.sorted⟩

/-- Insertions of distinct fresh keys add exactly the new entries. -/
theorem OrderedMap.foldl_insert_perm (map : OrderedMap Key Value) {added : List (Key × Value)}
    (distinct : ((map.entries ++ added).map Prod.fst).Nodup) :
    (added.foldl OrderedMap.insert map).entries.Perm (map.entries ++ added) := by
  induction added generalizing map with
  | nil => simp
  | cons entry later ih =>
      have moved : (map.entries ++ entry :: later).Perm (entry :: map.entries ++ later) :=
        List.perm_middle
      have fresh : entry.1 ∉ map.entries.map Prod.fst := by
        have apart := ((moved.map Prod.fst).nodup_iff).mp distinct
        rw [List.cons_append, List.map_cons, List.nodup_cons, List.map_append] at apart
        exact fun inside => apart.1 (List.mem_append_left _ inside)
      have inserted : ((map.insert entry).entries ++ later).Perm (map.entries ++ entry :: later) :=
        ((insertEntry_perm fresh).append_right later).trans moved.symm
      exact (ih _ (((inserted.map Prod.fst).nodup_iff).mpr distinct)).trans inserted

end

section
variable {Key Value : Type*} [DecidableEq Key] {entries : List (Key × Value)} {key : Key}

/-- The erasure of a key from entries of different keys leaves the entries of the other keys. -/
theorem mem_eraseP_key (different : (entries.map Prod.fst).Nodup) {other : Key × Value} :
    other ∈ entries.eraseP (fun entry => entry.1 = key) ↔ other ∈ entries ∧ other.1 ≠ key := by
  induction entries with
  | nil => simp
  | cons head rest ih =>
      obtain ⟨fresh, later⟩ := List.nodup_cons.mp different
      by_cases here : head.1 = key
      · rw [List.eraseP_cons_of_pos (by simpa using here), List.mem_cons]
        constructor
        · intro inside
          refine ⟨Or.inr inside, fun same => fresh ?_⟩
          rw [here, ← same]
          exact List.mem_map_of_mem inside
        · rintro ⟨first | inside, apart⟩
          · exact absurd (first ▸ here) apart
          · exact inside
      · rw [List.eraseP_cons_of_neg (by simpa using here), List.mem_cons, List.mem_cons, ih later]
        constructor
        · rintro (first | inside)
          · exact ⟨Or.inl first, first ▸ here⟩
          · exact ⟨Or.inr inside.1, inside.2⟩
        · rintro ⟨first | inside, apart⟩
          · exact Or.inl first
          · exact Or.inr ⟨inside, apart⟩

/-- The erasure of a key keeps the keys different. -/
theorem nodup_eraseP_key (different : (entries.map Prod.fst).Nodup) :
    ((entries.eraseP fun entry => entry.1 = key).map Prod.fst).Nodup :=
  different.sublist (List.eraseP_sublist.map Prod.fst)

/-- The entry of a key is found when there is one. -/
theorem exists_find?_key {value : Value} (inside : (key, value) ∈ entries) :
    ∃ entry ∈ entries, entry.1 = key ∧ (entries.find? fun entry => entry.1 = key) = some entry := by
  cases found : entries.find? fun entry => entry.1 = key with
  | none => exact absurd (List.find?_eq_none.mp found (key, value) inside) (by simp)
  | some entry => exact ⟨entry, List.mem_of_find?_eq_some found, by simpa using List.find?_some found, rfl⟩

end

end DistributedNas.Library
