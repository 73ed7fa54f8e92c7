import Mathlib.Data.List.Perm.Basic
import Mathlib.Tactic

/-
This file models `DLLoader` with its `SharedObject` list and proves what its destructor closes.
The destructor erases at its iterator and advances it, so that it skips each other object.
-/

namespace DistributedNas.DlLoader

section
variable {Handle : Type*}

/-- A null pointer is `none`, and the objects are told apart by the order of their creation. -/
structure SharedObject (Handle : Type*) where
  id : Nat
  mHandle : Option Handle
  deriving DecidableEq, Repr

/-- An event names a file, `dlopen` returns this pointer for it, and the new object lies in memory with old bytes. -/
structure LoadEvent (Handle : Type*) where
  name : List Char
  dlopened : Option Handle
  stale : Option Handle
  deriving DecidableEq, Repr

/-- The loader has its list of objects, and the history says what `dlopen` returned. -/
structure DLLoader (Handle : Type*) where
  mSo : List (SharedObject Handle)
  opened : List (Option Handle)
  deriving DecidableEq, Repr

/-- The constructor of a `SharedObject` finds this text anywhere in the path. -/
def isSharedObject (path : List Char) : Bool := path.tails.any fun rest => ['.', 's', 'o'].isPrefixOf rest

/-- The constructor leaves the handle as it is when the path does not have the extension. -/
def SharedObject.construct (id : Nat) (path : List Char) (event : LoadEvent Handle) : SharedObject Handle :=
  ⟨id, if isSharedObject path then event.dlopened else event.stale⟩

/-- `DLLoader::Load` appends a new object for each event. -/
def DLLoader.load (directory : List Char) (loader : DLLoader Handle) (event : LoadEvent Handle) : DLLoader Handle :=
  let path := directory ++ '/' :: event.name
  { mSo := loader.mSo ++ [.construct loader.mSo.length path event]
    opened := if isSharedObject path then loader.opened ++ [event.dlopened] else loader.opened }

/-- This function passes each event to `Load` in turn. -/
def DLLoader.loadAll (directory : List Char) (events : List (LoadEvent Handle)) : DLLoader Handle :=
  events.foldl (.load directory) ⟨[], []⟩

/-- The loop of the destructor has its list and its iterator, and the history says what it destroyed and closed. -/
structure Unloading (Handle : Type*) where
  mSo : List (SharedObject Handle)
  it : Nat
  destroyed : List Nat
  closed : List (Option Handle)
  inside : Bool
  deriving DecidableEq, Repr

/-- The body of the loop destroys an object, erases its place, and advances the iterator. -/
def Unloading.body (unloading : Unloading Handle) (object : SharedObject Handle) : Unloading Handle :=
  let rest := unloading.mSo.eraseIdx unloading.it
  { mSo := rest
    it := unloading.it + 1
    destroyed := unloading.destroyed ++ [object.id]
    closed := unloading.closed ++ [object.mHandle]
    inside := unloading.inside && decide (unloading.it + 1 ≤ rest.length) }

/-- The loop runs while its iterator is before the end, for at most this number of tests. -/
def Unloading.loop : Nat → Unloading Handle → Option (Unloading Handle)
  | 0, _ => none
  | fuel + 1, unloading =>
      match unloading.mSo[unloading.it]? with
      | none => some unloading
      | some object => (unloading.body object).loop fuel

/-- `DLLoader::~DLLoader` starts its loop at the first object. -/
def DLLoader.destroy (loader : DLLoader Handle) (fuel : Nat) : Option (Unloading Handle) :=
  Unloading.loop fuel ⟨loader.mSo, 0, [], [], true⟩

/-- Each object is destroyed once, each handle is closed once and nothing else is, and the iterator stays inside. -/
structure DLLoader.ClosesOnce (loader : DLLoader Handle) (final : Unloading Handle) : Prop where
  destroyed : final.destroyed.Perm (loader.mSo.map SharedObject.id)
  closed : final.closed.Perm (loader.opened.filter Option.isSome)
  inside : final.inside = true

/-- This function keeps each other element from the first one on. -/
def everyOther {A : Type*} : List A → List A
  | [] => []
  | [first] => [first]
  | first :: _ :: rest => first :: everyOther rest

theorem length_everyOther {A : Type*} (items : List A) :
    2 * (everyOther items).length = items.length + items.length % 2 := by
  fun_induction everyOther items with
  | case1 => rfl
  | case2 first => rfl
  | case3 first second rest ih =>
      simp only [List.length_cons]
      omega

/-- The body of the loop keeps the object after the destroyed one before its iterator. -/
theorem body_erases (before after : List (SharedObject Handle)) (object : SharedObject Handle) (destroyed : List Nat)
    (closed : List (Option Handle)) (inside : Bool) :
    Unloading.body ⟨before ++ object :: after, before.length, destroyed, closed, inside⟩ object =
      ⟨before ++ after, before.length + 1, destroyed ++ [object.id], closed ++ [object.mHandle],
        inside && decide (after ≠ [])⟩ := by
  have rest : (before ++ object :: after).eraseIdx before.length = before ++ after := by
    rw [List.eraseIdx_append_of_length_le le_rfl, Nat.sub_self, List.eraseIdx_zero, List.tail_cons]
  have remains : before.length + 1 ≤ (before ++ after).length ↔ after ≠ [] := by
    rw [List.length_append, Nat.add_le_add_iff_left, Nat.one_le_iff_ne_zero, ne_eq, List.length_eq_zero_iff]
  simp only [Unloading.body, rest, remains]

/-- The loop destroys and closes each other object from its iterator on. -/
theorem loop_everyOther (before after : List (SharedObject Handle)) (destroyed : List Nat)
    (closed : List (Option Handle)) (inside : Bool) {fuel : Nat} (enough : after.length < fuel) :
    ∃ final, Unloading.loop fuel ⟨before ++ after, before.length, destroyed, closed, inside⟩ = some final ∧
      final.destroyed = destroyed ++ (everyOther after).map SharedObject.id ∧
      final.closed = closed ++ (everyOther after).map SharedObject.mHandle ∧
      final.inside = (inside && decide (after.length % 2 = 0)) := by
  induction after using everyOther.induct generalizing before destroyed closed inside fuel with
  | case1 =>
      cases fuel with
      | zero => cases enough
      | succ fuel =>
          refine ⟨⟨before, before.length, destroyed, closed, inside⟩, ?_⟩
          simp [Unloading.loop, everyOther]
  | case2 object =>
      match fuel, enough with
      | fuel + 2, _ =>
          refine ⟨⟨before, before.length + 1, destroyed ++ [object.id], closed ++ [object.mHandle], false⟩, ?_⟩
          simp only [everyOther, List.map_cons, List.map_nil, List.length_singleton, true_and]
          refine ⟨?_, by simp⟩
          rw [Unloading.loop, List.getElem?_append_right le_rfl]
          simp only [Nat.sub_self, List.getElem?_cons_zero]
          rw [body_erases]
          simp [Unloading.loop]
  | case3 object kept rest ih =>
      cases fuel with
      | zero => cases enough
      | succ fuel =>
          simp only [List.length_cons] at enough
          obtain ⟨final, looped, destroys, closes, stays⟩ := ih (before ++ [kept]) (destroyed ++ [object.id])
            (closed ++ [object.mHandle]) inside (by omega : rest.length < fuel)
          refine ⟨final, ?_, ?_, ?_, ?_⟩
          · rw [Unloading.loop, List.getElem?_append_right le_rfl]
            simp only [Nat.sub_self, List.getElem?_cons_zero]
            rw [body_erases]
            simpa using looped
          · simp [destroys, everyOther]
          · simp [closes, everyOther]
          · rw [stays]
            rw [List.length_cons, List.length_cons, Nat.add_assoc, Nat.add_mod_right]

/-- `Load` appends one object for each event. -/
theorem length_loadAll (directory : List Char) (events : List (LoadEvent Handle)) :
    (DLLoader.loadAll directory events).mSo.length = events.length := by
  have grows : ∀ loader : DLLoader Handle,
      (events.foldl (.load directory) loader).mSo.length = loader.mSo.length + events.length := by
    induction events with
    | nil => exact fun _ => rfl
    | cons event rest ih =>
        intro loader
        rw [List.foldl_cons, ih]
        simp only [DLLoader.load, List.length_append, List.length_cons, List.length_nil]
        omega
  exact (grows ⟨[], []⟩).trans (Nat.zero_add _)

/-- The destructor destroys and closes each other object, and its iterator stays inside exactly for an even number. -/
theorem destroy_everyOther (loader : DLLoader Handle) {fuel : Nat} (enough : loader.mSo.length < fuel) :
    ∃ final, loader.destroy fuel = some final ∧
      final.destroyed = (everyOther loader.mSo).map SharedObject.id ∧
      final.closed = (everyOther loader.mSo).map SharedObject.mHandle ∧
      final.inside = decide (loader.mSo.length % 2 = 0) := by
  obtain ⟨final, looped, destroyed, closed, inside⟩ := loop_everyOther [] loader.mSo [] [] true enough
  exact ⟨final, looped, destroyed, closed, by rw [inside, Bool.true_and]⟩

/-- The destructor returns, and it closes each library once exactly when no event was passed. -/
theorem closesOnce_iff_empty (directory : List Char) (events : List (LoadEvent Handle)) :
    ∃ final, (DLLoader.loadAll directory events).destroy (events.length + 1) = some final ∧
      ((DLLoader.loadAll directory events).ClosesOnce final ↔ events = []) := by
  have length := length_loadAll directory events
  obtain ⟨final, returned, destroyed, closed, inside⟩ := destroy_everyOther (DLLoader.loadAll directory events)
    (by rw [length]; exact Nat.lt_succ_self _)
  refine ⟨final, returned, ?_⟩
  constructor
  · intro closes
    have all := closes.destroyed.length_eq
    have even := inside.symm.trans closes.inside
    have half := length_everyOther (DLLoader.loadAll directory events).mSo
    rw [destroyed, List.length_map, List.length_map] at all
    rw [decide_eq_true_eq] at even
    apply List.eq_nil_of_length_eq_zero
    omega
  · rintro rfl
    refine ⟨?_, ?_, ?_⟩
    · rw [destroyed]
      rfl
    · rw [closed]
      rfl
    · rw [inside]
      rfl

end

/-- One library is closed, and then the iterator leaves the vector. -/
example : (DLLoader.loadAll ['d'] [⟨['a', '.', 's', 'o'], some 5, none⟩]).destroy 2 =
    some ⟨[], 1, [0], [some 5], false⟩ := by decide

/-- Two libraries are opened, `dlopen` fails for a third, and a fourth file is no library. -/
def fourFiles : List (LoadEvent Nat) :=
  [⟨['a', '.', 't'], some 4, some 9⟩, ⟨['b', '.', 's', 'o'], some 5, none⟩, ⟨['c', '.', 's', 'o'], none, none⟩,
    ⟨['d', '.', 's', 'o'], some 6, none⟩]

/-- The destructor closes old bytes of the memory and a null pointer, and it closes neither library. -/
theorem fourFiles_leak : ∃ final, (DLLoader.loadAll ['d'] fourFiles).destroy 5 = some final ∧
    final.closed = [some 9, none] ∧ (DLLoader.loadAll ['d'] fourFiles).opened = [some 5, none, some 6] ∧
      ¬ (DLLoader.loadAll ['d'] fourFiles).ClosesOnce final := by
  refine ⟨⟨[⟨1, some 5⟩, ⟨3, some 6⟩], 2, [0, 2], [some 9, none], true⟩, by decide, rfl, by decide, ?_⟩
  intro closes
  have length := closes.destroyed.length_eq
  cases length

end DistributedNas.DlLoader
