import DistributedNas.Observer.Links

/-
This file follows the pointers between dispatchers and callbacks over each sequence of calls.
-/

namespace DistributedNas.Observer
open Library

/-- The caller constructs and destroys objects and calls the functions of a dispatcher. -/
inductive Call (Dispatcher Callback Event : Type*) where
  | createDispatcher (dispatcher : Dispatcher)
  | createCallback (callback : Callback)
  | attach (dispatcher : Dispatcher) (callback : Callback)
  | detach (dispatcher : Dispatcher) (callback : Callback)
  | notifyAll (dispatcher : Dispatcher) (event : Event)
  | destroyCallback (callback : Callback)
  | destroyDispatcher (dispatcher : Dispatcher)
  deriving DecidableEq, Repr

/-- This function gives the state in which a loop finished. -/
def finalOf {State : Type*} : Outcome State → Option State
  | .finished final => some final
  | .undefined | .running => none

section
variable {Dispatcher Callback Event : Type*}

section
variable [DecidableEq Dispatcher] [DecidableEq Callback]

/-- No handler changes a subscription, and undefined behaviour has no next state. -/
def callStep (links : Links Dispatcher Callback Event) :
    Call Dispatcher Callback Event → Option (Links Dispatcher Callback Event)
  | .createDispatcher dispatcher =>
      if (links.mSubscribers dispatcher).isNone then
        some { links with mSubscribers := Function.update links.mSubscribers dispatcher (some .empty) }
      else none
  | .createCallback callback =>
      if (links.mDispatcher callback).isNone then
        some { links with mDispatcher := Function.update links.mDispatcher callback (some none) }
      else none
  | .attach dispatcher callback => links.attach dispatcher callback
  | .detach dispatcher callback => links.detach dispatcher callback
  | .notifyAll dispatcher event =>
      finalOf (links.notifyAll (fun _ => .keep) dispatcher event (links.subscribers dispatcher).nodes.length)
  | .destroyCallback callback => links.destroyCallback callback
  | .destroyDispatcher dispatcher =>
      finalOf (links.destroyDispatcher (fun _ => .keep) dispatcher (links.subscribers dispatcher).nodes.length)

/-- `Attach` is applied to a callback whose pointer is null. -/
def AttachesFree (links : Links Dispatcher Callback Event) : Call Dispatcher Callback Event → Prop
  | .attach _ callback => links.mDispatcher callback = some none
  | _ => True

instance (links : Links Dispatcher Callback Event) (call : Call Dispatcher Callback Event) :
    Decidable (AttachesFree links call) :=
  match call with
  | .attach _ _ => inferInstanceAs (Decidable (_ = _))
  | .createDispatcher _ | .createCallback _ | .detach _ _ | .notifyAll _ _ | .destroyCallback _
  | .destroyDispatcher _ => inferInstanceAs (Decidable True)

end

namespace Links
variable (links : Links Dispatcher Callback Event)

/-- The pointers agree with the lists, and no pointer leads to a dispatcher that was destroyed. -/
structure Consistent : Prop where
  nodup : ∀ dispatcher list, links.mSubscribers dispatcher = some list → list.items.Nodup
  listed : ∀ dispatcher list, links.mSubscribers dispatcher = some list →
    ∀ callback, callback ∈ list.items ↔ links.mDispatcher callback = some (some dispatcher)
  alive : ∀ callback dispatcher, links.mDispatcher callback = some (some dispatcher) →
    links.mSubscribers dispatcher ≠ none

/-- These are all callbacks that point to a dispatcher, once each, and the most recently attached is first. -/
structure Subscribed (dispatcher : Dispatcher) (called : List Callback) : Prop where
  nodup : called.Nodup
  pointing : ∀ callback, callback ∈ called ↔ links.mDispatcher callback = some (some dispatcher)
  recent : called.Pairwise fun first second => links.attachedAt second < links.attachedAt first

/-- Each object that a call uses exists, and each object that it constructs is new. -/
def Allowed : Call Dispatcher Callback Event → Prop
  | .createDispatcher dispatcher => links.mSubscribers dispatcher = none
  | .createCallback callback => links.mDispatcher callback = none
  | .attach dispatcher callback => links.mSubscribers dispatcher ≠ none ∧ links.mDispatcher callback ≠ none
  | .detach dispatcher _ | .notifyAll dispatcher _ | .destroyDispatcher dispatcher =>
      links.mSubscribers dispatcher ≠ none
  | .destroyCallback callback => links.mDispatcher callback ≠ none

/-- This relation says what a notification, a destruction, and a `Detach` without effect do. -/
def Exact : Call Dispatcher Callback Event → Links Dispatcher Callback Event → Prop
  | .notifyAll dispatcher event, next => ∃ called, links.Subscribed dispatcher called ∧
      next = { links with
        deliveries := links.deliveries ++ called.map fun callback => .update dispatcher callback event }
  | .destroyDispatcher dispatcher, next => ∃ called, links.Subscribed dispatcher called ∧
      next.deliveries = links.deliveries ++ called.map (fun callback => .stopObserving dispatcher callback) ∧
      (∀ callback ∈ called, next.mDispatcher callback = some none) ∧ next.mSubscribers dispatcher = none
  | .detach dispatcher callback, next =>
      (∀ list, links.mSubscribers dispatcher = some list → callback ∉ list.items) → next = links
  | _, _ => True

/-- Each list holds the callbacks of its dispatcher in the order of their attachment. -/
structure Sound : Prop where
  subscribed : ∀ dispatcher list, links.mSubscribers dispatcher = some list →
    links.Subscribed dispatcher list.items
  alive : ∀ callback dispatcher, links.mDispatcher callback = some (some dispatcher) →
    links.mSubscribers dispatcher ≠ none
  earlier : ∀ callback dispatcher, links.mDispatcher callback = some (some dispatcher) →
    links.attachedAt callback < links.attaches

variable {links} {next : Links Dispatcher Callback Event} {dispatcher : Dispatcher} {callback : Callback}
  {list : NodeList Callback}

theorem sound_initial : (initial : Links Dispatcher Callback Event).Sound where
  subscribed := by
    intro dispatcher list listed
    cases listed
  alive := by
    intro callback dispatcher pointing
    cases pointing
  earlier := by
    intro callback dispatcher pointing
    cases pointing

theorem Sound.consistent (sound : links.Sound) : links.Consistent where
  nodup := fun dispatcher list listed => (sound.subscribed dispatcher list listed).nodup
  listed := fun dispatcher list listed => (sound.subscribed dispatcher list listed).pointing
  alive := sound.alive

theorem Sound.present (sound : links.Sound) (listed : links.mSubscribers dispatcher = some list) :
    links.Present dispatcher list where
  listed := listed
  exist := by
    intro callback member
    rw [((sound.subscribed dispatcher list listed).pointing callback).mp member]
    exact Option.some_ne_none _

/-- A list stays right while the same callbacks point to its dispatcher and keep their time of attachment. -/
theorem Subscribed.frame {called : List Callback} (subscribed : links.Subscribed dispatcher called)
    (pointers : ∀ callback, next.mDispatcher callback = some (some dispatcher) ↔
      links.mDispatcher callback = some (some dispatcher))
    (times : ∀ callback ∈ called, next.attachedAt callback = links.attachedAt callback) :
    next.Subscribed dispatcher called where
  nodup := subscribed.nodup
  pointing := fun callback => (subscribed.pointing callback).trans (pointers callback).symm
  recent := by
    apply subscribed.recent.imp_of_mem
    intro first second left right later
    rw [times first left, times second right]
    exact later

/-- Deliveries do not change the pointers. -/
theorem Sound.deliveries (sound : links.Sound) (deliveries : List (Delivery Dispatcher Callback Event)) :
    Sound { links with deliveries := deliveries } where
  subscribed := fun dispatcher list listed =>
    (sound.subscribed dispatcher list listed).frame (fun _ => Iff.rfl) (fun _ _ => rfl)
  alive := sound.alive
  earlier := sound.earlier

section
variable [DecidableEq Dispatcher]

theorem Sound.createDispatcher (sound : links.Sound) (new : links.mSubscribers dispatcher = none) :
    Sound { links with mSubscribers := Function.update links.mSubscribers dispatcher (some .empty) } where
  subscribed := by
    intro other list listed
    by_cases same : other = dispatcher
    · rw [same] at listed ⊢
      simp only [Function.update_self, Option.some.injEq] at listed
      subst listed
      refine ⟨List.nodup_nil, ?_, List.Pairwise.nil⟩
      intro callback
      constructor
      · intro member
        cases member
      · intro pointing
        exact absurd new (sound.alive callback dispatcher pointing)
    · simp only [Function.update_of_ne same] at listed
      exact (sound.subscribed other list listed).frame (fun _ => Iff.rfl) (fun _ _ => rfl)
  alive := by
    intro callback other pointing
    by_cases same : other = dispatcher
    · simp [same]
    · simp only [Function.update_of_ne same]
      exact sound.alive callback other pointing
  earlier := sound.earlier

end

section
variable [DecidableEq Callback]

/-- A change of one pointer between two values other than a dispatcher keeps the callbacks of this dispatcher. -/
theorem update_pointer_iff {target : Option (Option Dispatcher)}
    (before : links.mDispatcher callback ≠ some (some dispatcher)) (after : target ≠ some (some dispatcher))
    (other : Callback) :
    Function.update links.mDispatcher callback target other = some (some dispatcher) ↔
      links.mDispatcher other = some (some dispatcher) := by
  by_cases same : other = callback
  · rw [same, Function.update_self]
    exact ⟨fun pointing => absurd pointing after, fun pointing => absurd pointing before⟩
  · rw [Function.update_of_ne same]

/-- A change of a pointer that leads to no dispatcher before and after keeps all lists. -/
theorem Sound.update_pointer (sound : links.Sound) {target : Option (Option Dispatcher)}
    (before : ∀ dispatcher, links.mDispatcher callback ≠ some (some dispatcher))
    (after : ∀ dispatcher, target ≠ some (some dispatcher)) :
    Sound { links with mDispatcher := Function.update links.mDispatcher callback target } where
  subscribed := fun dispatcher list listed => (sound.subscribed dispatcher list listed).frame
    (update_pointer_iff (before dispatcher) (after dispatcher)) (fun _ _ => rfl)
  alive := fun other dispatcher pointing => sound.alive other dispatcher
    ((update_pointer_iff (before dispatcher) (after dispatcher) other).mp pointing)
  earlier := fun other dispatcher pointing => sound.earlier other dispatcher
    ((update_pointer_iff (before dispatcher) (after dispatcher) other).mp pointing)

end

variable [DecidableEq Dispatcher] [DecidableEq Callback]

theorem exists_attach (listed : links.mSubscribers dispatcher = some list)
    (exist : links.mDispatcher callback ≠ none) : ∃ next, links.attach dispatcher callback = some next := by
  simp only [Links.attach, listed, Option.bind_some, setDispatcher_of_exists (some dispatcher) exist,
    Option.map_some]
  exact ⟨_, rfl⟩

/-- An `Attach` of a free callback puts it before all others. -/
theorem Sound.attach (sound : links.Sound) (listed : links.mSubscribers dispatcher = some list)
    (free : links.mDispatcher callback = some none) (attached : links.attach dispatcher callback = some next) :
    next.Sound := by
  have exist : links.mDispatcher callback ≠ none := by
    rw [free]
    exact Option.some_ne_none _
  have unattached : ∀ other, links.mDispatcher callback ≠ some (some other) := by
    intro other
    rw [free]
    simp
  simp only [Links.attach, listed, Option.bind_some, setDispatcher_of_exists (some dispatcher) exist,
    Option.map_some, Option.some.injEq] at attached
  subst attached
  have before := sound.subscribed dispatcher list listed
  have absent : callback ∉ list.items := by
    intro member
    exact unattached dispatcher ((before.pointing callback).mp member)
  constructor
  · intro other items inside
    by_cases same : other = dispatcher
    · rw [same] at inside ⊢
      simp only [Function.update_self, Option.some.injEq] at inside
      subst inside
      rw [NodeList.items_pushFront]
      constructor
      · exact List.nodup_cons.mpr ⟨absent, before.nodup⟩
      · intro third
        by_cases new : third = callback
        · simp [new]
        · simp only [List.mem_cons, new, false_or, Function.update_of_ne new]
          exact before.pointing third
      · apply List.pairwise_cons.mpr
        constructor
        · intro third member
          have different : third ≠ callback := fun same => absent (same ▸ member)
          simp only [Function.update_self, Function.update_of_ne different]
          exact sound.earlier third dispatcher ((before.pointing third).mp member)
        · apply before.recent.imp_of_mem
          intro first second left right later
          have firstOld : first ≠ callback := fun same => absent (same ▸ left)
          have secondOld : second ≠ callback := fun same => absent (same ▸ right)
          simp only [Function.update_of_ne firstOld, Function.update_of_ne secondOld]
          exact later
    · simp only [Function.update_of_ne same] at inside
      have others := sound.subscribed other items inside
      apply others.frame
      · apply update_pointer_iff (unattached other)
        intro equal
        exact same (Option.some.inj (Option.some.inj equal)).symm
      · intro third member
        apply Function.update_of_ne
        intro new
        exact unattached other (new ▸ (others.pointing third).mp member)
  · intro third other pointing
    by_cases same : other = dispatcher
    · simp [same]
    · simp only [Function.update_of_ne same]
      apply sound.alive third other
      apply (update_pointer_iff (unattached other) _ third).mp pointing
      intro equal
      exact same (Option.some.inj (Option.some.inj equal)).symm
  · intro third other pointing
    by_cases new : third = callback
    · simp [new]
    · simp only [Function.update_of_ne new] at pointing ⊢
      exact (sound.earlier third other pointing).trans (Nat.lt_succ_self _)

/-- A callback that is taken out of its list and cleared leaves the other callbacks in place. -/
theorem Sound.unlink (sound : links.Sound) (listed : links.mSubscribers dispatcher = some list)
    {before rest : List (Node × Callback)} {node : Node} (split : list.nodes = before ++ (node, callback) :: rest) :
    (links.unlink dispatcher callback (list.erase node)).Sound := by
  have subscribed := sound.subscribed dispatcher list listed
  have member : callback ∈ list.items := by
    rw [NodeList.items, split]
    simp
  have pointing := (subscribed.pointing callback).mp member
  have foreign : ∀ other, other ≠ dispatcher → links.mDispatcher callback ≠ some (some other) := by
    intro other different equal
    rw [pointing] at equal
    exact different (Option.some.inj (Option.some.inj equal)).symm
  have kept : ∀ third other, (links.unlink dispatcher callback (list.erase node)).mDispatcher third =
      some (some other) → links.mDispatcher third = some (some other) := by
    intro third other after
    change Function.update links.mDispatcher callback (some none) third = _ at after
    by_cases same : third = callback
    · rw [same, Function.update_self] at after
      cases after
    · rwa [Function.update_of_ne same] at after
  constructor
  · intro other items inside
    change Function.update links.mSubscribers dispatcher (some (list.erase node)) other = _ at inside
    by_cases same : other = dispatcher
    · rw [same] at inside ⊢
      rw [Function.update_self] at inside
      obtain rfl := Option.some.inj inside
      rw [NodeList.items_erase subscribed.nodup split]
      constructor
      · exact subscribed.nodup.erase callback
      · intro third
        change _ ↔ Function.update links.mDispatcher callback (some none) third = _
        rw [subscribed.nodup.mem_erase_iff, subscribed.pointing third]
        by_cases gone : third = callback
        · simp [gone]
        · simp [gone]
      · exact subscribed.recent.sublist List.erase_sublist
    · rw [Function.update_of_ne same] at inside
      exact (sound.subscribed other items inside).frame
        (update_pointer_iff (foreign other same) (by simp)) (fun _ _ => rfl)
  · intro third other after
    change Function.update links.mSubscribers dispatcher (some (list.erase node)) other ≠ none
    by_cases same : other = dispatcher
    · rw [same, Function.update_self]
      exact Option.some_ne_none _
    · rw [Function.update_of_ne same]
      exact sound.alive third other (kept third other after)
  · exact fun third other after => sound.earlier third other (kept third other after)

/-- A `Detach` on a dispatcher that exists unlinks the callback or changes nothing. -/
theorem Sound.detach_cases (sound : links.Sound) (listed : links.mSubscribers dispatcher = some list)
    (callback : Callback) :
    (callback ∉ list.items ∧ links.detach dispatcher callback = some links) ∨
      ∃ before node rest, list.nodes = before ++ (node, callback) :: rest ∧
        links.detach dispatcher callback = some (links.unlink dispatcher callback (list.erase node)) := by
  by_cases member : callback ∈ list.items
  · right
    obtain ⟨before, node, rest, split⟩ := NodeList.exists_split member
    exact ⟨before, node, rest, split,
      (sound.present listed).detach (sound.subscribed dispatcher list listed).nodup split⟩
  · left
    exact ⟨member, detach_of_notMem listed member⟩

/-- The destruction of a callback that points to a dispatcher unlinks the callback first. -/
theorem Sound.destroyCallback (sound : links.Sound) (exist : links.mDispatcher callback ≠ none) :
    ∃ final, links.destroyCallback callback = some final ∧ final.Sound := by
  obtain ⟨target, known⟩ := Option.ne_none_iff_exists'.mp exist
  cases target with
  | none =>
      refine ⟨links.dropCallback callback, by rw [Links.destroyCallback, known], ?_⟩
      apply sound.update_pointer
      · intro dispatcher
        rw [known]
        simp
      · intro dispatcher
        simp
  | some dispatcher =>
      obtain ⟨list, listed⟩ := Option.ne_none_iff_exists'.mp (sound.alive callback dispatcher known)
      have subscribed := sound.subscribed dispatcher list listed
      obtain ⟨before, node, rest, split⟩ := NodeList.exists_split ((subscribed.pointing callback).mpr known)
      refine ⟨_, (sound.present listed).destroyCallback subscribed.nodup split known, ?_⟩
      apply (sound.unlink listed split).update_pointer
      · intro other
        change Function.update links.mDispatcher callback (some none) callback ≠ _
        rw [Function.update_self]
        simp
      · intro other
        simp

/-- The destruction of a dispatcher leaves null pointers in its callbacks. -/
theorem Sound.dropDispatcher (sound : links.Sound) (listed : links.mSubscribers dispatcher = some list)
    (deliveries : List (Delivery Dispatcher Callback Event)) :
    Sound (dropDispatcher { links with
      deliveries := deliveries
      mDispatcher := fun callback => if callback ∈ list.items then some none else links.mDispatcher callback }
      dispatcher) := by
  have subscribed := sound.subscribed dispatcher list listed
  have pointers : ∀ callback other, (if callback ∈ list.items then some none else links.mDispatcher callback) =
      some (some other) ↔ other ≠ dispatcher ∧ links.mDispatcher callback = some (some other) := by
    intro callback other
    by_cases member : callback ∈ list.items
    · simp only [if_pos member, (subscribed.pointing callback).mp member, Option.some.injEq, reduceCtorEq, false_iff]
      exact fun both => both.1 both.2.symm
    · simp only [if_neg member]
      constructor
      · intro pointing
        refine ⟨?_, pointing⟩
        intro same
        exact member ((subscribed.pointing callback).mpr (same ▸ pointing))
      · exact And.right
  constructor
  · intro other items inside
    change Function.update links.mSubscribers dispatcher none other = _ at inside
    by_cases same : other = dispatcher
    · rw [same, Function.update_self] at inside
      cases inside
    · rw [Function.update_of_ne same] at inside
      apply (sound.subscribed other items inside).frame
      · intro callback
        exact (pointers callback other).trans (and_iff_right same)
      · intro callback _
        rfl
  · intro callback other pointing
    obtain ⟨different, before⟩ := (pointers callback other).mp pointing
    change Function.update links.mSubscribers dispatcher none other ≠ none
    rw [Function.update_of_ne different]
    exact sound.alive callback other before
  · intro callback other pointing
    exact sound.earlier callback other ((pointers callback other).mp pointing).2

/-- Each call that completes was allowed. -/
theorem allowed_of_callStep {call : Call Dispatcher Callback Event} (stepped : callStep links call = some next) :
    links.Allowed call := by
  cases call with
  | createDispatcher dispatcher | createCallback callback =>
      simp only [callStep] at stepped
      split at stepped
      · next new => exact Option.isNone_iff_eq_none.mp new
      · cases stepped
  | attach dispatcher callback =>
      obtain ⟨list, listed, pushed⟩ := Option.bind_eq_some_iff.mp stepped
      obtain ⟨set, written, -⟩ := Option.map_eq_some_iff.mp pushed
      obtain ⟨target, known, -⟩ := Option.map_eq_some_iff.mp written
      exact ⟨Option.ne_none_iff_exists'.mpr ⟨list, listed⟩, Option.ne_none_iff_exists'.mpr ⟨target, known⟩⟩
  | detach dispatcher callback =>
      obtain ⟨list, listed, -⟩ := Option.bind_eq_some_iff.mp stepped
      exact Option.ne_none_iff_exists'.mpr ⟨list, listed⟩
  | notifyAll dispatcher event =>
      intro gone
      simp only [callStep, Links.notifyAll, gone, finalOf] at stepped
      cases stepped
  | destroyCallback callback =>
      intro gone
      simp only [callStep, Links.destroyCallback, gone] at stepped
      cases stepped
  | destroyDispatcher dispatcher =>
      intro gone
      simp only [callStep, Links.destroyDispatcher, gone, finalOf] at stepped
      cases stepped

/-- Each allowed call is defined and exact, and it keeps the lists when it attaches only a free callback. -/
theorem Sound.perform (sound : links.Sound) {call : Call Dispatcher Callback Event} (allowed : links.Allowed call) :
    ∃ next, callStep links call = some next ∧ links.Exact call next ∧ (AttachesFree links call → next.Sound) := by
  cases call with
  | createDispatcher dispatcher =>
      refine ⟨_, if_pos (Option.isNone_iff_eq_none.mpr allowed), trivial, fun _ => ?_⟩
      exact sound.createDispatcher allowed
  | createCallback callback =>
      refine ⟨_, if_pos (Option.isNone_iff_eq_none.mpr allowed), trivial, fun _ => ?_⟩
      have new : links.mDispatcher callback = none := allowed
      apply sound.update_pointer
      · intro dispatcher
        rw [new]
        simp
      · intro dispatcher
        simp
  | attach dispatcher callback =>
      obtain ⟨list, listed⟩ := Option.ne_none_iff_exists'.mp allowed.1
      obtain ⟨next, attached⟩ := exists_attach listed allowed.2
      exact ⟨next, attached, trivial, fun free => sound.attach listed free attached⟩
  | detach dispatcher callback =>
      obtain ⟨list, listed⟩ := Option.ne_none_iff_exists'.mp allowed
      cases sound.detach_cases listed callback with
      | inl absent => exact ⟨links, absent.2, fun _ => rfl, fun _ => sound⟩
      | inr present =>
          obtain ⟨before, node, rest, split, detached⟩ := present
          refine ⟨_, detached, ?_, fun _ => sound.unlink listed split⟩
          intro absent
          apply absurd _ (absent list listed)
          rw [NodeList.items, split]
          simp
  | notifyAll dispatcher event =>
      obtain ⟨list, listed⟩ := Option.ne_none_iff_exists'.mp allowed
      have notified := (sound.present listed).notifyAll (fun callback _ => rfl) event
      refine ⟨_, ?_, ⟨list.items, sound.subscribed dispatcher list listed, rfl⟩, fun _ => sound.deliveries _⟩
      rw [callStep, subscribers_of_listed listed, notified]
      rfl
  | destroyCallback callback =>
      obtain ⟨final, destroyed, after⟩ := sound.destroyCallback allowed
      exact ⟨final, destroyed, trivial, fun _ => after⟩
  | destroyDispatcher dispatcher =>
      obtain ⟨list, listed⟩ := Option.ne_none_iff_exists'.mp allowed
      have destroyed := (sound.present listed).destroyDispatcher (fun callback _ => rfl)
      refine ⟨_, ?_, ⟨list.items, sound.subscribed dispatcher list listed, rfl, ?_, ?_⟩,
        fun _ => sound.dropDispatcher listed _⟩
      · rw [callStep, subscribers_of_listed listed, destroyed]
        rfl
      · intro callback member
        exact if_pos member
      · change Function.update links.mSubscribers dispatcher none dispatcher = none
        rw [Function.update_self]

/-- A call that attaches only a free callback keeps the lists. -/
theorem Sound.step (sound : links.Sound) {call : Call Dispatcher Callback Event} (free : AttachesFree links call)
    (stepped : callStep links call = some next) : next.Sound := by
  obtain ⟨other, performed, -, after⟩ := sound.perform (allowed_of_callStep stepped)
  obtain rfl : other = next := Option.some.inj (performed.symm.trans stepped)
  exact after free

/-- In each run that attaches only free callbacks the pointers are consistent, and each next call is exact. -/
theorem consistent_and_exact {calls : List (Call Dispatcher Callback Event)}
    {final : Links Dispatcher Callback Event} (free : Meets callStep AttachesFree .initial calls)
    (reached : run callStep .initial calls = some final) :
    final.Consistent ∧
      ∀ call, final.Allowed call → ∃ next, callStep final call = some next ∧ final.Exact call next := by
  have sound : final.Sound := run_invariant_of_meets Sound
    (fun _ _ _ sound free stepped => sound.step free stepped) sound_initial free reached
  refine ⟨sound.consistent, fun call allowed => ?_⟩
  obtain ⟨next, performed, exact, -⟩ := sound.perform allowed
  exact ⟨next, performed, exact⟩

end Links

end

/-- Two callbacks are attached, one of them is destroyed, and the dispatcher notifies the other one. -/
def attachTwo : List (Call Nat Nat Nat) :=
  [.createDispatcher 0, .createCallback 0, .createCallback 1, .attach 0 0, .attach 0 1, .detach 0 2,
    .notifyAll 0 5, .destroyCallback 1, .notifyAll 0 6, .destroyDispatcher 0]

/-- The run of two callbacks keeps its pointers consistent. -/
theorem attachTwo_consistent : ∃ final, run callStep .initial attachTwo = some final ∧
    final.Consistent ∧
      ∀ call, final.Allowed call → ∃ next, callStep final call = some next ∧ final.Exact call next := by
  obtain ⟨final, reached⟩ : ∃ final, run callStep .initial attachTwo = some final :=
    Option.isSome_iff_exists.mp (by decide)
  exact ⟨final, reached, Links.consistent_and_exact (by decide) reached⟩

/-- The deliveries of this run come in the order of the most recent attachment. -/
example : (run callStep .initial attachTwo).map Links.deliveries =
    some [.update 0 1 5, .update 0 0 5, .update 0 0 6, .stopObserving 0 0] := by decide

end DistributedNas.Observer
