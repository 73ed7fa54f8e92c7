import DistributedNas.Observer.Consistency

/-
This file proves when the pointers between dispatchers and callbacks dangle if callbacks are attached at any time.
-/

namespace DistributedNas.Observer
open Library

section
variable {Dispatcher Callback Event : Type*}

namespace Links

section
variable [DecidableEq Dispatcher] [DecidableEq Callback] (links : Links Dispatcher Callback Event)

/-- A destroyed callback is in no list, or it is once in the list of the dispatcher that it points to. -/
def DestroysListedOnce : Call Dispatcher Callback Event → Prop
  | .destroyCallback callback => ∀ dispatcher list, links.mSubscribers dispatcher = some list →
      list.items.count callback ≤ if links.mDispatcher callback = some (some dispatcher) then 1 else 0
  | _ => True

end

variable (links : Links Dispatcher Callback Event)

/-- No list holds a destroyed callback, and no callback points to a destroyed dispatcher. -/
structure NoDangling : Prop where
  listed : ∀ dispatcher list, links.mSubscribers dispatcher = some list →
    ∀ callback ∈ list.items, links.mDispatcher callback ≠ none
  pointing : ∀ callback dispatcher, links.mDispatcher callback = some (some dispatcher) →
    links.mSubscribers dispatcher ≠ none

/-- Each callback is in the list of the dispatcher that it points to. -/
def Entered : Prop :=
  ∀ callback dispatcher list, links.mDispatcher callback = some (some dispatcher) →
    links.mSubscribers dispatcher = some list → callback ∈ list.items

/-- These facts hold as long as nothing dangles. -/
structure Linked : Prop where
  safe : links.NoDangling
  entered : links.Entered

variable {links} {next : Links Dispatcher Callback Event} {dispatcher : Dispatcher} {callback : Callback}
  {list : NodeList Callback}

theorem linked_initial : (initial : Links Dispatcher Callback Event).Linked := by
  refine ⟨⟨?_, ?_⟩, ?_⟩
  · intro dispatcher list listed
    cases listed
  · intro callback dispatcher pointing
    cases pointing
  · intro callback dispatcher list pointing
    cases pointing

theorem NoDangling.present (safe : links.NoDangling) (listed : links.mSubscribers dispatcher = some list) :
    links.Present dispatcher list := ⟨listed, safe.listed dispatcher list listed⟩

section
variable [DecidableEq Dispatcher]

theorem Linked.createDispatcher (linked : links.Linked) (new : links.mSubscribers dispatcher = none) :
    Linked { links with mSubscribers := Function.update links.mSubscribers dispatcher (some .empty) } := by
  refine ⟨⟨?_, ?_⟩, ?_⟩
  · intro other items inside callback member
    change Function.update links.mSubscribers dispatcher (some .empty) other = _ at inside
    by_cases same : other = dispatcher
    · rw [same, Function.update_self] at inside
      obtain rfl := Option.some.inj inside
      cases member
    · rw [Function.update_of_ne same] at inside
      exact linked.safe.listed other items inside callback member
  · intro callback other pointing
    change Function.update links.mSubscribers dispatcher (some .empty) other ≠ none
    by_cases same : other = dispatcher
    · rw [same, Function.update_self]
      exact Option.some_ne_none _
    · rw [Function.update_of_ne same]
      exact linked.safe.pointing callback other pointing
  · intro callback other items pointing inside
    change Function.update links.mSubscribers dispatcher (some .empty) other = _ at inside
    by_cases same : other = dispatcher
    · exact absurd new (same ▸ linked.safe.pointing callback other pointing)
    · rw [Function.update_of_ne same] at inside
      exact linked.entered callback other items pointing inside

end

section
variable [DecidableEq Callback]

theorem Linked.createCallback (linked : links.Linked) :
    Linked { links with mDispatcher := Function.update links.mDispatcher callback (some none) } := by
  have kept : ∀ other dispatcher, Function.update links.mDispatcher callback (some none) other =
      some (some dispatcher) → links.mDispatcher other = some (some dispatcher) := by
    intro other dispatcher pointing
    by_cases same : other = callback
    · rw [same, Function.update_self] at pointing
      cases pointing
    · rwa [Function.update_of_ne same] at pointing
  refine ⟨⟨?_, ?_⟩, ?_⟩
  · intro dispatcher items inside other member
    show Function.update links.mDispatcher callback (some none) other ≠ none
    by_cases same : other = callback
    · rw [same, Function.update_self]
      exact Option.some_ne_none _
    · rw [Function.update_of_ne same]
      exact linked.safe.listed dispatcher items inside other member
  · exact fun other dispatcher pointing => linked.safe.pointing other dispatcher (kept other dispatcher pointing)
  · exact fun other dispatcher items pointing => linked.entered other dispatcher items (kept other dispatcher pointing)

/-- Nothing dangles after a callback is gone exactly when no list holds it. -/
theorem Linked.dropCallback_iff (linked : links.Linked) (callback : Callback) :
    ((links.dropCallback callback).NoDangling ↔
        ∀ dispatcher list, links.mSubscribers dispatcher = some list → callback ∉ list.items) ∧
      (links.dropCallback callback).Entered := by
  have kept : ∀ other target, (links.dropCallback callback).mDispatcher other = some (some target) →
      links.mDispatcher other = some (some target) := by
    intro other target pointing
    change Function.update links.mDispatcher callback none other = _ at pointing
    by_cases same : other = callback
    · rw [same, Function.update_self] at pointing
      cases pointing
    · rwa [Function.update_of_ne same] at pointing
  constructor
  · constructor
    · intro safe dispatcher list listed member
      apply safe.listed dispatcher list listed callback member
      show Function.update links.mDispatcher callback none callback = none
      rw [Function.update_self]
    · intro absent
      constructor
      · intro dispatcher list listed other member
        show Function.update links.mDispatcher callback none other ≠ none
        have apart : other ≠ callback := by
          rintro rfl
          exact absent dispatcher list listed member
        rw [Function.update_of_ne apart]
        exact linked.safe.listed dispatcher list listed other member
      · exact fun other target pointing => linked.safe.pointing other target (kept other target pointing)
  · exact fun other target list pointing => linked.entered other target list (kept other target pointing)

end

variable [DecidableEq Dispatcher] [DecidableEq Callback]

/-- A `Detach` of a listed callback clears its pointer and removes its first entry. -/
theorem NoDangling.detach_of_mem (safe : links.NoDangling) (listed : links.mSubscribers dispatcher = some list)
    (member : callback ∈ list.items) :
    ∃ left, links.detach dispatcher callback = some (links.unlink dispatcher callback left) ∧
      left.items = list.items.erase callback := by
  obtain ⟨node, found, items⟩ := NodeList.exists_find member
  refine ⟨list.erase node, ?_, items⟩
  simp only [Links.detach, listed, Option.bind_some, found,
    setDispatcher_of_exists none (safe.listed dispatcher list listed callback member), Option.map_some]
  rfl

/-- An `Attach` of any callback leaves its older entries in place. -/
theorem Linked.attach (linked : links.Linked) (attached : links.attach dispatcher callback = some next) :
    next.Linked := by
  obtain ⟨list, listed, pushed⟩ := Option.bind_eq_some_iff.mp attached
  obtain ⟨set, written, rfl⟩ := Option.map_eq_some_iff.mp pushed
  obtain ⟨target, known, rfl⟩ := Option.map_eq_some_iff.mp written
  have exist : ∀ other, links.mDispatcher other ≠ none →
      Function.update links.mDispatcher callback (some (some dispatcher)) other ≠ none := by
    intro other before
    by_cases same : other = callback
    · rw [same, Function.update_self]
      exact Option.some_ne_none _
    · rwa [Function.update_of_ne same]
  refine ⟨⟨?_, ?_⟩, ?_⟩
  · intro other items inside third member
    change Function.update links.mSubscribers dispatcher (some (list.pushFront callback)) other = _ at inside
    apply exist
    by_cases same : other = dispatcher
    · rw [same, Function.update_self] at inside
      obtain rfl := Option.some.inj inside
      cases List.mem_cons.mp member with
      | inl new =>
          rw [new, known]
          exact Option.some_ne_none _
      | inr old => exact linked.safe.listed dispatcher list listed third old
    · rw [Function.update_of_ne same] at inside
      exact linked.safe.listed other items inside third member
  · intro third other pointing
    change Function.update links.mDispatcher callback (some (some dispatcher)) third = _ at pointing
    change Function.update links.mSubscribers dispatcher (some (list.pushFront callback)) other ≠ none
    by_cases same : other = dispatcher
    · rw [same, Function.update_self]
      exact Option.some_ne_none _
    · rw [Function.update_of_ne same]
      by_cases new : third = callback
      · rw [new, Function.update_self] at pointing
        exact absurd (Option.some.inj (Option.some.inj pointing)).symm same
      · rw [Function.update_of_ne new] at pointing
        exact linked.safe.pointing third other pointing
  · intro third other items pointing inside
    change Function.update links.mDispatcher callback (some (some dispatcher)) third = _ at pointing
    change Function.update links.mSubscribers dispatcher (some (list.pushFront callback)) other = _ at inside
    by_cases new : third = callback
    · rw [new, Function.update_self] at pointing
      obtain rfl := Option.some.inj (Option.some.inj pointing)
      rw [Function.update_self] at inside
      obtain rfl := Option.some.inj inside
      rw [new]
      exact List.mem_cons_self
    · rw [Function.update_of_ne new] at pointing
      by_cases same : other = dispatcher
      · rw [same, Function.update_self] at inside
        obtain rfl := Option.some.inj inside
        exact List.mem_cons_of_mem callback (linked.entered third dispatcher list (same ▸ pointing) listed)
      · rw [Function.update_of_ne same] at inside
        exact linked.entered third other items pointing inside

/-- The removal of one entry of a callback whose pointer is cleared keeps the links. -/
theorem Linked.unlink (linked : links.Linked) (listed : links.mSubscribers dispatcher = some list)
    {left : NodeList Callback} (erased : left.items = list.items.erase callback) :
    (links.unlink dispatcher callback left).Linked := by
  have kept : ∀ other target, Function.update links.mDispatcher callback (some none) other =
      some (some target) → other ≠ callback ∧ links.mDispatcher other = some (some target) := by
    intro other target pointing
    by_cases same : other = callback
    · rw [same, Function.update_self] at pointing
      cases pointing
    · rw [Function.update_of_ne same] at pointing
      exact ⟨same, pointing⟩
  refine ⟨⟨?_, ?_⟩, ?_⟩
  · intro other items inside third member
    change Function.update links.mSubscribers dispatcher (some left) other = _ at inside
    show Function.update links.mDispatcher callback (some none) third ≠ none
    by_cases gone : third = callback
    · rw [gone, Function.update_self]
      exact Option.some_ne_none _
    · rw [Function.update_of_ne gone]
      by_cases same : other = dispatcher
      · rw [same, Function.update_self] at inside
        obtain rfl := Option.some.inj inside
        rw [erased] at member
        exact linked.safe.listed dispatcher list listed third (List.mem_of_mem_erase member)
      · rw [Function.update_of_ne same] at inside
        exact linked.safe.listed other items inside third member
  · intro third other pointing
    show Function.update links.mSubscribers dispatcher (some left) other ≠ none
    by_cases same : other = dispatcher
    · rw [same, Function.update_self]
      exact Option.some_ne_none _
    · rw [Function.update_of_ne same]
      exact linked.safe.pointing third other (kept third other pointing).2
  · intro third other items pointing inside
    obtain ⟨apart, before⟩ := kept third other pointing
    change Function.update links.mSubscribers dispatcher (some left) other = _ at inside
    by_cases same : other = dispatcher
    · rw [same, Function.update_self] at inside
      obtain rfl := Option.some.inj inside
      rw [erased, List.mem_erase_of_ne apart]
      exact linked.entered third dispatcher list (same ▸ before) listed
    · rw [Function.update_of_ne same] at inside
      exact linked.entered third other items before inside

theorem Linked.detach (linked : links.Linked) (detached : links.detach dispatcher callback = some next) :
    next.Linked := by
  obtain ⟨list, listed, _⟩ := Option.bind_eq_some_iff.mp detached
  by_cases member : callback ∈ list.items
  · obtain ⟨left, unlinked, erased⟩ := linked.safe.detach_of_mem listed member
    obtain rfl := Option.some.inj (unlinked.symm.trans detached)
    exact linked.unlink listed erased
  · obtain rfl := Option.some.inj ((detach_of_notMem listed member).symm.trans detached)
    exact linked

/-- A destroyed dispatcher clears the pointers of its list, and these are all pointers to it. -/
theorem Linked.dropDispatcher (linked : links.Linked) (listed : links.mSubscribers dispatcher = some list)
    (deliveries : List (Delivery Dispatcher Callback Event)) :
    Linked (dropDispatcher { links with
      deliveries := deliveries
      mDispatcher := fun callback => if callback ∈ list.items then some none else links.mDispatcher callback }
      dispatcher) := by
  have kept : ∀ callback target, (if callback ∈ list.items then some none else links.mDispatcher callback) =
      some (some target) → target ≠ dispatcher ∧ links.mDispatcher callback = some (some target) := by
    intro callback target pointing
    by_cases member : callback ∈ list.items
    · simp [if_pos member] at pointing
    · rw [if_neg member] at pointing
      refine ⟨?_, pointing⟩
      rintro rfl
      exact member (linked.entered callback target list pointing listed)
  refine ⟨⟨?_, ?_⟩, ?_⟩
  · intro other items inside callback member
    change Function.update links.mSubscribers dispatcher none other = _ at inside
    show (if callback ∈ list.items then some none else links.mDispatcher callback) ≠ none
    by_cases same : other = dispatcher
    · rw [same, Function.update_self] at inside
      cases inside
    · rw [Function.update_of_ne same] at inside
      split
      · exact Option.some_ne_none _
      · exact linked.safe.listed other items inside callback member
  · intro callback other pointing
    obtain ⟨different, before⟩ := kept callback other pointing
    show Function.update links.mSubscribers dispatcher none other ≠ none
    rw [Function.update_of_ne different]
    exact linked.safe.pointing callback other before
  · intro callback other items pointing inside
    obtain ⟨different, before⟩ := kept callback other pointing
    change Function.update links.mSubscribers dispatcher none other = _ at inside
    rw [Function.update_of_ne different] at inside
    exact linked.entered callback other items before inside

/-- Nothing dangles after the destruction of a callback exactly when its destructor finds its only entry. -/
theorem Linked.destroyCallback_iff (linked : links.Linked) (destroyed : links.destroyCallback callback = some next) :
    (next.NoDangling ↔ ∀ dispatcher list, links.mSubscribers dispatcher = some list →
        list.items.count callback ≤ if links.mDispatcher callback = some (some dispatcher) then 1 else 0) ∧
      next.Entered := by
  unfold Links.destroyCallback at destroyed
  split at destroyed
  · cases destroyed
  · next pointer =>
      obtain rfl := Option.some.inj destroyed
      obtain ⟨safe, entered⟩ := linked.dropCallback_iff callback
      refine ⟨safe.trans ?_, entered⟩
      apply forall_congr'
      intro dispatcher
      apply forall_congr'
      intro list
      rw [pointer, if_neg (by simp), Nat.le_zero, List.count_eq_zero]
  · next home pointer =>
      obtain ⟨list, listed⟩ := Option.ne_none_iff_exists'.mp (linked.safe.pointing callback home pointer)
      obtain ⟨left, unlinked, erased⟩ :=
        linked.safe.detach_of_mem listed (linked.entered callback home list pointer listed)
      rw [unlinked, Option.map_some] at destroyed
      obtain rfl := Option.some.inj destroyed
      obtain ⟨safe, entered⟩ := (linked.unlink listed erased).dropCallback_iff callback
      refine ⟨safe.trans ?_, entered⟩
      have remains : callback ∉ left.items ↔ list.items.count callback ≤ 1 := by
        rw [erased, ← List.count_eq_zero, List.count_erase_self, Nat.sub_eq_zero_iff_le]
      apply forall_congr'
      intro dispatcher
      show (∀ items, Function.update links.mSubscribers home (some left) dispatcher = some items → _) ↔ _
      by_cases same : dispatcher = home
      · rw [same, Function.update_self, pointer, if_pos rfl, listed]
        simp only [Option.some.injEq, forall_eq', remains]
      · have elsewhere : ¬ links.mDispatcher callback = some (some dispatcher) := by
          rw [pointer]
          intro equal
          exact same (Option.some.inj (Option.some.inj equal)).symm
        simp only [Function.update_of_ne same, if_neg elsewhere, Nat.le_zero, List.count_eq_zero]

/-- Each call keeps the links, apart from the destruction of a callback with other entries. -/
theorem Linked.step (linked : links.Linked) {call : Call Dispatcher Callback Event}
    (stepped : callStep links call = some next) :
    (next.NoDangling ↔ links.DestroysListedOnce call) ∧ next.Entered := by
  have kept : ∀ final : Links Dispatcher Callback Event, final.Linked →
      (final.NoDangling ↔ True) ∧ final.Entered :=
    fun final after => ⟨iff_true_intro after.safe, after.entered⟩
  cases call with
  | createDispatcher dispatcher =>
      simp only [callStep] at stepped
      split at stepped
      · next new =>
          obtain rfl := Option.some.inj stepped
          exact kept _ (linked.createDispatcher (Option.isNone_iff_eq_none.mp new))
      · cases stepped
  | createCallback callback =>
      simp only [callStep] at stepped
      split at stepped
      · obtain rfl := Option.some.inj stepped
        exact kept _ linked.createCallback
      · cases stepped
  | attach dispatcher callback => exact kept _ (linked.attach stepped)
  | detach dispatcher callback => exact kept _ (linked.detach stepped)
  | notifyAll dispatcher event =>
      obtain ⟨list, listed⟩ := Option.ne_none_iff_exists'.mp (allowed_of_callStep stepped)
      have notified := (linked.safe.present listed).notifyAll (fun callback _ => rfl) event
      rw [callStep, subscribers_of_listed listed, notified] at stepped
      obtain rfl := Option.some.inj stepped
      exact kept _ ⟨⟨linked.safe.listed, linked.safe.pointing⟩, linked.entered⟩
  | destroyCallback callback => exact linked.destroyCallback_iff stepped
  | destroyDispatcher dispatcher =>
      obtain ⟨list, listed⟩ := Option.ne_none_iff_exists'.mp (allowed_of_callStep stepped)
      have destroyed := (linked.safe.present listed).destroyDispatcher (fun callback _ => rfl)
      rw [callStep, subscribers_of_listed listed, destroyed] at stepped
      obtain rfl := Option.some.inj stepped
      exact kept _ (linked.dropDispatcher listed _)

/-- In each run nothing dangles at any moment exactly when each destroyed callback was in no list but its own, once. -/
theorem noDangling_iff_destroysListedOnce {calls : List (Call Dispatcher Callback Event)}
    {final : Links Dispatcher Callback Event} (reached : run callStep .initial calls = some final) :
    Throughout callStep NoDangling (.initial : Links Dispatcher Callback Event) calls ↔
      Meets callStep DestroysListedOnce .initial calls := by
  apply throughout_iff_meets _ _ linked_initial reached
  · exact fun links call next linked stepped => (linked.step stepped).1
  · exact fun links call next linked safe stepped => ⟨safe, (linked.step stepped).2⟩

end Links
end

/-- A callback is attached twice to one dispatcher and detached twice before it is destroyed. -/
def attachTwice : List (Call Nat Nat Nat) :=
  [.createDispatcher 0, .createCallback 0, .attach 0 0, .attach 0 0, .detach 0 0, .detach 0 0, .destroyCallback 0]

/-- Nothing dangles in this run if and only if its destruction finds the callback in no list. -/
theorem attachTwice_iff : ∃ final, run callStep .initial attachTwice = some final ∧
    (Throughout callStep Links.NoDangling (.initial : Links Nat Nat Nat) attachTwice ↔
      Meets callStep Links.DestroysListedOnce .initial attachTwice) := by
  obtain ⟨final, reached⟩ : ∃ final, run callStep .initial attachTwice = some final :=
    Option.isSome_iff_exists.mp (by decide)
  exact ⟨final, reached, Links.noDangling_iff_destroysListedOnce reached⟩

/-- A callback is attached to two dispatchers, and then it is destroyed. -/
def attachBoth : List (Call Nat Nat Nat) :=
  [.createDispatcher 0, .createDispatcher 1, .createCallback 0, .attach 0 0, .attach 1 0, .destroyCallback 0]

/-- The first dispatcher still lists the destroyed callback. -/
theorem attachBoth_dangles : ∃ final, run callStep .initial attachBoth = some final ∧
    (final.mSubscribers 0).map NodeList.items = some [0] ∧ final.mDispatcher 0 = none ∧ ¬ final.NoDangling := by
  obtain ⟨final, reached, items, gone⟩ : ∃ final, run callStep .initial attachBoth = some final ∧
      (final.mSubscribers 0).map NodeList.items = some [0] ∧ final.mDispatcher 0 = none := by decide
  refine ⟨final, reached, items, gone, ?_⟩
  intro safe
  obtain ⟨list, listed, same⟩ := Option.map_eq_some_iff.mp items
  exact safe.listed 0 list listed 0 (by rw [same]; exact List.mem_cons_self) gone

end DistributedNas.Observer
