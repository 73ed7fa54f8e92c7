import DistributedNas.Schedualer.Station

/-
This file lists what a step of the scheduler does to its dispatchers and callbacks while all pointers are valid.
-/

namespace DistributedNas.Observer.Links
open Library

section
variable {Dispatcher Callback Event : Type*} {links next : Links Dispatcher Callback Event} {dispatcher : Dispatcher}
  {callback : Callback}

/-- The record of a call changes no pointer. -/
theorem Linked.record (linked : links.Linked) (delivery : Delivery Dispatcher Callback Event) :
    (links.record delivery).Linked := ⟨⟨linked.safe.listed, linked.safe.pointing⟩, linked.entered⟩

variable [DecidableEq Dispatcher] [DecidableEq Callback]

/-- A `Detach` removes the first entry of the callback from one list and changes no other list. -/
theorem detach_eq_some (detached : links.detach dispatcher callback = some next) :
    ∃ list left, links.mSubscribers dispatcher = some list ∧ left.items = list.items.erase callback ∧
      next.mSubscribers = Function.update links.mSubscribers dispatcher (some left) ∧
      next.deliveries = links.deliveries ∧
      Function.update next.mDispatcher callback none = Function.update links.mDispatcher callback none := by
  obtain ⟨list, listed, rest⟩ := Option.bind_eq_some_iff.mp detached
  by_cases member : callback ∈ list.items
  · obtain ⟨node, found, erased⟩ := NodeList.exists_find member
    simp only [found] at rest
    obtain ⟨set, written, rfl⟩ := Option.map_eq_some_iff.mp rest
    obtain ⟨old, known, rfl⟩ := Option.map_eq_some_iff.mp written
    exact ⟨list, list.erase node, listed, erased, rfl, rfl, Function.update_idem _ _ _⟩
  · rw [detach_of_notMem listed member] at detached
    obtain rfl := Option.some.inj detached
    refine ⟨list, list, listed, (List.erase_of_not_mem member).symm, ?_, rfl, rfl⟩
    rw [← listed, Function.update_eq_self]

/-- A destroyed callback is gone, and at most the list it pointed to has lost one entry of it. -/
theorem destroyCallback_eq_some (destroyed : links.destroyCallback callback = some next) :
    next.mDispatcher = Function.update links.mDispatcher callback none ∧ next.deliveries = links.deliveries ∧
      (links.mDispatcher callback = some none ∧ next.mSubscribers = links.mSubscribers ∨
        ∃ home list left, links.mDispatcher callback = some (some home) ∧ links.mSubscribers home = some list ∧
          left.items = list.items.erase callback ∧
          next.mSubscribers = Function.update links.mSubscribers home (some left)) := by
  unfold destroyCallback at destroyed
  split at destroyed
  · cases destroyed
  · next pointer =>
      obtain rfl := Option.some.inj destroyed
      exact ⟨rfl, rfl, Or.inl ⟨pointer, rfl⟩⟩
  · next home pointer =>
      obtain ⟨detached, found, rfl⟩ := Option.map_eq_some_iff.mp destroyed
      obtain ⟨list, left, listed, erased, lists, deliveries, pointers⟩ := detach_eq_some found
      exact ⟨pointers, deliveries, Or.inr ⟨home, list, left, pointer, listed, erased, lists⟩⟩

/-- The destructor of a callback is defined as long as no pointer dangles. -/
theorem Linked.destroyCallback_ne_none (linked : links.Linked) (exist : links.mDispatcher callback ≠ none) :
    links.destroyCallback callback ≠ none := by
  unfold Links.destroyCallback
  split
  · next gone => exact absurd gone exist
  · exact Option.some_ne_none _
  · next home pointer =>
      obtain ⟨list, listed⟩ := Option.ne_none_iff_exists'.mp (linked.safe.pointing callback home pointer)
      obtain ⟨left, detached, -⟩ :=
        linked.safe.detach_of_mem listed (linked.entered callback home list pointer listed)
      rw [detached, Option.map_some]
      exact Option.some_ne_none _

end

end DistributedNas.Observer.Links

namespace DistributedNas.Timing
open Library Observer

section
variable {Callback : Type*}

namespace Station

section
variable (station : Station Callback)

/-- These are the dispatcher that `Cycle` works on and the dispatchers in the queue. -/
def jobs : List Nat := (station.stage.place.map Prod.fst).toList ++ station.schedualer.mPq.map Prod.fst

/-- No pointer and no iterator of a running loop dangles, and nothing undefined has happened. -/
structure Intact : Prop where
  links : station.links.NoDangling
  iterator : ∀ place ∈ station.stage.place, (station.links.subscribers place.1).deref place.2.1 ≠ none
  defined : station.stage ≠ .undefined

/-- Each dispatcher has no callback but the one of the `Add` that created it. -/
structure Owned : Prop where
  short : ∀ dispatcher list, station.links.mSubscribers dispatcher = some list →
    list.items.Sublist station.added[dispatcher]?.toList
  fresh : ∀ dispatcher, station.added.length ≤ dispatcher → station.links.mSubscribers dispatcher = none

/-- Each job has a dispatcher of its own, and all pointers are valid. -/
structure Kept : Prop where
  linked : station.links.Linked
  owned : station.Owned
  existing : ∀ dispatcher, station.links.mSubscribers dispatcher ≠ none ↔ dispatcher ∈ station.jobs
  distinct : station.jobs.Nodup
  iterator : ∀ place ∈ station.stage.place,
    ∃ list, station.links.mSubscribers place.1 = some list ∧ list.nodes = [place.2]
  defined : station.stage ≠ .undefined

end

section
variable [DecidableEq Callback] (station : Station Callback)

/-- No dispatcher lists the callback but the one that it points to, which lists it once. -/
def ListedOnce (callback : Callback) : Prop :=
  ∀ dispatcher < station.added.length, ∀ list ∈ station.links.mSubscribers dispatcher,
    list.items.count callback ≤ if station.links.mDispatcher callback = some (some dispatcher) then 1 else 0

instance (callback : Callback) : Decidable (station.ListedOnce callback) :=
  inferInstanceAs (Decidable (∀ dispatcher < station.added.length, ∀ list ∈ station.links.mSubscribers dispatcher, _))

/-- A destroyed callback waits in at most one job and is not the one whose handler runs, and a `Cycle` finds a job when
it starts and when it ends. -/
def Spares : StationAction Callback → Prop
  | .destroy callback => station.ListedOnce callback ∧ ∀ place ∈ station.stage.place, place.2.2 ≠ callback
  | .start _ | .finish .. => station.schedualer.mPq ≠ []
  | .construct _ | .add .. | .expire _ | .resume => True

instance (action : StationAction Callback) : Decidable (station.Spares action) :=
  match action with
  | .destroy callback =>
      inferInstanceAs (Decidable (station.ListedOnce callback ∧ ∀ place ∈ station.stage.place, place.2.2 ≠ callback))
  | .start _ | .finish .. => inferInstanceAs (Decidable (station.schedualer.mPq ≠ []))
  | .construct _ | .add .. | .expire _ | .resume => inferInstanceAs (Decidable True)

end

section
variable {station : Station Callback}

/-- A list of one dispatcher is empty, or it holds the callback that was added with this dispatcher. -/
theorem Owned.nodes_cases (owned : station.Owned) {dispatcher : Nat} {list : NodeList Callback}
    (listed : station.links.mSubscribers dispatcher = some list) :
    list.nodes = [] ∨ ∃ node callback, list.nodes = [(node, callback)] ∧
      station.added[dispatcher]? = some callback := by
  have short := owned.short dispatcher list listed
  cases known : station.added[dispatcher]? with
  | none =>
      rw [known, Option.toList_none, List.sublist_nil] at short
      exact Or.inl (List.map_eq_nil_iff.mp short)
  | some callback =>
      rw [known, Option.toList_some, List.sublist_singleton] at short
      rcases short with empty | single
      · exact Or.inl (List.map_eq_nil_iff.mp empty)
      · obtain ⟨⟨node, held⟩, alone, rfl⟩ := List.map_eq_singleton_iff.mp single
        exact Or.inr ⟨node, held, alone, rfl⟩

/-- A loop at the only node of a list finds the callback there, and it ends behind this node. -/
theorem single_spec {list : NodeList Callback} {node : Node} {callback : Callback}
    (held : list.nodes = [(node, callback)]) :
    list.first = some node ∧ list.deref node = some callback ∧ list.next node = some none := by
  have split : list.nodes = [] ++ (node, callback) :: [] := held
  refine ⟨?_, NodeList.deref_of_split split, NodeList.next_of_split split⟩
  rw [NodeList.first, held]
  rfl

/-- The call of a handler is recorded while its callback exists. -/
theorem call_eq {dispatcher : Nat} {list : NodeList Callback} {node : Node} {callback : Callback}
    (listed : station.links.mSubscribers dispatcher = some list) (held : list.nodes = [(node, callback)])
    (exist : station.links.mDispatcher callback ≠ none) (inside : Callback → Stage Callback)
    (delivery : Callback → Delivery Nat Callback Int) :
    station.call dispatcher node inside delivery =
      { station with links := station.links.record (delivery callback), stage := inside callback } := by
  obtain ⟨target, known⟩ := Option.ne_none_iff_exists'.mp exist
  simp only [call, Links.subscribers_of_listed listed, (single_spec held).2.1, known]

/-- The empty list of a dispatcher ends both loops at once. -/
theorem notify_of_empty {dispatcher : Nat} {list : NodeList Callback}
    (listed : station.links.mSubscribers dispatcher = some list) (held : list.nodes = []) :
    station.notify dispatcher list.first =
      { station with links := station.links.dropDispatcher dispatcher, stage := .arming } := by
  have first : list.first = none := by
    rw [NodeList.first, held]
    rfl
  rw [first, notify, Links.subscribers_of_listed listed, first, stop]

/-- Each listed callback exists while no pointer dangles. -/
theorem Kept.exist (kept : station.Kept) {dispatcher : Nat} {list : NodeList Callback} {node : Node}
    {callback : Callback} (listed : station.links.mSubscribers dispatcher = some list)
    (held : list.nodes = [(node, callback)]) : station.links.mDispatcher callback ≠ none := by
  apply kept.linked.safe.listed dispatcher list listed callback
  rw [NodeList.items, held]
  exact List.mem_singleton_self callback

/-- A dispatcher that exists was created by an earlier `Add`. -/
theorem Owned.lt (owned : station.Owned) {dispatcher : Nat}
    (present : station.links.mSubscribers dispatcher ≠ none) : dispatcher < station.added.length := by
  by_contra beyond
  exact present (owned.fresh dispatcher (not_lt.mp beyond))

/-- The deletion of a dispatcher leaves the other lists. -/
theorem Owned.drop (owned : station.Owned) {dispatcher : Nat} {links : Links Nat Callback Int}
    (lists : links.mSubscribers = station.links.mSubscribers) {schedualer : Schedualer Nat} {pending : Nat} :
    Owned { station with
      schedualer := schedualer
      pending := pending
      links := links.dropDispatcher dispatcher
      stage := .arming } := by
  have dropped : ∀ other, (links.dropDispatcher dispatcher).mSubscribers other =
      if other = dispatcher then none else station.links.mSubscribers other := by
    intro other
    rw [← lists]
    exact Function.update_apply _ _ _ _
  refine ⟨?_, ?_⟩
  · intro other items inside
    have found := (dropped other).symm.trans inside
    split at found
    · cases found
    · exact owned.short other items found
  · intro other beyond
    refine (dropped other).trans ?_
    rw [owned.fresh other beyond, ite_self]

/-- Each job is the dispatcher of an earlier `Add`. -/
theorem Kept.below (kept : station.Kept) : ∀ dispatcher ∈ station.jobs, dispatcher < station.added.length :=
  fun dispatcher member => kept.owned.lt ((kept.existing dispatcher).mpr member)

end

end Station

variable [DecidableEq Callback]

/-- This relation lists what a step of the scheduler does to the objects while each pointer is valid. -/
inductive StationMoves (station : Station Callback) : StationAction Callback → Station Callback → Prop
  | construct (callback : Callback) (new : station.links.mDispatcher callback = none) :
      StationMoves station (.construct callback)
        { station with links.mDispatcher := Function.update station.links.mDispatcher callback (some none) }
  | destroy (callback : Callback) (links : Links Nat Callback Int)
      (exist : station.links.mDispatcher callback ≠ none)
      (gone : station.links.destroyCallback callback = some links) :
      StationMoves station (.destroy callback)
        { station with links := links, destroyed := callback :: station.destroyed }
  | add (cb : Callback) (milli : Int) (clock : AddClock) (links : Links Nat Callback Int)
      (attached : (newDispatcher station.links station.added.length).attach station.added.length cb = some links)
      (later : station.now ≤ clock.now) (ordered : clock.Ordered)
      (expires : Expires station.schedualer.mTimer clock.armed clock.expired
        (station.schedualer.rearms milli clock)) :
      StationMoves station (.add cb milli clock)
        { station with
          now := clock.armed
          schedualer := station.schedualer.add station.added.length milli clock
          pending := station.pending + clock.expired.toNat
          links := links
          added := station.added ++ [cb] }
  | expire (now : Int) (defined : station.stage ≠ .undefined) (later : station.now ≤ now)
      (expired : ∃ expiry ∈ station.schedualer.mTimer, expiry ≤ now) :
      StationMoves station (.expire now)
        { station with
          now := now
          schedualer := ⟨station.schedualer.mPq, none⟩
          pending := station.pending + 1 }
  | startEmpty (place : Nat) (empty : station.schedualer.mPq = []) :
      StationMoves station (.start place) { station with pending := station.pending - 1, stage := .undefined }
  | update (place : Nat) (entry : Entry Nat) (rest : Schedualer Nat) (node : Node) (callback : Callback)
      (list : NodeList Callback) (between : station.stage = .between)
      (popped : station.schedualer.popJob place = some (entry, rest))
      (listed : station.links.mSubscribers entry.1 = some list) (held : list.nodes = [(node, callback)])
      (waiting : 0 < station.pending) :
      StationMoves station (.start place)
        { station with
          schedualer := rest
          pending := station.pending - 1
          links := station.links.record (.update entry.1 callback 0)
          stage := .updating entry.1 node callback }
  | skip (place : Nat) (entry : Entry Nat) (rest : Schedualer Nat) (list : NodeList Callback)
      (between : station.stage = .between) (popped : station.schedualer.popJob place = some (entry, rest))
      (listed : station.links.mSubscribers entry.1 = some list) (held : list.nodes = [])
      (waiting : 0 < station.pending) :
      StationMoves station (.start place)
        { station with
          schedualer := rest
          pending := station.pending - 1
          links := station.links.dropDispatcher entry.1
          stage := .arming }
  | stopObserving (dispatcher : Nat) (node : Node) (callback : Callback) (list : NodeList Callback)
      (inside : station.stage = .updating dispatcher node callback)
      (listed : station.links.mSubscribers dispatcher = some list) (held : list.nodes = [(node, callback)]) :
      StationMoves station .resume
        { station with
          links := station.links.record (.stopObserving dispatcher callback)
          stage := .stopping dispatcher node callback }
  | drop (dispatcher : Nat) (node : Node) (callback : Callback) (list : NodeList Callback)
      (inside : station.stage = .stopping dispatcher node callback)
      (listed : station.links.mSubscribers dispatcher = some list) (held : list.nodes = [(node, callback)]) :
      StationMoves station .resume
        { station with
          links := { station.links with
            mDispatcher := Function.update station.links.mDispatcher callback (some none) }.dropDispatcher dispatcher
          stage := .arming }
  | finishEmpty (place : Nat) (now armed : Int) (expired : Bool) (empty : station.schedualer.mPq = []) :
      StationMoves station (.finish place now armed expired) station.fail
  | finish (place : Nat) (now armed : Int) (expired : Bool) (schedualer : Schedualer Nat)
      (arming : station.stage = .arming) (filled : station.schedualer.mPq ≠ [])
      (rearmed : station.schedualer.armNext place now armed = some schedualer) (later : station.now ≤ now)
      (ordered : now ≤ armed)
      (expires : Expires station.schedualer.mTimer armed expired (!station.schedualer.mPq.isEmpty)) :
      StationMoves station (.finish place now armed expired)
        { station with
          now := armed
          schedualer := schedualer
          pending := station.pending + expired.toNat
          stage := .between }

namespace Station
variable {station next : Station Callback}

theorem Kept.moves_of_start (kept : station.Kept) {place : Nat}
    (stepped : stationStep station (.start place) = some next) : StationMoves station (.start place) next := by
  simp only [stationStep] at stepped
  split at stepped
  · next enabled =>
      split at stepped
      · next empty =>
          obtain rfl := Option.some.inj stepped
          exact .startEmpty place (List.isEmpty_iff.mp empty)
      · obtain ⟨⟨entry, rest⟩, popped, rfl⟩ := Option.map_eq_some_iff.mp stepped
        have member : entry.1 ∈ station.jobs := by
          obtain ⟨-, perm, -⟩ := Schedualer.popJob_spec popped
          apply List.mem_append_right
          exact List.mem_map_of_mem (perm.mem_iff.mpr List.mem_cons_self)
        obtain ⟨list, listed⟩ := Option.ne_none_iff_exists'.mp ((kept.existing entry.1).mpr member)
        simp only [listed]
        rcases kept.owned.nodes_cases listed with empty | ⟨node, callback, held, -⟩
        · rw [notify_of_empty (by exact listed) empty]
          exact .skip place entry rest list enabled.1 popped listed empty enabled.2
        · let begun : Station Callback := { station with schedualer := rest, pending := station.pending - 1 }
          have here : begun.links.mSubscribers entry.1 = some list := listed
          have exist : begun.links.mDispatcher callback ≠ none := kept.exist listed held
          rw [(single_spec held).1, notify]
          show StationMoves station (.start place) (begun.call entry.1 node _ _)
          rw [call_eq here held exist]
          exact .update place entry rest node callback list enabled.1 popped listed held enabled.2
  · cases stepped

theorem Kept.moves_of_resume (kept : station.Kept) (stepped : stationStep station .resume = some next) :
    StationMoves station .resume next := by
  simp only [stationStep] at stepped
  split at stepped
  · next dispatcher node callback inside =>
      obtain ⟨list, listed, held⟩ := kept.iterator (dispatcher, node, callback) (by rw [inside]; rfl)
      obtain ⟨first, -, ended⟩ := single_spec held
      have same := Links.subscribers_of_listed listed
      simp only [updated, same, ended, notify, first, stop,
        call_eq listed held (kept.exist listed held), Option.some.injEq] at stepped
      obtain rfl := stepped
      exact .stopObserving dispatcher node callback list inside listed held
  · next dispatcher node callback inside =>
      obtain ⟨list, listed, held⟩ := kept.iterator (dispatcher, node, callback) (by rw [inside]; rfl)
      obtain ⟨first, found, ended⟩ := single_spec held
      have same := Links.subscribers_of_listed listed
      have cleared : Links.subscribers { station.links with
          mDispatcher := Function.update station.links.mDispatcher callback (some none) } dispatcher = list :=
        Links.subscribers_of_listed listed
      simp only [stopped, same, found, Option.bind_some, Links.setDispatcher_of_exists none (kept.exist listed held),
        cleared, ended, stop, Option.some.injEq] at stepped
      obtain rfl := stepped
      exact .drop dispatcher node callback list inside listed held
  all_goals cases stepped

/-- Each step from a valid state is one of the moves. -/
theorem Kept.moves (kept : station.Kept) {action : StationAction Callback}
    (stepped : stationStep station action = some next) : StationMoves station action next := by
  cases action with
  | construct callback =>
      simp only [stationStep] at stepped
      split at stepped
      · next enabled =>
          obtain rfl := Option.some.inj stepped
          exact .construct callback (Option.isNone_iff_eq_none.mp enabled.2)
      · cases stepped
  | destroy callback =>
      simp only [stationStep] at stepped
      split at stepped
      · next enabled =>
          have exist := Option.isSome_iff_ne_none.mp enabled.2
          split at stepped
          · next failed => exact absurd failed (kept.linked.destroyCallback_ne_none exist)
          · next links gone =>
              obtain rfl := Option.some.inj stepped
              exact .destroy callback links exist gone
      · cases stepped
  | add cb milli clock =>
      simp only [stationStep] at stepped
      split at stepped
      · next enabled =>
          obtain ⟨links, attached, rfl⟩ := Option.map_eq_some_iff.mp stepped
          exact .add cb milli clock links attached enabled.2.1 enabled.2.2.1 enabled.2.2.2
      · cases stepped
  | expire now =>
      simp only [stationStep] at stepped
      split at stepped
      · next enabled =>
          obtain rfl := Option.some.inj stepped
          exact .expire now enabled.1 enabled.2.1 enabled.2.2
      · cases stepped
  | start place => exact kept.moves_of_start stepped
  | resume => exact kept.moves_of_resume stepped
  | finish place now armed expired =>
      simp only [stationStep] at stepped
      split at stepped
      · next enabled =>
          split at stepped
          · next empty =>
              obtain rfl := Option.some.inj stepped
              exact .finishEmpty place now armed expired (List.isEmpty_iff.mp empty)
          · next filled =>
              obtain ⟨schedualer, rearmed, rfl⟩ := Option.map_eq_some_iff.mp stepped
              exact .finish place now armed expired schedualer enabled.1 (fun empty => filled (by simp [empty])) rearmed
                enabled.2.1 enabled.2.2.1 enabled.2.2.2
      · cases stepped

/-- The `Add` of an existing callback puts it into the list of a new dispatcher, and it points there. -/
theorem attach_newDispatcher {links after : Links Nat Callback Int} {dispatcher : Nat} {callback : Callback}
    (attached : (newDispatcher links dispatcher).attach dispatcher callback = some after) :
    links.mDispatcher callback ≠ none ∧
      after.mSubscribers =
        Function.update links.mSubscribers dispatcher (some (NodeList.empty.pushFront callback)) ∧
      after.mDispatcher = Function.update links.mDispatcher callback (some (some dispatcher)) ∧
      after.deliveries = links.deliveries := by
  obtain ⟨list, listed, pushed⟩ := Option.bind_eq_some_iff.mp attached
  obtain ⟨set, written, rfl⟩ := Option.map_eq_some_iff.mp pushed
  obtain ⟨target, known, rfl⟩ := Option.map_eq_some_iff.mp written
  have fresh : list = .empty := by
    change Function.update links.mSubscribers dispatcher (some .empty) dispatcher = _ at listed
    rw [Function.update_self] at listed
    exact (Option.some.inj listed).symm
  refine ⟨?_, ?_, rfl, rfl⟩
  · change links.mDispatcher callback = _ at known
    rw [known]
    exact Option.some_ne_none target
  · rw [fresh]
    exact Function.update_idem _ _ _

/-- The lists of the created dispatchers are all that there are. -/
theorem Owned.listedOnce_iff (owned : station.Owned) (callback : Callback) :
    station.ListedOnce callback ↔ station.links.DestroysListedOnce (.destroyCallback callback) := by
  constructor
  · intro once dispatcher list listed
    by_cases created : dispatcher < station.added.length
    · exact once dispatcher created list listed
    · cases (owned.fresh dispatcher (not_lt.mp created)).symm.trans listed
  · exact fun once dispatcher _ list listed => once dispatcher list listed

/-- The destruction of a callback only shortens lists. -/
theorem Owned.destroy (owned : station.Owned) {callback : Callback} {links : Links Nat Callback Int}
    (gone : station.links.destroyCallback callback = some links) :
    Owned { station with links := links, destroyed := callback :: station.destroyed } := by
  obtain ⟨pointers, deliveries, lists⟩ := Links.destroyCallback_eq_some gone
  rcases lists with ⟨-, same⟩ | ⟨home, list, left, pointer, listed, erased, changed⟩
  · refine ⟨?_, ?_⟩
    · intro other items inside
      exact owned.short other items (same ▸ inside)
    · intro other beyond
      exact (congrFun same other).trans (owned.fresh other beyond)
  · have bound : home < station.added.length := by
      apply owned.lt
      rw [listed]
      exact Option.some_ne_none list
    refine ⟨?_, ?_⟩
    · intro other items inside
      change links.mSubscribers other = some items at inside
      rw [changed] at inside
      by_cases same : other = home
      · subst same
        rw [Function.update_self] at inside
        obtain rfl := Option.some.inj inside
        rw [erased]
        exact List.erase_sublist.trans (owned.short other list listed)
      · rw [Function.update_of_ne same] at inside
        exact owned.short other items inside
    · intro other beyond
      show links.mSubscribers other = none
      rw [changed, Function.update_of_ne (bound.trans_le beyond).ne']
      exact owned.fresh other beyond

/-- The new dispatcher of an `Add` holds the added callback. -/
theorem Owned.add (owned : station.Owned) (cb : Callback) (milli : Int) (clock : AddClock)
    {links : Links Nat Callback Int}
    (attached : (newDispatcher station.links station.added.length).attach station.added.length cb = some links) :
    Owned { station with
      now := clock.armed
      schedualer := station.schedualer.add station.added.length milli clock
      pending := station.pending + clock.expired.toNat
      links := links
      added := station.added ++ [cb] } := by
  obtain ⟨exist, lists, pointers, deliveries⟩ := attach_newDispatcher attached
  refine ⟨?_, ?_⟩
  · intro other items inside
    change links.mSubscribers other = some items at inside
    show items.items.Sublist (station.added ++ [cb])[other]?.toList
    by_cases same : other = station.added.length
    · subst same
      rw [lists, Function.update_self] at inside
      obtain rfl := Option.some.inj inside
      rw [List.getElem?_concat_length]
      exact List.Sublist.refl _
    · rw [lists, Function.update_of_ne same] at inside
      have bound : other < station.added.length := by
        apply owned.lt
        rw [inside]
        exact Option.some_ne_none items
      rw [List.getElem?_append_left bound]
      exact owned.short other items inside
  · intro other beyond
    change (station.added ++ [cb]).length ≤ other at beyond
    rw [List.length_append, List.length_singleton] at beyond
    show links.mSubscribers other = none
    rw [lists, Function.update_of_ne (by omega)]
    exact owned.fresh other (by omega)

end Station

end

end DistributedNas.Timing
