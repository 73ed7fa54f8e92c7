import DistributedNas.Observer.Links

/-
This file decides when the loops over the subscribers survive handlers that remove their own callback.
-/

namespace DistributedNas.Observer
open Library

section
variable {Dispatcher Callback Event : Type*}

namespace Links

/-- The list is present, and one callback points to its dispatcher. -/
structure Waiting (links : Links Dispatcher Callback Event) (dispatcher : Dispatcher) (list : NodeList Callback)
    (callback : Callback) : Prop where
  present : links.Present dispatcher list
  pointing : links.mDispatcher callback = some (some dispatcher)

section
variable {links : Links Dispatcher Callback Event} {dispatcher : Dispatcher} {list : NodeList Callback}
  {reactions : Callback → Reaction}

/-- The first callback that removes itself comes after callbacks that stay. -/
theorem exists_first_removal (removal : ¬ ∀ callback ∈ list.items, reactions callback = .keep) :
    ∃ before entry rest, list.nodes = before ++ entry :: rest ∧
      (∀ other ∈ before, reactions other.2 = .keep) ∧ reactions entry.2 ≠ .keep := by
  cases found : list.nodes.find? (fun entry => reactions entry.2 ≠ .keep) with
  | none =>
      rw [List.find?_eq_none] at found
      exfalso
      apply removal
      intro callback member
      obtain ⟨entry, inside, rfl⟩ := List.mem_map.mp member
      simpa using found entry inside
  | some entry =>
      obtain ⟨removes, before, rest, split, kept⟩ := List.find?_eq_some_iff_append.mp found
      refine ⟨before, entry, rest, split, ?_, by simpa using removes⟩
      intro other member
      simpa using kept other member

/-- A list with a callback that removes itself splits at the first such callback, which waits for its call. -/
theorem Attached.exists_waiting (attached : links.Attached dispatcher list)
    (removal : ¬ ∀ callback ∈ list.items, reactions callback = .keep) :
    ∃ before entry rest, list.nodes = before ++ entry :: rest ∧
      (∀ other ∈ before, reactions other.2 = .keep) ∧ reactions entry.2 ≠ .keep ∧
      links.Waiting dispatcher list entry.2 := by
  obtain ⟨before, entry, rest, split, kept, removes⟩ := exists_first_removal removal
  refine ⟨before, entry, rest, split, kept, removes, attached.present, attached.pointing _ ?_⟩
  rw [NodeList.items, split]
  simp

theorem Waiting.subscribers (callback : Callback) (links : Links Dispatcher Callback Event)
    (waiting : links.Waiting dispatcher list callback) : links.subscribers dispatcher = list :=
  subscribers_of_listed waiting.present.listed

end

variable [DecidableEq Dispatcher] [DecidableEq Callback] (links : Links Dispatcher Callback Event)

/-- `NotifyAll` finishes, calls each callback once, and leaves the callbacks that did not remove themselves. -/
def NotifySafe (reactions : Callback → Reaction) (dispatcher : Dispatcher) (event : Event)
    (list : NodeList Callback) : Prop :=
  ∃ steps final, links.notifyAll reactions dispatcher event steps = .finished final ∧
    (∃ called : List Callback, called.Perm list.items ∧
      final.deliveries = links.deliveries ++ called.map fun callback => .update dispatcher callback event) ∧
    (final.subscribers dispatcher).items = list.items.filter fun callback => reactions callback = .keep

/-- `~Dispatcher` finishes, calls each callback once, and releases the callbacks that did not remove themselves. -/
def StopSafe (reactions : Callback → Reaction) (dispatcher : Dispatcher) (list : NodeList Callback) : Prop :=
  ∃ steps final, links.destroyDispatcher reactions dispatcher steps = .finished final ∧
    (∃ called : List Callback, called.Perm list.items ∧
      final.deliveries = links.deliveries ++ called.map fun callback => .stopObserving dispatcher callback) ∧
    final.mSubscribers dispatcher = none ∧
    ∀ callback ∈ list.items, reactions callback = .keep → final.mDispatcher callback = some none

variable {links} {dispatcher : Dispatcher} {list : NodeList Callback} {reactions : Callback → Reaction}

/-- Handlers that all keep their callback make `NotifyAll` safe. -/
theorem Present.notifySafe (present : links.Present dispatcher list)
    (keeps : ∀ callback ∈ list.items, reactions callback = .keep) (event : Event) :
    links.NotifySafe reactions dispatcher event list := by
  refine ⟨_, _, present.notifyAll keeps event, ⟨list.items, List.Perm.refl _, rfl⟩, ?_⟩
  rw [List.filter_eq_self.mpr (by simpa using keeps)]
  exact congrArg NodeList.items (subscribers_of_listed present.listed)

/-- Handlers that all keep their callback make `~Dispatcher` safe. -/
theorem Present.stopSafe (present : links.Present dispatcher list)
    (keeps : ∀ callback ∈ list.items, reactions callback = .keep) :
    links.StopSafe reactions dispatcher list := by
  refine ⟨_, _, present.destroyDispatcher keeps, ⟨list.items, List.Perm.refl _, rfl⟩, ?_, ?_⟩
  · change Function.update links.mSubscribers dispatcher none dispatcher = none
    rw [Function.update_self]
  · intro callback member _
    exact if_pos member

section
variable {before rest : List (Node × Callback)} {entry : Node × Callback}

/-- A handler that removes its callback erases the node of the callback. -/
theorem Present.react (present : links.Present dispatcher list) (nodup : list.items.Nodup)
    (split : list.nodes = before ++ entry :: rest) (pointing : links.mDispatcher entry.2 = some (some dispatcher))
    {reaction : Reaction} (removes : reaction ≠ .keep) :
    ∃ changed, links.react reaction dispatcher entry.2 = some changed ∧
      changed.subscribers dispatcher = list.erase entry.1 := by
  have erased : ∀ changed : Links Dispatcher Callback Event,
      changed.mSubscribers = (links.unlink dispatcher entry.2 (list.erase entry.1)).mSubscribers →
        changed.subscribers dispatcher = list.erase entry.1 := by
    intro changed same
    apply subscribers_of_listed
    rw [same]
    exact Function.update_self dispatcher _ _
  cases reaction with
  | keep => exact absurd rfl removes
  | detach => exact ⟨_, present.detach nodup split, erased _ rfl⟩
  | destroy => exact ⟨_, present.destroyCallback nodup split pointing, erased _ rfl⟩

/-- The delivery to a callback that removes itself leaves a list without its node. -/
theorem Present.deliver_removes (present : links.Present dispatcher list) (nodup : list.items.Nodup)
    (split : list.nodes = before ++ entry :: rest) (pointing : links.mDispatcher entry.2 = some (some dispatcher))
    (removes : reactions entry.2 ≠ .keep) (delivery : Delivery Dispatcher Callback Event)
    {changed : Links Dispatcher Callback Event}
    (delivered : links.deliver reactions dispatcher entry.2 delivery = some changed) :
    changed.subscribers dispatcher = list.erase entry.1 := by
  obtain ⟨other, reacted, erased⟩ := (present.record delivery).react nodup split pointing removes
  rw [deliver, pointing, Option.bind_some] at delivered
  obtain rfl : other = changed := Option.some.inj (reacted.symm.trans delivered)
  exact erased

/-- `NotifyAll` does not finish after a callback removes itself, since it increments an erased node. -/
theorem Attached.notifyAll_ne_finished (attached : links.Attached dispatcher list)
    (removal : ¬ ∀ callback ∈ list.items, reactions callback = .keep) (event : Event) (steps : Nat)
    (final : Links Dispatcher Callback Event) :
    links.notifyAll reactions dispatcher event steps ≠ .finished final := by
  obtain ⟨before, entry, rest, split, kept, removes, start⟩ := attached.exists_waiting removal
  rw [Links.notifyAll, attached.listed]
  simp only
  apply walk_stuck (fun node (current : Links Dispatcher Callback Event) =>
    current.notifyBody reactions dispatcher event node)
    (fun callback current => current.record (.update dispatcher callback event))
    (Waiting.subscribers entry.2) split
  · intro other member current here
    obtain ⟨left, right, inside⟩ := NodeList.split_of_mem_before split member
    exact ⟨here.present.notifyBody inside (kept other member) event, here.present.record _, here.pointing⟩
  · intro current changed here entered
    rw [Links.notifyBody, (here.present.deref split).1, Option.bind_some] at entered
    rw [here.present.deliver_removes attached.nodup split here.pointing removes _ entered]
    exact NodeList.next_erase split
  · exact start

/-- `~Dispatcher` does not finish after a callback removes itself, since it dereferences an erased node. -/
theorem Attached.destroyDispatcher_ne_finished (attached : links.Attached dispatcher list)
    (removal : ¬ ∀ callback ∈ list.items, reactions callback = .keep) (steps : Nat)
    (final : Links Dispatcher Callback Event) :
    links.destroyDispatcher reactions dispatcher steps ≠ .finished final := by
  obtain ⟨before, entry, rest, split, kept, removes, start⟩ := attached.exists_waiting removal
  have stuck : ∀ reached, walk (fun current => current.subscribers dispatcher)
      (fun node current => current.stopBody reactions dispatcher node) steps list.first links ≠
        .finished reached := by
    intro reached
    apply walk_stuck (fun node (current : Links Dispatcher Callback Event) =>
      current.stopBody reactions dispatcher node)
      (fun callback current => current.release callback (.stopObserving dispatcher callback))
      (Waiting.subscribers entry.2) split
    · intro other member current here
      obtain ⟨left, right, inside⟩ := NodeList.split_of_mem_before split member
      have different : entry.2 ≠ other.2 := by
        intro same
        exact removes (same ▸ kept other member)
      refine ⟨here.present.stopBody inside (kept other member), here.present.release _ _, ?_⟩
      change Function.update current.mDispatcher other.2 (some none) entry.2 = _
      rw [Function.update_of_ne different]
      exact here.pointing
    · intro current changed here entered
      rw [Links.stopBody, (here.present.deref split).1, Option.bind_some] at entered
      obtain ⟨stopped, delivered, cleared⟩ := Option.bind_eq_some_iff.mp entered
      rw [here.present.deliver_removes attached.nodup split here.pointing removes _ delivered,
        NodeList.deref_erase split] at cleared
      cases cleared
    · exact start
  rw [Links.destroyDispatcher, attached.listed]
  intro finished
  simp only at finished
  split at finished
  · next reached ended => exact stuck reached ended
  · cases finished
  · cases finished

end

/-- The loops over the subscribers are safe exactly when no attached callback removes itself in its handler. -/
theorem selfRemoval_safe_iff (attached : links.Attached dispatcher list) (updates stops : Callback → Reaction)
    (event : Event) :
    (links.NotifySafe updates dispatcher event list ↔ ∀ callback ∈ list.items, updates callback = .keep) ∧
      (links.StopSafe stops dispatcher list ↔ ∀ callback ∈ list.items, stops callback = .keep) := by
  refine ⟨⟨fun safe => ?_, fun keeps => attached.present.notifySafe keeps event⟩,
    ⟨fun safe => ?_, fun keeps => attached.present.stopSafe keeps⟩⟩
  · obtain ⟨steps, final, finished, -⟩ := safe
    by_contra removal
    exact attached.notifyAll_ne_finished removal event steps final finished
  · obtain ⟨steps, final, finished, -⟩ := safe
    by_contra removal
    exact attached.destroyDispatcher_ne_finished removal steps final finished

end Links

end

/-- One callback is attached, as `Schedualer::Add` does with a new dispatcher. -/
def oneSubscriber : NodeList Nat := NodeList.empty.pushFront 0

/-- This dispatcher has one callback. -/
def oneLink : Links Nat Nat Nat where
  mSubscribers := fun dispatcher => if dispatcher = 0 then some oneSubscriber else none
  mDispatcher := fun callback => if callback = 0 then some (some 0) else none
  deliveries := []
  attaches := 1
  attachedAt := fun _ => 0

theorem oneLink_attached : oneLink.Attached 0 oneSubscriber where
  listed := rfl
  nodup := List.nodup_singleton 0
  pointing := by
    intro callback member
    obtain rfl := List.mem_singleton.mp member
    rfl

/-- `Kamikaze::OnEvent` ends with `delete this`, which destroys the callback that is being called. -/
def kamikaze : Nat → Reaction := fun _ => .destroy

/-- Three callbacks are attached to one dispatcher. -/
def threeSubscribers : NodeList Nat := ((NodeList.empty.pushFront 0).pushFront 1).pushFront 2

def threeLinks : Links Nat Nat Nat where
  mSubscribers := fun dispatcher => if dispatcher = 0 then some threeSubscribers else none
  mDispatcher := fun callback => if callback < 3 then some (some 0) else none
  deliveries := []
  attaches := 3
  attachedAt := fun callback => callback

theorem threeLinks_attached : threeLinks.Attached 0 threeSubscribers where
  listed := rfl
  nodup := by decide
  pointing := by
    have small : ∀ callback ∈ threeSubscribers.items, callback < 3 := by decide
    exact fun callback member => if_pos (small callback member)

/-- Three callbacks that keep themselves are called and released safely, and one that detaches itself spoils it. -/
theorem threeLinks_safe :
    threeLinks.NotifySafe (fun _ => .keep) 0 0 threeSubscribers ∧
      threeLinks.StopSafe (fun _ => .keep) 0 threeSubscribers ∧
      ¬ threeLinks.NotifySafe (fun callback => if callback = 1 then .detach else .keep) 0 0 threeSubscribers := by
  have safe := Links.selfRemoval_safe_iff threeLinks_attached (fun _ => .keep) (fun _ => .keep) 0
  have spoilt := Links.selfRemoval_safe_iff threeLinks_attached (fun callback => if callback = 1 then .detach else .keep)
    (fun _ => .keep) 0
  refine ⟨safe.1.mpr fun _ _ => rfl, safe.2.mpr fun _ _ => rfl, fun finishes => ?_⟩
  have kept := spoilt.1.mp finishes 1 (by decide)
  cases kept

/-- One callback that destroys itself makes `NotifyAll` and `~Dispatcher` use its erased node. -/
theorem oneLink_kamikaze :
    oneLink.Attached 0 oneSubscriber ∧ oneLink.notifyAll kamikaze 0 0 1 = .undefined ∧
      ¬ oneLink.NotifySafe kamikaze 0 0 oneSubscriber ∧ ¬ oneLink.StopSafe kamikaze 0 oneSubscriber := by
  refine ⟨oneLink_attached, rfl, ?_, ?_⟩
  · rintro ⟨steps, final, finished, -⟩
    cases steps with
    | zero => cases finished
    | succ steps => cases finished
  · rintro ⟨steps, final, finished, -⟩
    cases steps with
    | zero => cases finished
    | succ steps => cases finished

end DistributedNas.Observer
