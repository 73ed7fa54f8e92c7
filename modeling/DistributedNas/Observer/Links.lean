import DistributedNas.Library.NodeList
import DistributedNas.Library.Transition

/-
This file models `Dispatcher` and `CallbackBase` with the pointers that they hold to each other.
-/

namespace DistributedNas.Observer
open Library

/-- A handler keeps its own callback, detaches it, or destroys it. -/
inductive Reaction where
  | keep
  | detach
  | destroy
  deriving DecidableEq, Repr

/-- A dispatcher calls one of the two handlers of a callback. -/
inductive Delivery (Dispatcher Callback Event : Type*) where
  | update (dispatcher : Dispatcher) (callback : Callback) (event : Event)
  | stopObserving (dispatcher : Dispatcher) (callback : Callback)
  deriving DecidableEq, Repr

/-- An object that does not exist has no field, and the history says when each callback was last attached. -/
structure Links (Dispatcher Callback Event : Type*) where
  mSubscribers : Dispatcher → Option (NodeList Callback)
  mDispatcher : Callback → Option (Option Dispatcher)
  deliveries : List (Delivery Dispatcher Callback Event)
  attaches : Nat
  attachedAt : Callback → Nat

section
variable {Dispatcher Callback Event : Type*}

namespace Links

/-- No object exists at first. -/
def initial : Links Dispatcher Callback Event := ⟨fun _ => none, fun _ => none, [], 0, fun _ => 0⟩

variable (links : Links Dispatcher Callback Event)

section
variable [DecidableEq Dispatcher] [DecidableEq Callback]

/-- This is the list of a dispatcher, which is empty for one that does not exist. -/
def subscribers (dispatcher : Dispatcher) : NodeList Callback := (links.mSubscribers dispatcher).getD .empty

/-- `CallbackBase::SetDispatcher` writes a field of a callback that must exist. -/
def setDispatcher (callback : Callback) (dispatcher : Option Dispatcher) : Option (Links Dispatcher Callback Event) :=
  (links.mDispatcher callback).map fun _ =>
    { links with mDispatcher := Function.update links.mDispatcher callback (some dispatcher) }

/-- `Dispatcher::Attach` does not check whether the callback is attached. -/
def attach (dispatcher : Dispatcher) (callback : Callback) : Option (Links Dispatcher Callback Event) :=
  (links.mSubscribers dispatcher).bind fun list =>
    (links.setDispatcher callback (some dispatcher)).map fun set =>
      { set with
        mSubscribers := Function.update set.mSubscribers dispatcher (some (list.pushFront callback))
        attaches := set.attaches + 1
        attachedAt := Function.update set.attachedAt callback set.attaches }

/-- `Dispatcher::Detach` erases the first node that holds the callback. -/
def detach (dispatcher : Dispatcher) (callback : Callback) : Option (Links Dispatcher Callback Event) :=
  (links.mSubscribers dispatcher).bind fun list =>
    match list.find callback with
    | none => some links
    | some node =>
        (links.setDispatcher callback none).map fun set =>
          { set with mSubscribers := Function.update set.mSubscribers dispatcher (some (list.erase node)) }

/-- This function removes a callback and its pointer. -/
def dropCallback (callback : Callback) : Links Dispatcher Callback Event :=
  { links with mDispatcher := Function.update links.mDispatcher callback none }

/-- `CallbackBase::~CallbackBase` detaches the callback from the dispatcher it points to. -/
def destroyCallback (callback : Callback) : Option (Links Dispatcher Callback Event) :=
  match links.mDispatcher callback with
  | none => none
  | some none => some (links.dropCallback callback)
  | some (some dispatcher) => (links.detach dispatcher callback).map fun detached => detached.dropCallback callback

/-- A handler may remove its own callback. -/
def react (reaction : Reaction) (dispatcher : Dispatcher) (callback : Callback) :
    Option (Links Dispatcher Callback Event) :=
  match reaction with
  | .keep => some links
  | .detach => links.detach dispatcher callback
  | .destroy => links.destroyCallback callback

/-- The call of a handler is undefined for a callback that does not exist. -/
def deliver (reactions : Callback → Reaction) (dispatcher : Dispatcher) (callback : Callback)
    (delivery : Delivery Dispatcher Callback Event) : Option (Links Dispatcher Callback Event) :=
  (links.mDispatcher callback).bind fun _ =>
    { links with deliveries := links.deliveries ++ [delivery] }.react (reactions callback) dispatcher callback

/-- This is the body of the loop of `Dispatcher::NotifyAll`. -/
def notifyBody (reactions : Callback → Reaction) (dispatcher : Dispatcher) (event : Event) (node : Node) :
    Option (Links Dispatcher Callback Event) :=
  ((links.subscribers dispatcher).deref node).bind fun callback =>
    links.deliver reactions dispatcher callback (.update dispatcher callback event)

/-- The body of the loop of `Dispatcher::~Dispatcher` dereferences its iterator again after the handler. -/
def stopBody (reactions : Callback → Reaction) (dispatcher : Dispatcher) (node : Node) :
    Option (Links Dispatcher Callback Event) :=
  ((links.subscribers dispatcher).deref node).bind fun callback =>
    (links.deliver reactions dispatcher callback (.stopObserving dispatcher callback)).bind fun stopped =>
      ((stopped.subscribers dispatcher).deref node).bind fun held => stopped.setDispatcher held none

/-- `Dispatcher::NotifyAll` runs for at most this number of iterations. -/
def notifyAll (reactions : Callback → Reaction) (dispatcher : Dispatcher) (event : Event) (steps : Nat) :
    Outcome (Links Dispatcher Callback Event) :=
  match links.mSubscribers dispatcher with
  | none => .undefined
  | some list =>
      walk (fun current => current.subscribers dispatcher)
        (fun node current => current.notifyBody reactions dispatcher event node) steps list.first links

/-- This function removes a dispatcher and its list. -/
def dropDispatcher (dispatcher : Dispatcher) : Links Dispatcher Callback Event :=
  { links with mSubscribers := Function.update links.mSubscribers dispatcher none }

/-- `Dispatcher::~Dispatcher` runs for at most this number of iterations. -/
def destroyDispatcher (reactions : Callback → Reaction) (dispatcher : Dispatcher) (steps : Nat) :
    Outcome (Links Dispatcher Callback Event) :=
  match links.mSubscribers dispatcher with
  | none => .undefined
  | some list =>
      match walk (fun current => current.subscribers dispatcher)
        (fun node current => current.stopBody reactions dispatcher node) steps list.first links with
      | .finished final => .finished (final.dropDispatcher dispatcher)
      | .undefined => .undefined
      | .running => .running

/-- The list of a dispatcher is known, and each listed callback exists. -/
structure Present (dispatcher : Dispatcher) (list : NodeList Callback) : Prop where
  listed : links.mSubscribers dispatcher = some list
  exist : ∀ callback ∈ list.items, links.mDispatcher callback ≠ none

/-- The callbacks of a dispatcher are distinct and point back to it. -/
structure Attached (dispatcher : Dispatcher) (list : NodeList Callback) : Prop where
  listed : links.mSubscribers dispatcher = some list
  nodup : list.items.Nodup
  pointing : ∀ callback ∈ list.items, links.mDispatcher callback = some (some dispatcher)

/-- This function takes a callback out of the list of its dispatcher and clears its pointer. -/
def unlink (dispatcher : Dispatcher) (callback : Callback) (list : NodeList Callback) :
    Links Dispatcher Callback Event :=
  { links with
    mSubscribers := Function.update links.mSubscribers dispatcher (some list)
    mDispatcher := Function.update links.mDispatcher callback (some none) }

/-- This function records a call of a handler. -/
def record (delivery : Delivery Dispatcher Callback Event) : Links Dispatcher Callback Event :=
  { links with deliveries := links.deliveries ++ [delivery] }

/-- This function records a call of a handler and clears the pointer of its callback. -/
def release (callback : Callback) (delivery : Delivery Dispatcher Callback Event) :
    Links Dispatcher Callback Event :=
  { links.record delivery with mDispatcher := Function.update links.mDispatcher callback (some none) }

end

variable {links} {dispatcher : Dispatcher} {callback : Callback} {list : NodeList Callback}
  {reactions : Callback → Reaction}

theorem subscribers_of_listed (listed : links.mSubscribers dispatcher = some list) :
    links.subscribers dispatcher = list := by
  rw [subscribers, listed, Option.getD_some]

theorem Attached.present (attached : links.Attached dispatcher list) : links.Present dispatcher list where
  listed := attached.listed
  exist := by
    intro callback member
    rw [attached.pointing callback member]
    exact Option.some_ne_none _

theorem Present.record (present : links.Present dispatcher list)
    (delivery : Delivery Dispatcher Callback Event) : (links.record delivery).Present dispatcher list :=
  ⟨present.listed, present.exist⟩

/-- A notification records one call for each item in order. -/
theorem foldl_record (delivery : Callback → Delivery Dispatcher Callback Event) (items : List Callback) :
    items.foldl (fun current callback => current.record (delivery callback)) links =
      { links with deliveries := links.deliveries ++ items.map delivery } := by
  induction items generalizing links with
  | nil => simp
  | cons callback rest ih =>
      rw [List.foldl_cons, ih, List.map_cons]
      simp [record]

section
variable {before rest : List (Node × Callback)} {entry : Node × Callback}

/-- A node of the list holds a callback that exists. -/
theorem Present.deref (present : links.Present dispatcher list)
    (split : list.nodes = before ++ entry :: rest) :
    (links.subscribers dispatcher).deref entry.1 = some entry.2 ∧ links.mDispatcher entry.2 ≠ none := by
  constructor
  · rw [subscribers_of_listed present.listed]
    exact NodeList.deref_of_split split
  · apply present.exist
    rw [NodeList.items, split]
    simp

variable [DecidableEq Callback]

theorem setDispatcher_of_exists (target : Option Dispatcher) (exist : links.mDispatcher callback ≠ none) :
    links.setDispatcher callback target =
      some { links with mDispatcher := Function.update links.mDispatcher callback (some target) } := by
  obtain ⟨old, known⟩ := Option.ne_none_iff_exists'.mp exist
  rw [setDispatcher, known, Option.map_some]

theorem Present.release (present : links.Present dispatcher list) (callback : Callback)
    (delivery : Delivery Dispatcher Callback Event) : (links.release callback delivery).Present dispatcher list where
  listed := present.listed
  exist := by
    intro other member
    change Function.update links.mDispatcher callback (some none) other ≠ none
    by_cases same : other = callback
    · rw [same, Function.update_self]
      exact Option.some_ne_none _
    · rw [Function.update_of_ne same]
      exact present.exist other member

/-- The destruction records one call for each item in order, and it releases exactly these items. -/
theorem foldl_release (delivery : Callback → Delivery Dispatcher Callback Event) (items : List Callback) :
    items.foldl (fun current callback => current.release callback (delivery callback)) links =
      { links with
        deliveries := links.deliveries ++ items.map delivery
        mDispatcher := fun callback => if callback ∈ items then some none else links.mDispatcher callback } := by
  induction items generalizing links with
  | nil => simp
  | cons callback rest ih =>
      have pointers : (fun other => if other ∈ rest then some none else
            Function.update links.mDispatcher callback (some none) other) =
          fun other => if other ∈ callback :: rest then some none else links.mDispatcher other := by
        funext other
        by_cases same : other = callback
        · rw [same, Function.update_self, ite_self, if_pos List.mem_cons_self]
        · rw [Function.update_of_ne same]
          simp only [List.mem_cons, same, false_or]
      rw [List.foldl_cons, ih, List.map_cons]
      simp only [release, record, pointers, List.append_assoc, List.singleton_append]

variable [DecidableEq Dispatcher]

/-- A `Detach` of a callback that is not in the list changes nothing. -/
theorem detach_of_notMem (listed : links.mSubscribers dispatcher = some list) (absent : callback ∉ list.items) :
    links.detach dispatcher callback = some links := by
  simp only [detach, listed, Option.bind_some, NodeList.find_eq_none absent]

/-- A handler that keeps its callback only leaves its record. -/
theorem deliver_keep (exist : links.mDispatcher callback ≠ none) (keeps : reactions callback = .keep)
    (delivery : Delivery Dispatcher Callback Event) :
    links.deliver reactions dispatcher callback delivery = some (links.record delivery) := by
  obtain ⟨target, known⟩ := Option.ne_none_iff_exists'.mp exist
  rw [deliver, known, Option.bind_some, keeps]
  rfl

/-- A `Detach` of a listed callback unlinks it. -/
theorem Present.detach (present : links.Present dispatcher list) (nodup : list.items.Nodup)
    (split : list.nodes = before ++ entry :: rest) :
    links.detach dispatcher entry.2 = some (links.unlink dispatcher entry.2 (list.erase entry.1)) := by
  have found : list.find entry.2 = some entry.1 := NodeList.find_of_split nodup split
  simp only [Links.detach, present.listed, Option.bind_some, found,
    setDispatcher_of_exists none (present.deref split).2, Option.map_some]
  rfl

/-- The destruction of an attached callback unlinks it first. -/
theorem Present.destroyCallback (present : links.Present dispatcher list) (nodup : list.items.Nodup)
    (split : list.nodes = before ++ entry :: rest) (pointing : links.mDispatcher entry.2 = some (some dispatcher)) :
    links.destroyCallback entry.2 =
      some ((links.unlink dispatcher entry.2 (list.erase entry.1)).dropCallback entry.2) := by
  simp only [Links.destroyCallback, pointing, present.detach nodup split, Option.map_some]

/-- The loop of `NotifyAll` records one call of `Update` at a callback that stays. -/
theorem Present.notifyBody (present : links.Present dispatcher list)
    (split : list.nodes = before ++ entry :: rest) (keeps : reactions entry.2 = .keep) (event : Event) :
    links.notifyBody reactions dispatcher event entry.1 =
      some (links.record (.update dispatcher entry.2 event)) := by
  obtain ⟨held, exist⟩ := present.deref split
  rw [Links.notifyBody, held, Option.bind_some, deliver_keep exist keeps]

/-- The loop of `~Dispatcher` records one call of `StopObserving` at a callback that stays, and releases it. -/
theorem Present.stopBody (present : links.Present dispatcher list)
    (split : list.nodes = before ++ entry :: rest) (keeps : reactions entry.2 = .keep) :
    links.stopBody reactions dispatcher entry.1 =
      some (links.release entry.2 (.stopObserving dispatcher entry.2)) := by
  obtain ⟨held, exist⟩ := present.deref split
  obtain ⟨again, still⟩ := (present.record (.stopObserving dispatcher entry.2)).deref split
  rw [Links.stopBody, held, Option.bind_some, deliver_keep exist keeps, Option.bind_some, again, Option.bind_some,
    setDispatcher_of_exists none still]
  rfl

/-- `NotifyAll` calls each callback once in the order of the list when all of them stay. -/
theorem Present.notifyAll (present : links.Present dispatcher list)
    (keeps : ∀ callback ∈ list.items, reactions callback = .keep) (event : Event) :
    links.notifyAll reactions dispatcher event list.nodes.length =
      .finished { links with
        deliveries := links.deliveries ++ list.items.map fun callback => .update dispatcher callback event } := by
  have visits : ∀ entry ∈ list.nodes, ∀ current : Links Dispatcher Callback Event,
      current.Present dispatcher list →
        current.notifyBody reactions dispatcher event entry.1 =
            some (current.record (.update dispatcher entry.2 event)) ∧
          (current.record (.update dispatcher entry.2 event)).Present dispatcher list := by
    intro entry member current here
    obtain ⟨before, rest, split⟩ := List.append_of_mem member
    exact ⟨here.notifyBody split (keeps _ (List.mem_map.mpr ⟨entry, member, rfl⟩)) event, here.record _⟩
  have keepsList : ∀ current : Links Dispatcher Callback Event,
      current.Present dispatcher list → current.subscribers dispatcher = list :=
    fun current here => subscribers_of_listed here.listed
  have walked := (walk_finished (fun node current => current.notifyBody reactions dispatcher event node)
    (fun callback current => current.record (.update dispatcher callback event)) keepsList visits present).1
  rw [foldl_record] at walked
  rw [Links.notifyAll, present.listed]
  exact walked

/-- `~Dispatcher` calls each callback once in the order of the list and releases it when all of them stay. -/
theorem Present.destroyDispatcher (present : links.Present dispatcher list)
    (keeps : ∀ callback ∈ list.items, reactions callback = .keep) :
    links.destroyDispatcher reactions dispatcher list.nodes.length =
      .finished (dropDispatcher { links with
        deliveries := links.deliveries ++ list.items.map fun callback => .stopObserving dispatcher callback
        mDispatcher := fun callback => if callback ∈ list.items then some none else links.mDispatcher callback }
        dispatcher) := by
  have visits : ∀ entry ∈ list.nodes, ∀ current : Links Dispatcher Callback Event,
      current.Present dispatcher list →
        current.stopBody reactions dispatcher entry.1 =
            some (current.release entry.2 (.stopObserving dispatcher entry.2)) ∧
          (current.release entry.2 (.stopObserving dispatcher entry.2)).Present dispatcher list := by
    intro entry member current here
    obtain ⟨before, rest, split⟩ := List.append_of_mem member
    exact ⟨here.stopBody split (keeps _ (List.mem_map.mpr ⟨entry, member, rfl⟩)), here.release _ _⟩
  have keepsList : ∀ current : Links Dispatcher Callback Event,
      current.Present dispatcher list → current.subscribers dispatcher = list :=
    fun current here => subscribers_of_listed here.listed
  have walked := (walk_finished (fun node current => current.stopBody reactions dispatcher node)
    (fun callback current => current.release callback (.stopObserving dispatcher callback)) keepsList visits
    present).1
  rw [foldl_release] at walked
  rw [Links.destroyDispatcher, present.listed]
  simp only [walked]

end
end Links
end

end DistributedNas.Observer
