import DistributedNas.Observer.FreeUse
import DistributedNas.Schedualer.Timer
import DistributedNas.Schedualer.Jobs

/-
This file models the scheduler over the dispatchers and callbacks that its jobs consist of.
-/

namespace DistributedNas.Timing
open Library Observer

/-- `Cycle` is inside a handler of a callback, at one node of a dispatcher, or behind its `delete`. -/
inductive Stage (Callback : Type*) where
  | between
  | updating (dispatcher : Nat) (node : Node) (callback : Callback)
  | stopping (dispatcher : Nat) (node : Node) (callback : Callback)
  | arming
  | undefined
  deriving DecidableEq, Repr

/-- Each dispatcher is named by the number of the `Add` that creates it, and each job is a dispatcher. -/
structure Station (Callback : Type*) where
  now : Int
  schedualer : Schedualer Nat
  links : Links Nat Callback Int
  pending : Nat
  stage : Stage Callback
  added : List Callback
  destroyed : List Callback

/-- The program constructs, destroys, and adds callbacks, and a handler of a `Cycle` returns by itself. -/
inductive StationAction (Callback : Type*) where
  | construct (callback : Callback)
  | destroy (callback : Callback)
  | add (cb : Callback) (milli : Int) (clock : AddClock)
  | expire (now : Int)
  | start (place : Nat)
  | resume
  | finish (place : Nat) (now armed : Int) (expired : Bool)
  deriving DecidableEq, Repr

section
variable {Callback : Type*} [DecidableEq Callback]

/-- This is the dispatcher, the node, and the callback at which a loop stands. -/
def Stage.place : Stage Callback → Option (Nat × Node × Callback)
  | .updating dispatcher node callback | .stopping dispatcher node callback => some (dispatcher, node, callback)
  | .between | .arming | .undefined => none

/-- `new Dispatcher` constructs an empty list. -/
def newDispatcher (links : Links Nat Callback Int) (dispatcher : Nat) : Links Nat Callback Int :=
  { links with mSubscribers := Function.update links.mSubscribers dispatcher (some .empty) }

namespace Station

/-- There is no object and no job at first. -/
def initial (now : Int) : Station Callback := ⟨now, .initial, .initial, 0, .between, [], []⟩

variable (station : Station Callback)

/-- This function enters undefined behaviour. -/
def fail : Station Callback := { station with stage := .undefined }

/-- A loop calls a handler of the callback at its iterator, which is undefined for an object that does not exist. -/
def call (dispatcher : Nat) (node : Node) (inside : Callback → Stage Callback)
    (delivery : Callback → Delivery Nat Callback Int) : Station Callback :=
  match (station.links.subscribers dispatcher).deref node with
  | none => station.fail
  | some callback =>
      match station.links.mDispatcher callback with
      | none => station.fail
      | some _ => { station with links := station.links.record (delivery callback), stage := inside callback }

/-- The loop of `Dispatcher::~Dispatcher` calls `StopObserving` until its iterator is past the end. -/
def stop (dispatcher : Nat) : Option Node → Station Callback
  | some node => station.call dispatcher node (.stopping dispatcher node) (.stopObserving dispatcher)
  | none => { station with links := station.links.dropDispatcher dispatcher, stage := .arming }

/-- `Cycle` deletes the dispatcher after the loop of `Dispatcher::NotifyAll`, which calls `Update` with the event 0. -/
def notify (dispatcher : Nat) : Option Node → Station Callback
  | some node =>
      station.call dispatcher node (.updating dispatcher node) fun callback => .update dispatcher callback 0
  | none => station.stop dispatcher (station.links.subscribers dispatcher).first

/-- The loop of `Dispatcher::NotifyAll` increments its iterator after `Update` has returned. -/
def updated (dispatcher : Nat) (node : Node) : Station Callback :=
  match (station.links.subscribers dispatcher).next node with
  | none => station.fail
  | some iterator => station.notify dispatcher iterator

/-- The loop of `Dispatcher::~Dispatcher` clears the pointer of its callback after `StopObserving` has returned. -/
def stopped (dispatcher : Nat) (node : Node) : Station Callback :=
  match ((station.links.subscribers dispatcher).deref node).bind fun held => station.links.setDispatcher held none with
  | none => station.fail
  | some links =>
      match (links.subscribers dispatcher).next node with
      | none => station.fail
      | some iterator => { station with links := links }.stop dispatcher iterator

end Station

/-- A handler may construct, destroy, and add callbacks before it returns, and an expiry waits until its `Cycle` ends. -/
def stationStep (station : Station Callback) : StationAction Callback → Option (Station Callback)
  | .construct callback =>
      if station.stage ≠ .undefined ∧ (station.links.mDispatcher callback).isNone then
        some { station with
          links.mDispatcher := Function.update station.links.mDispatcher callback (some none) }
      else none
  | .destroy callback =>
      if station.stage ≠ .undefined ∧ (station.links.mDispatcher callback).isSome then
        match station.links.destroyCallback callback with
        | none => some station.fail
        | some links => some { station with links := links, destroyed := callback :: station.destroyed }
      else none
  | .add cb milli clock =>
      if station.stage ≠ .undefined ∧ station.now ≤ clock.now ∧ clock.Ordered ∧
          Expires station.schedualer.mTimer clock.armed clock.expired (station.schedualer.rearms milli clock) then
        ((newDispatcher station.links station.added.length).attach station.added.length cb).map fun links =>
          { station with
            now := clock.armed
            schedualer := station.schedualer.add station.added.length milli clock
            pending := station.pending + clock.expired.toNat
            links := links
            added := station.added ++ [cb] }
      else none
  | .expire now =>
      if station.stage ≠ .undefined ∧ station.now ≤ now ∧ ∃ expiry ∈ station.schedualer.mTimer, expiry ≤ now then
        some { station with
          now := now
          schedualer := ⟨station.schedualer.mPq, none⟩
          pending := station.pending + 1 }
      else none
  | .start place =>
      if station.stage = .between ∧ 0 < station.pending then
        if station.schedualer.mPq.isEmpty then some { station with pending := station.pending - 1, stage := .undefined }
        else (station.schedualer.popJob place).map fun popped =>
          let begun : Station Callback :=
            { station with schedualer := popped.2, pending := station.pending - 1 }
          match station.links.mSubscribers popped.1.1 with
          | none => begun.fail
          | some list => begun.notify popped.1.1 list.first
      else none
  | .resume =>
      match station.stage with
      | .updating dispatcher node _ => some (station.updated dispatcher node)
      | .stopping dispatcher node _ => some (station.stopped dispatcher node)
      | .between | .arming | .undefined => none
  | .finish place now armed expired =>
      if station.stage = .arming ∧ station.now ≤ now ∧ now ≤ armed ∧
          Expires station.schedualer.mTimer armed expired (!station.schedualer.mPq.isEmpty) then
        -- the test of `empty` comes only after a second call of `top`
        if station.schedualer.mPq.isEmpty then some station.fail
        else (station.schedualer.armNext place now armed).map fun schedualer =>
          { station with
            now := armed
            schedualer := schedualer
            pending := station.pending + expired.toNat
            stage := .between }
      else none

end

end DistributedNas.Timing
