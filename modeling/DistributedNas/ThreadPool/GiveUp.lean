import DistributedNas.ThreadPool.Wakeup

/-
This file shows when the timed `Dequeue` of the blocking queue gives up on an empty queue.
-/

namespace DistributedNas.ThreadPool
open Library

/-- A woken thread whose time has passed gives up as soon as it acquires the mutex again. -/
def Pc.expired {Item : Type*} : Pc Item → Bool
  | .woken _ true => true
  | _ => false

/-- The thread is about to return `false` from the timed `Dequeue`. -/
def Pc.givesUp {Item : Type*} : Pc Item → Bool
  | .leave .timedOut => true
  | _ => false

namespace WaitableQueue
section
variable {count : Nat} {Item : Type*}

/-- The queue is empty while a thread stands at such a place. -/
def EmptyWhile (stands : Pc Item → Bool) (queue : WaitableQueue count Item) : Prop :=
  ∀ thread, stands (queue.threads thread) → queue.mPq = []

/-- Each thread that is about to return `false` leaves an empty queue. -/
def GivesUpEmpty (queue : WaitableQueue count Item) : Prop := queue.EmptyWhile Pc.givesUp

/-- A thread whose time has passed acquires the mutex again only while the queue is empty. -/
def ReacquiresEmpty (queue : WaitableQueue count Item) : Label count Item → Prop
  | .lock thread => (queue.threads thread).expired → queue.mPq = []
  | _ => True

/-- A time passes only on an empty queue, and no item comes before its thread has acquired the mutex again. -/
def Undisturbed (queue : WaitableQueue count Item) : Label count Item → Prop
  | .timeOut _ => queue.mPq = []
  | .push _ => ∀ thread, (queue.threads thread).expired = false
  | _ => True

instance [DecidableEq Item] (queue : WaitableQueue count Item) (label : Label count Item) :
    Decidable (queue.ReacquiresEmpty label) :=
  match label with
  | .lock thread => inferInstanceAs (Decidable ((queue.threads thread).expired → queue.mPq = []))
  | .call _ _ | .push _ | .notifyOne _ _ | .test _ | .take _ _ | .leave _ | .spurious _ | .timeOut _ =>
      inferInstanceAs (Decidable True)

variable {compare : Item → Item → Bool} {queue next : WaitableQueue count Item} {thread : Fin count} {pc : Pc Item}
variable {label : Label count Item}

theorem givesUp_holds {place : Pc Item} (givesUp : place.givesUp) : place.holds := by
  cases place with
  | leave result => rfl
  | idle | acquire call | push data | notify | test timed | waiting timed | woken timed expired | take =>
      cases givesUp

/-- The mutex leads a thread out of its call with `false` exactly when its time has passed. -/
theorem givesUp_of_entered {place after : Pc Item} (entered : place.entered = some after) :
    after.givesUp = place.expired := by
  cases place with
  | acquire call =>
      cases call with
      | enqueue data | dequeue | timedDequeue =>
          obtain rfl := Option.some.inj entered
          rfl
  | woken timed expired =>
      obtain rfl := Option.some.inj entered
      cases expired with
      | false | true => rfl
  | idle | push data | notify | test timed | waiting timed | take | leave result => cases entered

/-- The thread that holds the mutex is the only one that can be about to give up. -/
theorem Exclusive.others_stay (exclusive : queue.Exclusive) (held : (queue.threads thread).holds) {other : Fin count}
    (givesUp : (queue.threads other).givesUp) : other = thread :=
  exclusive.unique (givesUp_holds givesUp) held

/-- A move keeps the queue empty when it does so for the moved thread and for each other one. -/
theorem EmptyWhile.moved {stands : Pc Item → Bool} (emptyWhile : queue.EmptyWhile stands)
    (moved : next.threads = Function.update queue.threads thread pc) (here : stands pc → next.mPq = [])
    (others : ∀ other, other ≠ thread → stands (queue.threads other) → queue.mPq = [] → next.mPq = []) :
    next.EmptyWhile stands := by
  intro other standing
  rw [moved] at standing
  by_cases same : other = thread
  · rw [same, Function.update_self] at standing
    exact here standing
  · rw [Function.update_of_ne same] at standing
    exact others other same standing (emptyWhile other standing)

/-- A move to another place that leaves the queue keeps it empty. -/
theorem EmptyWhile.kept {stands : Pc Item → Bool} (emptyWhile : queue.EmptyWhile stands)
    (moved : next.threads = Function.update queue.threads thread pc) (away : stands pc = false)
    (same : next.mPq = queue.mPq) : next.EmptyWhile stands := by
  refine emptyWhile.moved moved ?_ fun _ _ _ empty => same.trans empty
  intro standing
  rw [away] at standing
  cases standing

/-- The thread that holds the mutex changes the queue while no other thread is about to give up. -/
theorem GivesUpEmpty.changed (givesUpEmpty : queue.GivesUpEmpty) (exclusive : queue.Exclusive)
    (moved : next.threads = Function.update queue.threads thread pc) (stays : pc.givesUp = false)
    (held : (queue.threads thread).holds) : next.GivesUpEmpty := by
  refine givesUpEmpty.moved moved ?_ fun other different givesUp _ => ?_
  · intro givesUp
    rw [stays] at givesUp
    cases givesUp
  · exact absurd (exclusive.others_stay held givesUp) different

/-- Only the acquisition of the mutex leads a thread to give up. -/
theorem GivesUpEmpty.step (givesUpEmpty : queue.GivesUpEmpty) (exclusive : queue.Exclusive)
    (moves : QueueMoves compare queue label next) (condition : queue.ReacquiresEmpty label) : next.GivesUpEmpty := by
  cases moves with
  | lock thread pc free entered =>
      refine givesUpEmpty.moved rfl ?_ fun _ _ _ empty => empty
      intro givesUp
      rw [givesUp_of_entered entered] at givesUp
      exact condition givesUp
  | push thread data stands => exact givesUpEmpty.changed exclusive rfl rfl (by rw [stands]; rfl)
  | take thread place item rest stands popped => exact givesUpEmpty.changed exclusive rfl rfl (by rw [stands]; rfl)
  | notifyOne thread target timed stands waits =>
      have woken : (queue.move target (.woken timed false)).GivesUpEmpty := givesUpEmpty.kept rfl rfl rfl
      exact woken.kept rfl rfl rfl
  | timeOut thread pc expired =>
      obtain ⟨rfl, -⟩ := Pc.expire_spec expired
      exact givesUpEmpty.kept rfl rfl rfl
  | call thread call stands | notifyNone thread stands nobody | sleep thread timed stands empty
  | proceed thread timed stands filled | leave thread result stands | spurious thread timed stands =>
      exact givesUpEmpty.kept rfl rfl rfl

/-- A thread that gives up after this step has acquired the mutex on an empty queue. -/
theorem reacquiresEmpty_of_givesUpEmpty (moves : QueueMoves compare queue label next)
    (givesUpEmpty : next.GivesUpEmpty) : queue.ReacquiresEmpty label := by
  cases moves with
  | lock thread pc free entered =>
      intro expired
      apply givesUpEmpty thread
      show (Function.update queue.threads thread pc thread).givesUp
      rw [Function.update_self, givesUp_of_entered entered]
      exact expired
  | _ => trivial

/-- The mutex has one owner, and each thread that gives up leaves an empty queue. -/
structure Orderly (queue : WaitableQueue count Item) : Prop where
  exclusive : queue.Exclusive
  givesUpEmpty : queue.GivesUpEmpty

theorem givesUpEmpty_initial : (initial count Item).GivesUpEmpty := fun _ _ => rfl

/-- The queue is empty while the time of a thread has passed. -/
def Waits (queue : WaitableQueue count Item) : Prop := queue.EmptyWhile Pc.expired

/-- The queue stays empty for the threads whose time has passed when no item comes in between. -/
theorem Waits.step (waits : queue.Waits) (undisturbed : queue.Undisturbed label)
    (moves : QueueMoves compare queue label next) : next.Waits := by
  cases moves with
  | lock thread pc free entered =>
      refine waits.kept rfl ?_ rfl
      have held := (Pc.entered_spec entered).2.2.2
      cases pc with
      | woken timed expired => cases held
      | idle | acquire call | push data | notify | test timed | waiting timed | take | leave result => rfl
  | push thread data stands =>
      refine waits.moved rfl (fun expired => by cases expired) fun other different expired _ => ?_
      rw [undisturbed other] at expired
      cases expired
  | notifyOne thread target timed stands asleep =>
      have woken : (queue.move target (.woken timed false)).Waits := waits.kept rfl rfl rfl
      exact woken.kept rfl rfl rfl
  | take thread place item rest stands popped =>
      refine waits.moved rfl (fun expired => by cases expired) fun other different expired empty => ?_
      rw [empty] at popped
      cases popped
  | timeOut thread pc expired => exact fun _ _ => undisturbed
  | call thread call stands | notifyNone thread stands nobody | sleep thread timed stands empty
  | proceed thread timed stands filled | leave thread result stands | spurious thread timed stands =>
      exact waits.kept rfl rfl rfl

theorem waits_initial : (initial count Item).Waits := fun _ _ => rfl

end
end WaitableQueue

section
variable {count : Nat} {Item : Type*} {compare : Item → Item → Bool} {labels : List (Label count Item)}
variable {final : WaitableQueue count Item}

/-- A run gives up only on an empty queue when no item comes between a deadline and the mutex. -/
theorem reacquiresEmpty_of_undisturbed
    (undisturbed : Meets (queueStep compare) WaitableQueue.Undisturbed (.initial count Item) labels)
    (reached : run (queueStep compare) (.initial count Item) labels = some final) :
    Meets (queueStep compare) WaitableQueue.ReacquiresEmpty (.initial count Item) labels := by
  refine Meets.of_invariant ?_ ?_ WaitableQueue.waits_initial undisturbed reached
  · intro queue label next waits still stepped
    exact waits.step still (queueMoves_of_queueStep stepped)
  · intro queue label next waits _ _
    cases label with
    | lock thread => exact waits thread
    | _ => trivial

/-- A timed `Dequeue` gives up only on an empty queue exactly when it acquires the mutex again on an empty queue. -/
theorem givesUpEmpty_iff_reacquiresEmpty
    (reached : run (queueStep compare) (.initial count Item) labels = some final) :
    Throughout (queueStep compare) WaitableQueue.GivesUpEmpty (.initial count Item) labels ↔
      Meets (queueStep compare) WaitableQueue.ReacquiresEmpty (.initial count Item) labels := by
  have start : (WaitableQueue.initial count Item).Orderly :=
    ⟨WaitableQueue.exclusive_initial, WaitableQueue.givesUpEmpty_initial⟩
  refine throughout_iff_meets ?_ ?_ start reached
  · intro queue label next orderly stepped
    have moves := queueMoves_of_queueStep stepped
    constructor
    · exact WaitableQueue.reacquiresEmpty_of_givesUpEmpty moves
    · exact orderly.givesUpEmpty.step orderly.exclusive moves
  · intro queue label next orderly givesUpEmpty stepped
    exact ⟨orderly.exclusive.step (queueMoves_of_queueStep stepped), givesUpEmpty⟩

end

/-- The time of the consumer passes on the empty queue, and it gives up before the producer comes. -/
def giveUp : List (Label 2 Nat) :=
  [.call consumer .timedDequeue, .lock consumer, .test consumer, .timeOut consumer, .lock consumer, .leave consumer,
    .call producer (.enqueue 5), .lock producer, .push producer, .notifyOne producer none, .leave producer]

theorem giveUp_empty :
    Throughout (queueStep smallerFirst) WaitableQueue.GivesUpEmpty (.initial 2 Nat) giveUp := by
  obtain ⟨final, reached⟩ : ∃ final, run (queueStep smallerFirst) (.initial 2 Nat) giveUp = some final :=
    Option.isSome_iff_exists.mp (by decide)
  exact (givesUpEmpty_iff_reacquiresEmpty reached).mpr (by decide)

/-- The producer pushes an item between the deadline of the consumer and its acquisition of the mutex. -/
def slipIn : List (Label 2 Nat) :=
  [.call consumer .timedDequeue, .lock consumer, .test consumer, .timeOut consumer, .call producer (.enqueue 5),
    .lock producer, .push producer, .notifyOne producer none, .leave producer, .lock consumer]

/-- The consumer gives up while the item is queued. -/
theorem slipIn_givesUp : ∃ final, run (queueStep smallerFirst) (.initial 2 Nat) slipIn = some final ∧
    final.threads consumer = .leave .timedOut ∧ final.mPq = [5] := by
  decide

end DistributedNas.ThreadPool
