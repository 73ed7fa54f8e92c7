import DistributedNas.Library.Interleaving
import DistributedNas.Library.PriorityQueue
import DistributedNas.Library.Transition

/-
This file models `WaitableQueue`, whose threads share a priority queue, a mutex and a condition variable.
-/

namespace DistributedNas.ThreadPool
open Library
open scoped BigOperators

/-- A thread calls one of the three operations. -/
inductive Call (Item : Type*) where
  | enqueue (data : Item)
  | dequeue
  | timedDequeue
  deriving DecidableEq, Repr

/-- An item that was popped is kept with the queue from which it was taken. -/
structure Taken (Item : Type*) where
  item : Item
  queue : List Item
  deriving DecidableEq, Repr

/-- A call returns from `Enqueue`, with an item, or with `false` from the timed `Dequeue`. -/
inductive Result (Item : Type*) where
  | enqueued
  | taken (taken : Taken Item)
  | timedOut
  deriving DecidableEq, Repr

/-- A thread stands before this step, and it holds `m_mutex` from `push` and `test` on up to `leave`. -/
inductive Pc (Item : Type*) where
  | idle
  | acquire (call : Call Item)
  | push (data : Item)
  | notify
  | test (timed : Bool)
  | waiting (timed : Bool)
  | woken (timed expired : Bool)
  | take
  | leave (result : Result Item)
  deriving DecidableEq, Repr

/-- A completed call is kept with the number of its changes of `m_pq`. -/
structure Completed (Item : Type*) where
  result : Result Item
  changes : Nat
  deriving DecidableEq, Repr

/-- The threads share the queue and the mutex, and the histories say what was pushed, popped and returned. -/
structure WaitableQueue (count : Nat) (Item : Type*) where
  mPq : List Item
  mMutex : Option (Fin count)
  threads : Fin count → Pc Item
  changes : Fin count → Nat
  enqueued : List Item
  dequeued : List (Taken Item)
  completed : List (Completed Item)

/-- The queue is empty, and no thread is inside a call. -/
def WaitableQueue.initial (count : Nat) (Item : Type*) : WaitableQueue count Item :=
  ⟨[], none, fun _ => .idle, fun _ => 0, [], [], []⟩

/-- A thread takes its next step, or it is woken without a notification. -/
inductive Label (count : Nat) (Item : Type*) where
  | call (thread : Fin count) (call : Call Item)
  | lock (thread : Fin count)
  | push (thread : Fin count)
  | notifyOne (thread : Fin count) (target : Option (Fin count))
  | test (thread : Fin count)
  | take (thread : Fin count) (place : Nat)
  | leave (thread : Fin count)
  | spurious (thread : Fin count)
  | timeOut (thread : Fin count)
  deriving DecidableEq, Repr

/-- This function names the thread that takes a step. -/
def Label.thread {count : Nat} {Item : Type*} : Label count Item → Fin count
  | .call thread _ | .lock thread | .push thread | .notifyOne thread _ | .test thread | .take thread _
  | .leave thread | .spurious thread | .timeOut thread => thread

/-- A thread waits on the condition variable. -/
def Pc.isWaiting {Item : Type*} : Pc Item → Bool
  | .waiting _ => true
  | _ => false

/-- A woken thread has not yet acquired the mutex again. -/
def Pc.isWoken {Item : Type*} : Pc Item → Bool
  | .woken _ _ => true
  | _ => false

/-- A thread between the acquisition of the mutex and its release holds the mutex. -/
def Pc.holds {Item : Type*} : Pc Item → Bool
  | .push _ | .notify | .test _ | .take | .leave _ => true
  | _ => false

section
variable {count : Nat} {Item : Type*}

/-- This function moves one thread to its next step. -/
def WaitableQueue.move (queue : WaitableQueue count Item) (thread : Fin count) (pc : Pc Item) :
    WaitableQueue count Item :=
  { queue with threads := Function.update queue.threads thread pc }

/-- This function counts one more change by the current call of a thread. -/
def WaitableQueue.changed (queue : WaitableQueue count Item) (thread : Fin count) : Fin count → Nat :=
  Function.update queue.changes thread (queue.changes thread + 1)

/-- A thread that acquires the mutex continues here. -/
def Pc.entered : Pc Item → Option (Pc Item)
  | .acquire (.enqueue data) => some (.push data)
  | .acquire .dequeue => some (.test false)
  | .acquire .timedDequeue => some (.test true)
  | .woken timed expired => some (if expired then .leave .timedOut else .test timed)
  | _ => none

/-- A thread that waits or was just woken may find that its time has passed. -/
def Pc.expire : Pc Item → Option (Pc Item)
  | .waiting true => some (.woken true true)
  | .woken true false => some (.woken true true)
  | _ => none

/-- `notify_one` wakes a waiting thread when there is one. -/
def WaitableQueue.wake (queue : WaitableQueue count Item) : Option (Fin count) → Option (WaitableQueue count Item)
  | none => if ∀ other, (queue.threads other).isWaiting = false then some queue else none
  | some target =>
      match queue.threads target with
      | .waiting timed => some (queue.move target (.woken timed false))
      | _ => none

/-- This function takes one atomic step of a thread. -/
def queueStep (compare : Item → Item → Bool) (queue : WaitableQueue count Item) :
    Label count Item → Option (WaitableQueue count Item)
  | .call thread call =>
      match queue.threads thread with
      | .idle => some { queue.move thread (.acquire call) with changes := Function.update queue.changes thread 0 }
      | _ => none
  | .lock thread =>
      if queue.mMutex.isNone then
        (queue.threads thread).entered.map fun pc => { queue.move thread pc with mMutex := some thread }
      else none
  | .push thread =>
      match queue.threads thread with
      | .push data =>
          some { queue.move thread .notify with
            mPq := data :: queue.mPq
            changes := queue.changed thread
            enqueued := data :: queue.enqueued }
      | _ => none
  | .notifyOne thread target =>
      match queue.threads thread with
      | .notify => (queue.wake target).map fun woken => woken.move thread (.leave .enqueued)
      | _ => none
  | .test thread =>
      match queue.threads thread with
      | .test timed =>
          if queue.mPq.isEmpty then some { queue.move thread (.waiting timed) with mMutex := none }
          else some (queue.move thread .take)
      | _ => none
  | .take thread place =>
      match queue.threads thread with
      | .take => (popTop compare queue.mPq place).map fun popped =>
          { queue.move thread (.leave (.taken ⟨popped.1, queue.mPq⟩)) with
            mPq := popped.2
            changes := queue.changed thread
            dequeued := ⟨popped.1, queue.mPq⟩ :: queue.dequeued }
      | _ => none
  | .leave thread =>
      match queue.threads thread with
      | .leave result =>
          some { queue.move thread .idle with
            mMutex := none
            completed := ⟨result, queue.changes thread⟩ :: queue.completed }
      | _ => none
  | .spurious thread =>
      match queue.threads thread with
      | .waiting timed => some (queue.move thread (.woken timed false))
      | _ => none
  | .timeOut thread => (queue.threads thread).expire.map fun pc => queue.move thread pc

variable {compare : Item → Item → Bool} {queue next : WaitableQueue count Item}

/-- This relation lists what a step of a thread can do. -/
inductive QueueMoves (compare : Item → Item → Bool) (queue : WaitableQueue count Item) :
    Label count Item → WaitableQueue count Item → Prop
  | call (thread : Fin count) (call : Call Item) (stands : queue.threads thread = .idle) :
      QueueMoves compare queue (.call thread call)
        { queue.move thread (.acquire call) with changes := Function.update queue.changes thread 0 }
  | lock (thread : Fin count) (pc : Pc Item) (free : queue.mMutex = none)
      (entered : (queue.threads thread).entered = some pc) :
      QueueMoves compare queue (.lock thread) { queue.move thread pc with mMutex := some thread }
  | push (thread : Fin count) (data : Item) (stands : queue.threads thread = .push data) :
      QueueMoves compare queue (.push thread)
        { queue.move thread .notify with
          mPq := data :: queue.mPq
          changes := queue.changed thread
          enqueued := data :: queue.enqueued }
  | notifyNone (thread : Fin count) (stands : queue.threads thread = .notify)
      (nobody : ∀ other, (queue.threads other).isWaiting = false) :
      QueueMoves compare queue (.notifyOne thread none) (queue.move thread (.leave .enqueued))
  | notifyOne (thread target : Fin count) (timed : Bool) (stands : queue.threads thread = .notify)
      (waits : queue.threads target = .waiting timed) :
      QueueMoves compare queue (.notifyOne thread (some target))
        ((queue.move target (.woken timed false)).move thread (.leave .enqueued))
  | sleep (thread : Fin count) (timed : Bool) (stands : queue.threads thread = .test timed)
      (empty : queue.mPq = []) :
      QueueMoves compare queue (.test thread) { queue.move thread (.waiting timed) with mMutex := none }
  | proceed (thread : Fin count) (timed : Bool) (stands : queue.threads thread = .test timed)
      (filled : queue.mPq ≠ []) :
      QueueMoves compare queue (.test thread) (queue.move thread .take)
  | take (thread : Fin count) (place : Nat) (item : Item) (rest : List Item)
      (stands : queue.threads thread = .take) (popped : popTop compare queue.mPq place = some (item, rest)) :
      QueueMoves compare queue (.take thread place)
        { queue.move thread (.leave (.taken ⟨item, queue.mPq⟩)) with
          mPq := rest
          changes := queue.changed thread
          dequeued := ⟨item, queue.mPq⟩ :: queue.dequeued }
  | leave (thread : Fin count) (result : Result Item) (stands : queue.threads thread = .leave result) :
      QueueMoves compare queue (.leave thread)
        { queue.move thread .idle with
          mMutex := none
          completed := ⟨result, queue.changes thread⟩ :: queue.completed }
  | spurious (thread : Fin count) (timed : Bool) (stands : queue.threads thread = .waiting timed) :
      QueueMoves compare queue (.spurious thread) (queue.move thread (.woken timed false))
  | timeOut (thread : Fin count) (pc : Pc Item) (expired : (queue.threads thread).expire = some pc) :
      QueueMoves compare queue (.timeOut thread) (queue.move thread pc)

/-- Each step of a thread is one of the listed moves. -/
theorem queueMoves_of_queueStep {label : Label count Item} (stepped : queueStep compare queue label = some next) :
    QueueMoves compare queue label next := by
  cases label with
  | call thread call =>
      simp only [queueStep] at stepped
      split at stepped
      · next stands => exact Option.some.inj stepped ▸ .call thread call stands
      · cases stepped
  | lock thread =>
      simp only [queueStep] at stepped
      split at stepped
      · next free =>
          obtain ⟨pc, entered, rfl⟩ := Option.map_eq_some_iff.mp stepped
          exact .lock thread pc (Option.isNone_iff_eq_none.mp free) entered
      · cases stepped
  | push thread =>
      simp only [queueStep] at stepped
      split at stepped
      · next data stands => exact Option.some.inj stepped ▸ .push thread data stands
      · cases stepped
  | notifyOne thread target =>
      simp only [queueStep] at stepped
      split at stepped
      · next stands =>
          obtain ⟨woken, woke, rfl⟩ := Option.map_eq_some_iff.mp stepped
          cases target with
          | none =>
              simp only [WaitableQueue.wake] at woke
              split at woke
              · next nobody => exact Option.some.inj woke ▸ .notifyNone thread stands nobody
              · cases woke
          | some target =>
              simp only [WaitableQueue.wake] at woke
              split at woke
              · next timed waits => exact Option.some.inj woke ▸ .notifyOne thread target timed stands waits
              · cases woke
      · cases stepped
  | test thread =>
      simp only [queueStep] at stepped
      split at stepped
      · next timed stands =>
          split at stepped
          · next empty => exact Option.some.inj stepped ▸ .sleep thread timed stands (List.isEmpty_iff.mp empty)
          · next filled =>
              refine Option.some.inj stepped ▸ .proceed thread timed stands ?_
              exact fun empty => filled (List.isEmpty_iff.mpr empty)
      · cases stepped
  | take thread place =>
      simp only [queueStep] at stepped
      split at stepped
      · next stands =>
          obtain ⟨⟨item, rest⟩, popped, rfl⟩ := Option.map_eq_some_iff.mp stepped
          exact .take thread place item rest stands popped
      · cases stepped
  | leave thread =>
      simp only [queueStep] at stepped
      split at stepped
      · next result stands => exact Option.some.inj stepped ▸ .leave thread result stands
      · cases stepped
  | spurious thread =>
      simp only [queueStep] at stepped
      split at stepped
      · next timed stands => exact Option.some.inj stepped ▸ .spurious thread timed stands
      · cases stepped
  | timeOut thread =>
      obtain ⟨pc, expired, rfl⟩ := Option.map_eq_some_iff.mp stepped
      exact .timeOut thread pc expired

/-- A result of a successful `Dequeue` holds what was popped. -/
def Result.popped : Result Item → List (Taken Item)
  | .taken last => [last]
  | _ => []

/-- A thread on its way out of `Dequeue` holds what it popped. -/
def Pc.popped : Pc Item → Multiset (Taken Item)
  | .leave result => result.popped
  | _ => 0

/-- These are the popped items that threads hold on their way out. -/
def inHand (threads : Fin count → Pc Item) : Multiset (Taken Item) := ∑ thread, (threads thread).popped

/-- No item is lost or duplicated, each popped item was on top, and a call that timed out changed nothing. -/
structure WaitableQueue.Conserved (compare : Item → Item → Bool) (queue : WaitableQueue count Item) : Prop where
  items : queue.enqueued.Perm (queue.mPq ++ queue.dequeued.map Taken.item)
  returned : (queue.dequeued : Multiset (Taken Item)) =
    (queue.completed.flatMap fun call => call.result.popped : List (Taken Item)) + inHand queue.threads
  top : ∀ taken ∈ queue.dequeued, IsTopItem compare taken.queue taken.item
  unchanged : ∀ call ∈ queue.completed, call.result = .timedOut → call.changes = 0

/-- A call before its only change, or on its way out without one, has changed nothing. -/
def Pc.unchanged : Pc Item → Bool
  | .acquire _ | .push _ | .test _ | .waiting _ | .woken _ _ | .take | .leave .timedOut => true
  | _ => false

/-- Each call that cannot have changed the queue has counted no change. -/
def WaitableQueue.Counted (queue : WaitableQueue count Item) : Prop :=
  ∀ thread, (queue.threads thread).unchanged → queue.changes thread = 0

/-- The number of changes of a call grows with each change of the queue. -/
theorem changes_of_ne {label : Label count Item} (moves : QueueMoves compare queue label next)
    (different : next.mPq ≠ queue.mPq) : next.changes label.thread = queue.changes label.thread + 1 := by
  cases moves with
  | push thread data stands => exact Function.update_self thread _ _
  | take thread place item rest stands popped => exact Function.update_self thread _ _
  | _ => exact absurd rfl different

theorem Pc.entered_spec {pc after : Pc Item} (entered : pc.entered = some after) :
    pc.popped = 0 ∧ after.popped = 0 ∧ pc.unchanged ∧ after.holds := by
  cases pc with
  | acquire call =>
      cases call with
      | enqueue data | dequeue | timedDequeue =>
          obtain rfl := Option.some.inj entered
          exact ⟨rfl, rfl, rfl, rfl⟩
  | woken timed expired =>
      obtain rfl := Option.some.inj entered
      cases expired with
      | false | true => exact ⟨rfl, rfl, rfl, rfl⟩
  | idle | push data | notify | test timed | waiting timed | take | leave result => cases entered

theorem Pc.expire_spec {pc after : Pc Item} (expired : pc.expire = some after) :
    after = .woken true true ∧ (pc = .waiting true ∨ pc = .woken true false) := by
  cases pc with
  | waiting timed =>
      cases timed with
      | false => cases expired
      | true => exact ⟨(Option.some.inj expired).symm, Or.inl rfl⟩
  | woken timed passed =>
      cases timed with
      | false => cases expired
      | true =>
          cases passed with
          | false => exact ⟨(Option.some.inj expired).symm, Or.inr rfl⟩
          | true => cases expired
  | idle | acquire call | push data | notify | test timed | take | leave result => cases expired

theorem inHand_update (threads : Fin count → Pc Item) (thread : Fin count) (pc : Pc Item) :
    inHand (Function.update threads thread pc) + (threads thread).popped = inHand threads + pc.popped :=
  sum_update Pc.popped threads thread pc

/-- A move of a thread that holds nothing before and after keeps what the threads hold. -/
theorem inHand_move (threads : Fin count → Pc Item) {thread : Fin count} {pc : Pc Item}
    (before : (threads thread).popped = 0) (after : pc.popped = 0) :
    inHand (Function.update threads thread pc) = inHand threads := by
  have moved := inHand_update threads thread pc
  rwa [before, after, add_zero, add_zero] at moved

namespace WaitableQueue

theorem conserved_initial : (initial count Item).Conserved compare where
  items := List.Perm.refl _
  returned := by simp [initial, inHand, Pc.popped]
  top := by
    intro taken member
    cases member
  unchanged := by
    intro call member
    cases member

theorem counted_initial : (initial count Item).Counted := by
  intro thread pending
  cases pending

/-- A move of one thread keeps the counts when its new place is counted right. -/
theorem Counted.move (counted : queue.Counted) {thread : Fin count} {pc : Pc Item}
    (moved : next.threads = Function.update queue.threads thread pc)
    (others : ∀ other, other ≠ thread → next.changes other = queue.changes other)
    (here : pc.unchanged → next.changes thread = 0) : next.Counted := by
  intro other
  rw [moved]
  by_cases same : other = thread
  · rw [same, Function.update_self]
    exact here
  · rw [Function.update_of_ne same, others other same]
    exact counted other

/-- Each step keeps the counts of the calls. -/
theorem Counted.step (counted : queue.Counted) {label : Label count Item}
    (moves : QueueMoves compare queue label next) : next.Counted := by
  cases moves with
  | call thread call stands =>
      apply counted.move rfl
      · intro other different
        exact Function.update_of_ne different _ _
      · intro _
        exact Function.update_self thread _ _
  | lock thread pc free entered =>
      obtain ⟨-, -, before, -⟩ := Pc.entered_spec entered
      refine counted.move rfl (fun _ _ => rfl) fun _ => ?_
      exact counted thread before
  | push thread data stands =>
      apply counted.move rfl
      · intro other different
        exact Function.update_of_ne different _ _
      · intro pending
        cases pending
  | notifyNone thread stands nobody =>
      refine counted.move rfl (fun _ _ => rfl) fun pending => ?_
      cases pending
  | notifyOne thread target timed stands waits =>
      have woken : (queue.move target (.woken timed false)).Counted := by
        refine counted.move rfl (fun _ _ => rfl) fun _ => ?_
        apply counted target
        rw [waits]
        rfl
      refine woken.move rfl (fun _ _ => rfl) fun pending => ?_
      cases pending
  | sleep thread timed stands empty | proceed thread timed stands filled | spurious thread timed stands =>
      refine counted.move rfl (fun _ _ => rfl) fun _ => ?_
      apply counted thread
      rw [stands]
      rfl
  | take thread place item rest stands popped =>
      apply counted.move rfl
      · intro other different
        exact Function.update_of_ne different _ _
      · intro pending
        cases pending
  | leave thread result stands =>
      refine counted.move rfl (fun _ _ => rfl) fun pending => ?_
      cases pending
  | timeOut thread pc expired =>
      refine counted.move rfl (fun _ _ => rfl) fun _ => ?_
      apply counted thread
      cases (Pc.expire_spec expired).2 with
      | inl waiting => rw [waiting]; rfl
      | inr woken => rw [woken]; rfl

/-- A change of places that moves no popped item keeps the account of items. -/
theorem Conserved.moved (conserved : queue.Conserved compare) (items : next.mPq = queue.mPq)
    (enqueued : next.enqueued = queue.enqueued) (dequeued : next.dequeued = queue.dequeued)
    (completed : next.completed = queue.completed)
    (held : inHand next.threads = inHand queue.threads) :
    next.Conserved compare where
  items := by
    rw [enqueued, items, dequeued]
    exact conserved.items
  returned := by
    rw [dequeued, completed, held]
    exact conserved.returned
  top := by
    rw [dequeued]
    exact conserved.top
  unchanged := by
    rw [completed]
    exact conserved.unchanged

/-- Each step keeps the account of items. -/
theorem Conserved.step (conserved : queue.Conserved compare) (counted : queue.Counted) {label : Label count Item}
    (moves : QueueMoves compare queue label next) : next.Conserved compare := by
  cases moves with
  | call thread call stands =>
      exact conserved.moved rfl rfl rfl rfl (inHand_move _ (by rw [stands]; rfl) rfl)
  | lock thread pc free entered =>
      obtain ⟨before, after, -⟩ := Pc.entered_spec entered
      exact conserved.moved rfl rfl rfl rfl (inHand_move _ before after)
  | push thread data stands =>
      constructor
      · exact conserved.items.cons data
      · change (queue.dequeued : Multiset (Taken Item)) = _ + inHand (Function.update queue.threads thread .notify)
        rw [inHand_move _ (by rw [stands]; rfl) rfl]
        exact conserved.returned
      · exact conserved.top
      · exact conserved.unchanged
  | notifyNone thread stands nobody =>
      exact conserved.moved rfl rfl rfl rfl (inHand_move _ (by rw [stands]; rfl) rfl)
  | notifyOne thread target timed stands waits =>
      refine conserved.moved rfl rfl rfl rfl ?_
      have different : thread ≠ target := by
        intro same
        rw [same, waits] at stands
        cases stands
      have still : (Function.update queue.threads target (.woken timed false) thread).popped = 0 := by
        rw [Function.update_of_ne different, stands]
        rfl
      exact (inHand_move _ still rfl).trans (inHand_move _ (by rw [waits]; rfl) rfl)
  | sleep thread timed stands empty | proceed thread timed stands filled | spurious thread timed stands =>
      exact conserved.moved rfl rfl rfl rfl (inHand_move _ (by rw [stands]; rfl) rfl)
  | take thread place item rest stands popped =>
      obtain ⟨top, taken⟩ := popTop_eq_some popped
      have held := inHand_update queue.threads thread (.leave (.taken ⟨item, queue.mPq⟩))
      rw [stands] at held
      constructor
      · apply conserved.items.trans
        exact (taken.append_right _).trans List.perm_middle.symm
      · change _ + (0 : Multiset (Taken Item)) = _ + (([⟨item, queue.mPq⟩] : List (Taken Item)) : Multiset _) at held
        change ((⟨item, queue.mPq⟩ :: queue.dequeued : List (Taken Item)) : Multiset (Taken Item)) =
          (queue.completed.flatMap fun call => call.result.popped : List (Taken Item)) +
            inHand (Function.update queue.threads thread _)
        rw [add_zero] at held
        rw [held, ← Multiset.cons_coe, conserved.returned, ← add_assoc, Multiset.coe_singleton,
          ← Multiset.singleton_add, add_comm]
      · intro last member
        cases List.mem_cons.mp member with
        | inl new => exact new ▸ top
        | inr old => exact conserved.top last old
      · exact conserved.unchanged
  | leave thread result stands =>
      have held := inHand_update queue.threads thread .idle
      rw [stands] at held
      constructor
      · exact conserved.items
      · change _ + (result.popped : Multiset (Taken Item)) = _ + 0 at held
        change (queue.dequeued : Multiset (Taken Item)) =
          (result.popped ++ queue.completed.flatMap fun call => call.result.popped : List (Taken Item)) +
            inHand (Function.update queue.threads thread .idle)
        rw [add_zero] at held
        rw [← Multiset.coe_add, conserved.returned, ← held]
        abel
      · exact conserved.top
      · intro call member timedOut
        cases List.mem_cons.mp member with
        | inl new =>
            subst new
            apply counted thread
            rw [stands, show result = .timedOut from timedOut]
            rfl
        | inr old => exact conserved.unchanged call old timedOut
  | timeOut thread pc expired =>
      obtain ⟨rfl, before⟩ := Pc.expire_spec expired
      refine conserved.moved rfl rfl rfl rfl (inHand_move _ ?_ rfl)
      cases before with
      | inl waiting => rw [waiting]; rfl
      | inr woken => rw [woken]; rfl

end WaitableQueue

/-- In each run the queue keeps its items and hands out top items, and the counts show each change. -/
theorem conserved_of_run {labels : List (Label count Item)} {final : WaitableQueue count Item}
    (reached : run (queueStep compare) (.initial count Item) labels = some final) :
    final.Conserved compare ∧
      ∀ label next, queueStep compare final label = some next → next.mPq ≠ final.mPq →
        next.changes label.thread = final.changes label.thread + 1 := by
  have sound : final.Conserved compare ∧ final.Counted := run_invariant
    (fun queue : WaitableQueue count Item => queue.Conserved compare ∧ queue.Counted)
    (fun _ _ _ before stepped =>
      have moves := queueMoves_of_queueStep stepped
      ⟨before.1.step before.2 moves, before.2.step moves⟩)
    ⟨WaitableQueue.conserved_initial, WaitableQueue.counted_initial⟩ reached
  exact ⟨sound.1, fun label next stepped different =>
    changes_of_ne (queueMoves_of_queueStep stepped) different⟩

end

/-- These are a producer and a consumer. -/
def producer : Fin 2 := ⟨0, Nat.zero_lt_two⟩

def consumer : Fin 2 := ⟨1, Nat.one_lt_two⟩

/-- A consumer waits for an item, times out once, waits again, and is notified. -/
def waitTwice : List (Label 2 Nat) :=
  [.call consumer .timedDequeue, .lock consumer, .test consumer, .timeOut consumer, .lock consumer, .leave consumer,
    .call consumer .dequeue, .lock consumer, .test consumer, .call producer (.enqueue 5), .lock producer,
    .push producer, .notifyOne producer (some consumer), .leave producer, .lock consumer, .test consumer,
    .take consumer 0, .leave consumer]

/-- The smaller number is on top in the runs below. -/
def smallerFirst (first second : Nat) : Bool := decide (second < first)

/-- The items are conserved in the run with a time-out and a notification. -/
theorem waitTwice_conserved : ∃ final,
    run (queueStep smallerFirst) (.initial 2 Nat) waitTwice = some final ∧ final.Conserved smallerFirst ∧
      ∀ label next, queueStep smallerFirst final label = some next → next.mPq ≠ final.mPq →
        next.changes label.thread = final.changes label.thread + 1 := by
  obtain ⟨final, reached⟩ : ∃ final, run (queueStep smallerFirst) (.initial 2 Nat) waitTwice = some final :=
    Option.isSome_iff_exists.mp (by decide)
  exact ⟨final, reached, conserved_of_run reached⟩

/-- The first call of this run times out without a change, and the other two change the queue once each. -/
example : (run (queueStep smallerFirst) (.initial 2 Nat) waitTwice).map WaitableQueue.completed =
    some [⟨.taken ⟨5, [5]⟩, 1⟩, ⟨.enqueued, 1⟩, ⟨.timedOut, 0⟩] := by decide

end DistributedNas.ThreadPool
