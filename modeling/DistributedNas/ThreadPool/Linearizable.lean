import DistributedNas.Library.AtomicObject
import DistributedNas.ThreadPool.Wakeup

/-
This file shows that the calls of the blocking queue take effect one by one.
-/

namespace DistributedNas.ThreadPool
open Library

/-- The caller of an operation gets one of these answers. -/
inductive Answer (Item : Type*) where
  | enqueued
  | item (item : Item)
  | timedOut
  deriving DecidableEq, Repr

section
variable {count : Nat} {Item : Type*}

/-- An atomic queue takes in an item, hands out a top item, or lets a timed call go without one. -/
inductive QueueAllows (compare : Item → Item → Bool) :
    Multiset Item → Call Item → Answer Item → Multiset Item → Prop
  | enqueue (content : Multiset Item) (data : Item) :
      QueueAllows compare content (.enqueue data) .enqueued (data ::ₘ content)
  | dequeue (call : Call Item) (item : Item) (rest : Multiset Item) (dequeues : call = .dequeue ∨ call = .timedDequeue)
      (top : ∀ other ∈ item ::ₘ rest, compare item other = false) :
      QueueAllows compare (item ::ₘ rest) call (.item item) rest
  | timeOut (content : Multiset Item) : QueueAllows compare content .timedDequeue .timedOut content

/-- The caller does not see the queue from which its item was taken. -/
def Result.answer : Result Item → Answer Item
  | .enqueued => .enqueued
  | .taken last => .item last.item
  | .timedOut => .timedOut

/-- A thread operates on `m_pq` here. -/
def Pc.operates : Pc Item → Bool
  | .push _ | .test _ | .take => true
  | _ => false

/-- The callers see the calls and their answers. -/
def WaitableQueue.shows (queue : WaitableQueue count Item) :
    Label count Item → List (Interaction (Fin count) (Call Item) (Answer Item))
  | .call thread call => [.call thread call]
  | .leave thread =>
      match queue.threads thread with
      | .leave result => [.answer thread result.answer]
      | _ => []
  | _ => []

/-- The threads operate on `m_pq` one at a time, and an atomic queue shows the same calls and answers. -/
structure Linearizable (compare : Item → Item → Bool) (labels : List (Label count Item))
    (final : WaitableQueue count Item) : Prop where
  alone : ∀ first second, (final.threads first).operates → (final.threads second).operates → first = second
  atomically : ∃ object : AtomicObject (Fin count) (Multiset Item) (Call Item) (Answer Item),
    Atomically (QueueAllows compare) (.initial 0)
      (history (queueStep compare) WaitableQueue.shows (.initial count Item) labels) object ∧
    object.content = final.mPq

/-- This is the call of a thread that looks for an item. -/
def looking (timed : Bool) : Call Item := if timed then .timedDequeue else .dequeue

/-- A call takes effect when it pushes, when it pops, or when it finds that its time has passed. -/
def Pc.Stands : Pc Item → Standing (Call Item) (Answer Item) → Prop
  | .idle, standing => standing = .outside
  | .acquire call, standing => standing = .called call
  | .push data, standing => standing = .called (.enqueue data)
  | .notify, standing => standing = .answered .enqueued
  | .test timed, standing | .waiting timed, standing | .woken timed false, standing =>
      standing = .called (looking timed)
  | .woken timed true, standing => timed = true ∧ standing = .called .timedDequeue
  | .take, standing => standing = .called .dequeue ∨ standing = .called .timedDequeue
  | .leave result, standing => standing = .answered result.answer

/-- The atomic queue holds the items of `m_pq`, and its threads stand where the threads of the queue do. -/
structure Mirrors (queue : WaitableQueue count Item)
    (object : AtomicObject (Fin count) (Multiset Item) (Call Item) (Answer Item)) : Prop where
  content : object.content = queue.mPq
  stands : ∀ thread, (queue.threads thread).Stands (object.standing thread)

variable {compare : Item → Item → Bool} {queue next : WaitableQueue count Item} {thread : Fin count} {pc : Pc Item}
  {standing : Standing (Call Item) (Answer Item)}
  {object : AtomicObject (Fin count) (Multiset Item) (Call Item) (Answer Item)}

theorem Pc.holds_of_operates (operates : pc.operates) : pc.holds := by
  cases pc with
  | push data | test timed | take => rfl
  | idle | acquire call | notify | waiting timed | woken timed expired | leave result => cases operates

/-- A thread that acquires the mutex stands as before, unless its time has passed. -/
theorem Pc.stands_entered {after : Pc Item} (entered : pc.entered = some after) (stands : pc.Stands standing) :
    after.Stands standing ∨ standing = .called .timedDequeue ∧ after = .leave .timedOut := by
  cases pc with
  | acquire call =>
      cases call with
      | enqueue data | dequeue | timedDequeue =>
          obtain rfl := Option.some.inj entered
          exact .inl stands
  | woken timed expired =>
      obtain rfl := Option.some.inj entered
      cases expired with
      | false => exact .inl stands
      | true => exact .inr ⟨stands.2, rfl⟩
  | idle | push data | notify | test timed | waiting timed | take | leave result => cases entered

/-- A thread whose time passes stands as before. -/
theorem Pc.stands_expire {after : Pc Item} (expired : pc.expire = some after) (stands : pc.Stands standing) :
    after.Stands standing := by
  obtain ⟨rfl, rfl | rfl⟩ := Pc.expire_spec expired
  · exact ⟨rfl, stands⟩
  · exact ⟨rfl, stands⟩

namespace Mirrors

/-- A thread moves in both queues. -/
theorem stand (mirrors : Mirrors queue object) {content : Multiset Item} (items : content = next.mPq)
    (moved : next.threads = Function.update queue.threads thread pc) (here : pc.Stands standing) :
    Mirrors next { object.stand thread standing with content := content } where
  content := items
  stands := by
    intro other
    rw [moved]
    change (Function.update queue.threads thread pc other).Stands (Function.update object.standing thread standing other)
    by_cases same : other = thread
    · rw [same, Function.update_self, Function.update_self]
      exact here
    · rw [Function.update_of_ne same, Function.update_of_ne same]
      exact mirrors.stands other

/-- A thread moves without an effect. -/
theorem move (mirrors : Mirrors queue object) (items : next.mPq = queue.mPq)
    (moved : next.threads = Function.update queue.threads thread pc)
    (here : (queue.threads thread).Stands (object.standing thread) → pc.Stands (object.standing thread)) :
    Mirrors next object where
  content := by rw [items, mirrors.content]
  stands := by
    intro other
    rw [moved]
    by_cases same : other = thread
    · rw [same, Function.update_self]
      exact here (mirrors.stands thread)
    · rw [Function.update_of_ne same]
      exact mirrors.stands other

/-- A thread that stands at a call in both queues has the effect of its call in the atomic one. -/
theorem effect (mirrors : Mirrors queue object) {call : Call Item} {answer : Answer Item} {content : Multiset Item}
    (stands : object.standing thread = .called call) (allowed : QueueAllows compare queue.mPq call answer content)
    (items : content = next.mPq) (moved : next.threads = Function.update queue.threads thread pc)
    (here : pc.Stands (.answered answer)) :
    ∃ after, Atomically (QueueAllows compare) object [] after ∧ Mirrors next after := by
  rw [← mirrors.content] at allowed
  exact ⟨_, .effect thread call answer content stands allowed (.stop _), mirrors.stand items moved here⟩

/-- The atomic queue follows each step. -/
theorem follows (mirrors : Mirrors queue object) {label : Label count Item}
    (moves : QueueMoves compare queue label next) :
    ∃ after, Atomically (QueueAllows compare) object (queue.shows label) after ∧ Mirrors next after := by
  cases moves with
  | call thread call stands =>
      have outside := mirrors.stands thread
      rw [stands] at outside
      exact ⟨_, .call thread call outside (.stop _), mirrors.stand mirrors.content rfl rfl⟩
  | lock thread pc free entered =>
      rcases Pc.stands_entered entered (mirrors.stands thread) with same | ⟨called, rfl⟩
      · exact ⟨object, .stop object, mirrors.move rfl rfl fun _ => same⟩
      · have allowed : QueueAllows compare (queue.mPq : Multiset Item) .timedDequeue .timedOut queue.mPq :=
          .timeOut _
        exact mirrors.effect called allowed rfl rfl rfl
  | push thread data stands =>
      have called := mirrors.stands thread
      rw [stands] at called
      exact mirrors.effect called (.enqueue queue.mPq data) rfl rfl rfl
  | notifyNone thread stands nobody =>
      refine ⟨object, .stop object, mirrors.move rfl rfl fun notifies => ?_⟩
      rw [stands] at notifies
      exact notifies
  | notifyOne thread target timed stands waits =>
      have woken : Mirrors (queue.move target (.woken timed false)) object := by
        refine mirrors.move rfl rfl fun waiting => ?_
        rw [waits] at waiting
        exact waiting
      refine ⟨object, .stop object, woken.move rfl rfl fun notifies => ?_⟩
      have different : thread ≠ target := by
        intro same
        rw [same, waits] at stands
        cases stands
      change (Function.update queue.threads target _ thread).Stands _ at notifies
      rw [Function.update_of_ne different, stands] at notifies
      exact notifies
  | sleep thread timed stands empty =>
      refine ⟨object, .stop object, mirrors.move rfl rfl fun tests => ?_⟩
      rw [stands] at tests
      exact tests
  | proceed thread timed stands filled =>
      refine ⟨object, .stop object, mirrors.move rfl rfl fun tests => ?_⟩
      rw [stands] at tests
      cases timed with
      | false => exact .inl tests
      | true => exact .inr tests
  | take thread place item rest stands popped =>
      obtain ⟨top, taken⟩ := popTop_eq_some popped
      have items : (queue.mPq : Multiset Item) = item ::ₘ rest := Multiset.coe_eq_coe.mpr taken
      have least : ∀ other ∈ item ::ₘ (rest : Multiset Item), compare item other = false := by
        intro other member
        rw [← items] at member
        exact top.2 other member
      have called := mirrors.stands thread
      rw [stands] at called
      rcases called with called | called
      · refine mirrors.effect called ?_ rfl rfl rfl
        rw [items]
        exact .dequeue _ item rest (.inl rfl) least
      · refine mirrors.effect called ?_ rfl rfl rfl
        rw [items]
        exact .dequeue _ item rest (.inr rfl) least
  | leave thread result stands =>
      have answered := mirrors.stands thread
      rw [stands] at answered
      rw [WaitableQueue.shows, stands]
      exact ⟨_, .answer thread result.answer answered (.stop _), mirrors.stand mirrors.content rfl rfl⟩
  | spurious thread timed stands =>
      refine ⟨object, .stop object, mirrors.move rfl rfl fun waiting => ?_⟩
      rw [stands] at waiting
      exact waiting
  | timeOut thread pc expired =>
      exact ⟨object, .stop object, mirrors.move rfl rfl (Pc.stands_expire expired)⟩

end Mirrors

/-- In each run the calls and answers of the queue are those of an atomic queue. -/
theorem linearizable_of_run {labels : List (Label count Item)} {final : WaitableQueue count Item}
    (reached : run (queueStep compare) (.initial count Item) labels = some final) :
    Linearizable compare labels final where
  alone := by
    have exclusive : final.Exclusive := by
      refine run_invariant WaitableQueue.Exclusive ?_ WaitableQueue.exclusive_initial reached
      intro queue label next before stepped
      exact before.step (queueMoves_of_queueStep stepped)
    intro first second left right
    exact exclusive.unique (Pc.holds_of_operates left) (Pc.holds_of_operates right)
  atomically := by
    have start : Mirrors (.initial count Item) (.initial 0) := ⟨rfl, fun _ => rfl⟩
    have follows : ∀ (queue : WaitableQueue count Item) object label next, Mirrors queue object →
        queueStep compare queue label = some next →
        ∃ after, Atomically (QueueAllows compare) object (queue.shows label) after ∧ Mirrors next after :=
      fun _ _ _ _ mirrors stepped => mirrors.follows (queueMoves_of_queueStep stepped)
    obtain ⟨object, atomically, mirrors⟩ := atomically_of_run follows start reached
    exact ⟨object, atomically, mirrors.content⟩

end

/-- The consumer sees a time-out and then an item that it waited for. -/
theorem linearizable_waitTwice : ∃ final,
    run (queueStep smallerFirst) (.initial 2 Nat) waitTwice = some final ∧
      history (queueStep smallerFirst) WaitableQueue.shows (.initial 2 Nat) waitTwice =
        [.call consumer .timedDequeue, .answer consumer .timedOut, .call consumer .dequeue,
          .call producer (.enqueue 5), .answer producer .enqueued, .answer consumer (.item 5)] ∧
      Linearizable smallerFirst waitTwice final := by
  obtain ⟨final, reached⟩ : ∃ final, run (queueStep smallerFirst) (.initial 2 Nat) waitTwice = some final :=
    Option.isSome_iff_exists.mp (by decide)
  exact ⟨final, reached, by decide, linearizable_of_run reached⟩

end DistributedNas.ThreadPool
