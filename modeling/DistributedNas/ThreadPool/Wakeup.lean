import DistributedNas.ThreadPool.WaitableQueue

/-
This file shows that no wake-up of the blocking queue is lost.
-/

namespace DistributedNas.ThreadPool
open Library
open scoped BigOperators

/-- The holder of the mutex has pushed and not yet notified, or it looks for an item and has not yet popped one. -/
def Pc.engaged {Item : Type*} : Pc Item → Bool
  | .notify | .test _ | .take => true
  | _ => false

/-- A thread is inside no timed `Dequeue`. -/
def Pc.blocking {Item : Type*} : Pc Item → Bool
  | .acquire .timedDequeue | .test true | .waiting true | .woken true _ | .woken _ true => false
  | _ => true

/-- Only `Enqueue` and the blocking `Dequeue` are called. -/
def Label.Blocking {count : Nat} {Item : Type*} : Label count Item → Prop
  | .call _ .timedDequeue => False
  | _ => True

instance {count : Nat} {Item : Type*} (label : Label count Item) : Decidable label.Blocking :=
  match label with
  | .call _ .timedDequeue => inferInstanceAs (Decidable False)
  | .call _ (.enqueue _) | .call _ .dequeue | .lock _ | .push _ | .notifyOne _ _ | .test _ | .take _ _ | .leave _
  | .spurious _ | .timeOut _ => inferInstanceAs (Decidable True)

/-- A thread continues its call without a spurious wake-up or a time-out. -/
def Label.Continues {count : Nat} {Item : Type*} : Label count Item → Prop
  | .call _ _ | .spurious _ | .timeOut _ => False
  | _ => True

section
variable {count : Nat} {Item : Type*}

/-- This is the number of threads that stand at such a place. -/
def number (stands : Pc Item → Bool) (threads : Fin count → Pc Item) : Nat :=
  ∑ thread, (stands (threads thread)).toNat

theorem number_update (stands : Pc Item → Bool) (threads : Fin count → Pc Item) (thread : Fin count)
    (pc : Pc Item) :
    number stands (Function.update threads thread pc) + (stands (threads thread)).toNat =
      number stands threads + (stands pc).toNat :=
  sum_update (fun pc => (stands pc).toNat) threads thread pc

theorem exists_of_number_pos {stands : Pc Item → Bool} {threads : Fin count → Pc Item}
    (positive : 0 < number stands threads) : ∃ thread, stands (threads thread) := by
  obtain ⟨thread, -, counted⟩ := Finset.sum_pos_iff.mp positive
  refine ⟨thread, ?_⟩
  cases here : stands (threads thread) with
  | true => rfl
  | false => simp [here] at counted

namespace WaitableQueue

/-- No item waits for a sleeping thread beyond those for which a thread is already awake. -/
def NoLostWakeup (queue : WaitableQueue count Item) : Prop :=
  (∃ thread, (queue.threads thread).isWaiting) → queue.mPq.length ≤ number Pc.isWoken queue.threads

instance (queue : WaitableQueue count Item) : Decidable queue.NoLostWakeup :=
  inferInstanceAs (Decidable (_ → _))

/-- The bound has room for the one item of the thread that holds the mutex. -/
structure Awake (queue : WaitableQueue count Item) : Prop where
  bound : (∃ thread, (queue.threads thread).isWaiting) →
    queue.mPq.length ≤ number Pc.isWoken queue.threads + number Pc.engaged queue.threads
  single : number Pc.engaged queue.threads ≤ 1
  free : queue.mMutex = none → number Pc.engaged queue.threads = 0

/-- A thread can continue its call whenever an item is queued and a thread waits. -/
def Progresses (compare : Item → Item → Bool) (queue : WaitableQueue count Item) : Prop :=
  queue.mPq ≠ [] → (∃ thread, (queue.threads thread).isWaiting) →
    ∃ label : Label count Item, label.Continues ∧ (queueStep compare queue label).isSome

/-- The mutex is held by the only thread that stands between its acquisition and its release. -/
def Exclusive (queue : WaitableQueue count Item) : Prop :=
  ∀ thread, (queue.threads thread).holds ↔ queue.mMutex = some thread

/-- Each thread is inside a blocking call, and the bound on the items holds. -/
structure Sound (queue : WaitableQueue count Item) : Prop where
  exclusive : queue.Exclusive
  blocking : ∀ thread, (queue.threads thread).blocking
  filled : ∀ thread, queue.threads thread = .take → queue.mPq ≠ []
  bound : (∃ thread, (queue.threads thread).isWaiting) →
    queue.mPq.length ≤ number Pc.isWoken queue.threads + number Pc.engaged queue.threads

variable {compare : Item → Item → Bool} {queue next : WaitableQueue count Item} {thread : Fin count} {pc : Pc Item}

theorem exclusive_initial : (initial count Item).Exclusive := by
  intro thread
  simp [initial, Pc.holds]

/-- A thread that keeps the mutex, or keeps away from it, leaves its owner. -/
theorem Exclusive.keep (exclusive : queue.Exclusive)
    (moved : next.threads = Function.update queue.threads thread pc) (owner : next.mMutex = queue.mMutex)
    (same : pc.holds = (queue.threads thread).holds) : next.Exclusive := by
  intro other
  rw [moved, owner]
  by_cases here : other = thread
  · rw [here, Function.update_self, same]
    exact exclusive thread
  · rw [Function.update_of_ne here]
    exact exclusive other

/-- A thread that acquires the free mutex becomes its owner. -/
theorem Exclusive.acquire (exclusive : queue.Exclusive) (free : queue.mMutex = none)
    (moved : next.threads = Function.update queue.threads thread pc) (owner : next.mMutex = some thread)
    (holds : pc.holds) : next.Exclusive := by
  intro other
  rw [moved, owner]
  by_cases here : other = thread
  · rw [here, Function.update_self]
    simp [holds]
  · rw [Function.update_of_ne here, exclusive other, free]
    simp [Ne.symm here]

/-- The owner that releases the mutex leaves it free. -/
theorem Exclusive.release (exclusive : queue.Exclusive) (held : (queue.threads thread).holds)
    (moved : next.threads = Function.update queue.threads thread pc) (owner : next.mMutex = none)
    (away : pc.holds = false) : next.Exclusive := by
  intro other
  rw [moved, owner]
  by_cases here : other = thread
  · rw [here, Function.update_self]
    simp [away]
  · rw [Function.update_of_ne here, exclusive other, (exclusive thread).mp held]
    simp [Ne.symm here]

theorem Exclusive.unique (exclusive : queue.Exclusive) {first second : Fin count}
    (left : (queue.threads first).holds) (right : (queue.threads second).holds) : first = second :=
  Option.some.inj (((exclusive first).mp left).symm.trans ((exclusive second).mp right))

/-- Each step keeps the mutex exclusive. -/
theorem Exclusive.step (exclusive : queue.Exclusive) {label : Label count Item}
    (moves : QueueMoves compare queue label next) : next.Exclusive := by
  cases moves with
  | call thread call stands => exact exclusive.keep rfl rfl (by rw [stands]; rfl)
  | lock thread pc free entered => exact exclusive.acquire free rfl rfl (Pc.entered_spec entered).2.2.2
  | push thread data stands => exact exclusive.keep rfl rfl (by rw [stands]; rfl)
  | notifyNone thread stands nobody => exact exclusive.keep rfl rfl (by rw [stands]; rfl)
  | notifyOne thread target timed stands waits =>
      have woken : (queue.move target (.woken timed false)).Exclusive :=
        exclusive.keep rfl rfl (by rw [waits]; rfl)
      have different : thread ≠ target := by
        intro same
        rw [same, waits] at stands
        cases stands
      have still : (queue.move target (.woken timed false)).threads thread = .notify := by
        change Function.update _ _ _ _ = _
        rw [Function.update_of_ne different, stands]
      exact woken.keep rfl rfl (by rw [still]; rfl)
  | sleep thread timed stands empty => exact exclusive.release (by rw [stands]; rfl) rfl rfl rfl
  | proceed thread timed stands filled => exact exclusive.keep rfl rfl (by rw [stands]; rfl)
  | take thread place item rest stands popped => exact exclusive.keep rfl rfl (by rw [stands]; rfl)
  | leave thread result stands => exact exclusive.release (by rw [stands]; rfl) rfl rfl rfl
  | spurious thread timed stands => exact exclusive.keep rfl rfl (by rw [stands]; rfl)
  | timeOut thread pc expired =>
      obtain ⟨rfl, before⟩ := Pc.expire_spec expired
      refine exclusive.keep rfl rfl ?_
      cases before with
      | inl waiting => rw [waiting]; rfl
      | inr woken => rw [woken]; rfl

/-- A thread that waits after a move to another place has waited before. -/
theorem waiting_before {threads : Fin count → Pc Item} (away : pc.isWaiting = false)
    (waits : ∃ other, (Function.update threads thread pc other).isWaiting) :
    ∃ other, (threads other).isWaiting := by
  obtain ⟨other, waiting⟩ := waits
  by_cases here : other = thread
  · rw [here, Function.update_self, away] at waiting
    cases waiting
  · rw [Function.update_of_ne here] at waiting
    exact ⟨other, waiting⟩

/-- A move of one thread keeps the bound when it pays for each new item and for each thread it uses up. -/
theorem Sound.moved (sound : queue.Sound) (exclusive : next.Exclusive)
    (moved : next.threads = Function.update queue.threads thread pc) (blocking : pc.blocking)
    (filled : ∀ other, next.threads other = .take → next.mPq ≠ [])
    (paid : next.mPq = [] ∨ (∀ other, (next.threads other).isWaiting = false) ∨ pc.isWaiting = false ∧
      next.mPq.length + (queue.threads thread).isWoken.toNat + (queue.threads thread).engaged.toNat ≤
        queue.mPq.length + pc.isWoken.toNat + pc.engaged.toNat) : next.Sound where
  exclusive := exclusive
  blocking := by
    intro other
    rw [moved]
    by_cases here : other = thread
    · rw [here, Function.update_self]
      exact blocking
    · rw [Function.update_of_ne here]
      exact sound.blocking other
  filled := filled
  bound := by
    intro waits
    rcases paid with empty | nobody | paid
    · simp [empty]
    · obtain ⟨other, waiting⟩ := waits
      rw [nobody other] at waiting
      cases waiting
    · rw [moved] at waits ⊢
      have before := sound.bound (waiting_before paid.1 waits)
      have woken := number_update Pc.isWoken queue.threads thread pc
      have engaged := number_update Pc.engaged queue.threads thread pc
      omega

/-- Another thread that is about to pop stays there. -/
theorem Sound.filled_move (sound : queue.Sound) (moved : next.threads = Function.update queue.threads thread pc)
    (elsewhere : pc ≠ .take) (kept : queue.mPq ≠ [] → next.mPq ≠ []) :
    ∀ other, next.threads other = .take → next.mPq ≠ [] := by
  intro other takes
  rw [moved] at takes
  by_cases here : other = thread
  · rw [here, Function.update_self] at takes
    exact absurd takes elsewhere
  · rw [Function.update_of_ne here] at takes
    exact kept (sound.filled other takes)

theorem Pc.entered_blocking {before after : Pc Item} (blocking : before.blocking)
    (entered : before.entered = some after) :
    after.blocking ∧ after ≠ .take ∧ after.isWaiting = false ∧
      before.isWoken.toNat + before.engaged.toNat ≤ after.isWoken.toNat + after.engaged.toNat := by
  cases before with
  | acquire call =>
      cases call with
      | enqueue data =>
          obtain rfl := Option.some.inj entered
          exact ⟨rfl, by simp, rfl, le_rfl⟩
      | dequeue =>
          obtain rfl := Option.some.inj entered
          exact ⟨rfl, by simp, rfl, Nat.zero_le 1⟩
      | timedDequeue => cases blocking
  | woken timed expired =>
      obtain rfl := Option.some.inj entered
      cases timed with
      | true => cases blocking
      | false =>
          cases expired with
          | true => cases blocking
          | false => exact ⟨rfl, by simp, rfl, Nat.le_refl 1⟩
  | idle | push data | notify | test timed | waiting timed | take | leave result => cases entered

/-- A notification wakes one thread for the item that was pushed. -/
theorem Sound.notify (sound : queue.Sound) {target : Fin count} {timed : Bool}
    (stands : queue.threads thread = .notify) (waits : queue.threads target = .waiting timed)
    (exclusive : ((queue.move target (.woken timed false)).move thread (.leave .enqueued)).Exclusive) :
    ((queue.move target (.woken timed false)).move thread (.leave .enqueued)).Sound := by
  have different : thread ≠ target := by
    intro same
    rw [same, waits] at stands
    cases stands
  have still : Function.update queue.threads target (.woken timed false) thread = .notify := by
    rw [Function.update_of_ne different, stands]
  have untimed := sound.blocking target
  rw [waits] at untimed
  have woken : (queue.move target (.woken timed false)).Sound := by
    refine sound.moved (sound.exclusive.keep rfl rfl (by rw [waits]; rfl)) rfl ?_ ?_ (Or.inr (Or.inr ⟨rfl, ?_⟩))
    · cases timed with
      | false => rfl
      | true => cases untimed
    · exact sound.filled_move rfl (by simp) id
    · rw [waits]
      simp [move, Pc.isWoken, Pc.engaged]
  constructor
  · exact exclusive
  · intro other
    change Pc.blocking (Function.update (queue.move target _).threads thread (.leave .enqueued) other)
    by_cases here : other = thread
    · rw [here, Function.update_self]
      rfl
    · rw [Function.update_of_ne here]
      exact woken.blocking other
  · exact woken.filled_move rfl (by simp) id
  · intro _
    have before := sound.bound ⟨target, by rw [waits]; rfl⟩
    have firstWoken := number_update Pc.isWoken queue.threads target (.woken timed false)
    have firstEngaged := number_update Pc.engaged queue.threads target (.woken timed false)
    have secondWoken := number_update Pc.isWoken (Function.update queue.threads target (.woken timed false)) thread
      (.leave .enqueued)
    have secondEngaged := number_update Pc.engaged (Function.update queue.threads target (.woken timed false)) thread
      (.leave .enqueued)
    rw [waits] at firstWoken firstEngaged
    rw [still] at secondWoken secondEngaged
    simp only [Pc.isWoken, Pc.engaged, Bool.toNat_true, Bool.toNat_false, add_zero] at firstWoken firstEngaged
    simp only [Pc.isWoken, Pc.engaged, Bool.toNat_true, Bool.toNat_false, add_zero] at secondWoken secondEngaged
    simp only [move]
    omega

/-- Each step of a blocking call keeps the bound. -/
theorem Sound.step (sound : queue.Sound) {label : Label count Item} (blocks : label.Blocking)
    (moves : QueueMoves compare queue label next) : next.Sound := by
  have exclusive := sound.exclusive.step moves
  cases moves with
  | call thread call stands =>
      refine sound.moved exclusive rfl ?_ (sound.filled_move rfl (by simp) id) (Or.inr (Or.inr ⟨rfl, ?_⟩))
      · cases call with
        | enqueue data | dequeue => rfl
        | timedDequeue => cases blocks
      · rw [stands]
        simp [move, Pc.isWoken, Pc.engaged]
  | lock thread pc free entered =>
      obtain ⟨blocking, elsewhere, away, paid⟩ := Pc.entered_blocking (sound.blocking thread) entered
      refine sound.moved exclusive rfl blocking (sound.filled_move rfl elsewhere id) (Or.inr (Or.inr ⟨away, ?_⟩))
      simp only [move]
      omega
  | push thread data stands =>
      refine sound.moved exclusive rfl rfl (fun _ _ => List.cons_ne_nil _ _) (Or.inr (Or.inr ⟨rfl, ?_⟩))
      rw [stands]
      simp [Pc.isWoken, Pc.engaged]
  | notifyNone thread stands nobody =>
      refine sound.moved exclusive rfl rfl (sound.filled_move rfl (by simp) id) (Or.inr (Or.inl ?_))
      intro other
      change Pc.isWaiting (Function.update queue.threads thread (.leave .enqueued) other) = false
      by_cases here : other = thread
      · rw [here, Function.update_self]
        rfl
      · rw [Function.update_of_ne here]
        exact nobody other
  | notifyOne thread target timed stands waits => exact sound.notify stands waits exclusive
  | sleep thread timed stands empty =>
      have untimed := sound.blocking thread
      rw [stands] at untimed
      refine sound.moved exclusive rfl ?_ (sound.filled_move rfl (by simp) id) (Or.inl empty)
      cases timed with
      | false => rfl
      | true => cases untimed
  | proceed thread timed stands filled =>
      refine sound.moved exclusive rfl rfl (fun _ _ => filled) (Or.inr (Or.inr ⟨rfl, ?_⟩))
      rw [stands]
      simp [move, Pc.isWoken, Pc.engaged]
  | take thread place item rest stands popped =>
      have held : (queue.threads thread).holds := by rw [stands]; rfl
      refine sound.moved exclusive rfl rfl ?_ (Or.inr (Or.inr ⟨rfl, ?_⟩))
      · intro other takes
        change Function.update queue.threads thread _ other = .take at takes
        by_cases here : other = thread
        · rw [here, Function.update_self] at takes
          cases takes
        · rw [Function.update_of_ne here] at takes
          exact absurd (sound.exclusive.unique (by rw [takes]; rfl) held) here
      · have size := (popTop_eq_some popped).2.length_eq
        rw [List.length_cons] at size
        rw [stands, size]
        simp [Pc.isWoken, Pc.engaged]
  | leave thread result stands =>
      refine sound.moved exclusive rfl rfl (sound.filled_move rfl (by simp) id) (Or.inr (Or.inr ⟨rfl, ?_⟩))
      rw [stands]
      simp [move, Pc.isWoken, Pc.engaged]
  | spurious thread timed stands =>
      have untimed := sound.blocking thread
      rw [stands] at untimed
      refine sound.moved exclusive rfl ?_ (sound.filled_move rfl (by simp) id) (Or.inr (Or.inr ⟨rfl, ?_⟩))
      · cases timed with
        | false => rfl
        | true => cases untimed
      · rw [stands]
        simp [move, Pc.isWoken, Pc.engaged]
  | timeOut thread pc expired =>
      have untimed := sound.blocking thread
      cases (Pc.expire_spec expired).2 with
      | inl waiting | inr woken =>
          simp only [*, Pc.blocking] at untimed
          cases untimed

theorem sound_initial : (initial count Item).Sound where
  exclusive := exclusive_initial
  blocking := fun _ => rfl
  filled := by
    intro thread takes
    cases takes
  bound := by
    intro waits
    exact Nat.zero_le _

theorem engaged_holds {place : Pc Item} (engaged : place.engaged) : place.holds := by
  cases place with
  | notify | test timed | take => rfl
  | idle | acquire call | push data | waiting timed | woken timed expired | leave result => cases engaged

/-- At most one thread is engaged, since it holds the mutex. -/
theorem Exclusive.number_engaged_le (exclusive : queue.Exclusive) : number Pc.engaged queue.threads ≤ 1 := by
  by_cases none : ∃ thread, (queue.threads thread).engaged
  · obtain ⟨thread, engaged⟩ := none
    have single : ∀ other, other ≠ thread → (queue.threads other).engaged.toNat = 0 := by
      intro other different
      cases also : (queue.threads other).engaged with
      | false => rfl
      | true => exact absurd (exclusive.unique (engaged_holds also) (engaged_holds engaged)) different
    rw [number, Finset.sum_eq_single thread (fun other _ => single other) (by simp)]
    exact Bool.toNat_le _
  · simp only [not_exists, Bool.not_eq_true] at none
    simp [number, none]

theorem Sound.awake (sound : queue.Sound) : queue.Awake where
  bound := sound.bound
  single := sound.exclusive.number_engaged_le
  free := by
    intro free
    by_contra positive
    obtain ⟨thread, engaged⟩ := exists_of_number_pos (Nat.pos_of_ne_zero positive)
    have owned := (sound.exclusive thread).mp (engaged_holds engaged)
    rw [free] at owned
    cases owned

/-- The thread that holds the mutex can always continue. -/
theorem Sound.holder_continues (sound : queue.Sound) (irreflexive : ∀ item, compare item item = false)
    (transitive : ∀ first second third, compare first second → compare second third → compare first third)
    (holds : (queue.threads thread).holds) :
    ∃ label : Label count Item, label.Continues ∧ (queueStep compare queue label).isSome := by
  cases stands : queue.threads thread with
  | push data => exact ⟨.push thread, trivial, by simp [queueStep, stands]⟩
  | notify =>
      by_cases waits : ∃ target, (queue.threads target).isWaiting
      · obtain ⟨target, waiting⟩ := waits
        cases asleep : queue.threads target with
        | waiting timed =>
            exact ⟨.notifyOne thread (some target), trivial, by simp [queueStep, stands, wake, asleep]⟩
        | idle | acquire call | push data | notify | test timed | woken timed expired | take | leave result =>
            rw [asleep] at waiting
            cases waiting
      · simp only [not_exists, Bool.not_eq_true] at waits
        exact ⟨.notifyOne thread none, trivial, by simp [queueStep, stands, wake, waits]⟩
  | test timed =>
      refine ⟨.test thread, trivial, ?_⟩
      simp only [queueStep, stands]
      split <;> rfl
  | take =>
      obtain ⟨item, top⟩ := exists_isTopItem irreflexive transitive (sound.filled thread stands)
      obtain ⟨place, rest, popped⟩ := exists_popTop top
      exact ⟨.take thread place, trivial, by simp [queueStep, stands, popped]⟩
  | leave result => exact ⟨.leave thread, trivial, by simp [queueStep, stands]⟩
  | idle | acquire call | waiting timed | woken timed expired =>
      rw [stands] at holds
      cases holds

theorem entered_of_isWoken {place : Pc Item} (woken : place.isWoken) : ∃ after, place.entered = some after := by
  cases place with
  | woken timed expired => exact ⟨_, rfl⟩
  | idle | acquire call | push data | notify | test timed | waiting timed | take | leave result => cases woken

/-- A queued item and a sleeping thread leave the owner of the mutex or a woken thread to continue. -/
theorem Sound.progresses (sound : queue.Sound) (irreflexive : ∀ item, compare item item = false)
    (transitive : ∀ first second third, compare first second → compare second third → compare first third) :
    queue.Progresses compare := by
  intro filled waits
  cases owner : queue.mMutex with
  | some thread => exact sound.holder_continues irreflexive transitive ((sound.exclusive thread).mpr owner)
  | none =>
      have bound := sound.bound waits
      rw [sound.awake.free owner, add_zero] at bound
      obtain ⟨thread, woken⟩ := exists_of_number_pos ((List.length_pos_of_ne_nil filled).trans_le bound)
      obtain ⟨after, entered⟩ := entered_of_isWoken woken
      exact ⟨.lock thread, trivial, by simp [queueStep, owner, entered]⟩

end WaitableQueue

/-- In each run of blocking calls no wake-up is lost, and an item and a waiting thread leave a thread to continue. -/
theorem awake_of_blocking {compare : Item → Item → Bool} (irreflexive : ∀ item, compare item item = false)
    (transitive : ∀ first second third, compare first second → compare second third → compare first third)
    {labels : List (Label count Item)} {final : WaitableQueue count Item}
    (blocks : ∀ label ∈ labels, label.Blocking)
    (reached : run (queueStep compare) (.initial count Item) labels = some final) :
    final.Awake ∧ final.Progresses compare := by
  have sound : final.Sound := run_invariant_of_meets WaitableQueue.Sound
    (fun _ _ _ before blocking stepped => before.step blocking (queueMoves_of_queueStep stepped))
    WaitableQueue.sound_initial (meets_of_forall blocks _) reached
  exact ⟨sound.awake, sound.progresses irreflexive transitive⟩

end

/-- These are a producer and two consumers. -/
def supplier : Fin 3 := ⟨0, Nat.zero_lt_succ 2⟩

def firstConsumer : Fin 3 := ⟨1, Nat.one_lt_succ_succ 1⟩

def secondConsumer : Fin 3 := ⟨2, Nat.lt_succ_self 2⟩

/-- Two consumers wait, one item is pushed, and the notified consumer acquires the mutex again. -/
def wakeOne : List (Label 3 Nat) :=
  [.call firstConsumer .dequeue, .lock firstConsumer, .test firstConsumer,
    .call secondConsumer .dequeue, .lock secondConsumer, .test secondConsumer,
    .call supplier (.enqueue 5), .lock supplier, .push supplier, .notifyOne supplier (some firstConsumer),
    .leave supplier, .lock firstConsumer]

/-- The bound holds after this run, and a thread continues. -/
theorem wakeOne_awake : ∃ final, run (queueStep smallerFirst) (.initial 3 Nat) wakeOne = some final ∧
    final.Awake ∧ final.Progresses smallerFirst := by
  obtain ⟨final, reached⟩ : ∃ final, run (queueStep smallerFirst) (.initial 3 Nat) wakeOne = some final :=
    Option.isSome_iff_exists.mp (by decide)
  refine ⟨final, reached, awake_of_blocking ?_ ?_ ?_ reached⟩
  · intro item
    simp [smallerFirst]
  · intro first second third below lower
    simp only [smallerFirst, decide_eq_true_eq] at below lower ⊢
    exact lower.trans below
  · decide

/-- The one item waits for a thread that has acquired the mutex, so that no woken thread is left for it. -/
theorem wakeOne_exceeds : ∃ final, run (queueStep smallerFirst) (.initial 3 Nat) wakeOne = some final ∧
    final.mMutex = some firstConsumer ∧ ¬ final.NoLostWakeup := by
  decide

end DistributedNas.ThreadPool
