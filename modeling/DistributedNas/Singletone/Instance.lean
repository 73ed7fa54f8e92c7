import DistributedNas.Library.Transition
import Mathlib.Tactic

/-
This file models concurrent calls of `Singleton::instance` as sequentially consistent atomic steps.
-/

namespace DistributedNas.Singletone
open Library

/-- The constructed objects have distinct addresses. -/
abbrev Address := Nat

/-- A call of `instance` stands before this step, with its local `temp`, where null is `none`. -/
inductive Call where
  | idle
  | load
  | lock (temp : Option Address)
  | check (temp : Option Address)
  | construct
  | store (temp : Address)
  | unlock (temp : Option Address)
  | leave (temp : Option Address)
  deriving DecidableEq, Repr

/-- The threads share `m_instance` and `m_mutex`, and the histories say what was constructed and returned. -/
structure Singleton (count : Nat) where
  mInstance : Option Address
  mMutex : Option (Fin count)
  calls : Fin count → Call
  constructed : List Address
  returned : List (Option Address)

/-- No call has begun. -/
def Singleton.initial (count : Nat) : Singleton count := ⟨none, none, fun _ => .idle, [], []⟩

/-- This function moves one thread to the next step of its call. -/
def Singleton.move {count : Nat} (singleton : Singleton count) (thread : Fin count) (call : Call) :
    Singleton count :=
  { singleton with calls := Function.update singleton.calls thread call }

/-- The second check reads the local `temp` again and not `m_instance`. -/
def instanceStep {count : Nat} (singleton : Singleton count) (thread : Fin count) :
    Option (Singleton count) :=
  match singleton.calls thread with
  | .idle => some (singleton.move thread .load)
  | .load =>
      let temp := singleton.mInstance
      some (singleton.move thread (if temp.isNone then .lock temp else .leave temp))
  | .lock temp =>
      if singleton.mMutex.isNone then some { singleton.move thread (.check temp) with mMutex := some thread }
      else none
  | .check temp => some (singleton.move thread (if temp.isNone then .construct else .unlock temp))
  | .construct =>
      let temp := singleton.constructed.length
      some { singleton.move thread (.store temp) with constructed := temp :: singleton.constructed }
  | .store temp => some { singleton.move thread (.unlock (some temp)) with mInstance := some temp }
  | .unlock temp => some { singleton.move thread (.leave temp) with mMutex := none }
  | .leave temp => some { singleton.move thread .idle with returned := temp :: singleton.returned }

/-- At most one object exists, and all calls returned the same pointer, which is not null. -/
structure Singleton.Agreed {count : Nat} (singleton : Singleton count) : Prop where
  single : singleton.constructed.length ≤ 1
  nonNull : ∀ temp ∈ singleton.returned, temp ≠ none
  same : ∀ first ∈ singleton.returned, ∀ second ∈ singleton.returned, first = second

instance {count : Nat} (singleton : Singleton count) : Decidable singleton.Agreed :=
  decidable_of_iff
    (singleton.constructed.length ≤ 1 ∧ (∀ temp ∈ singleton.returned, temp ≠ none) ∧
      ∀ first ∈ singleton.returned, ∀ second ∈ singleton.returned, first = second)
    ⟨fun parts => ⟨parts.1, parts.2.1, parts.2.2⟩,
      fun agreed => ⟨agreed.single, agreed.nonNull, agreed.same⟩⟩

/-- This call has loaded null and has not yet stored its own object. -/
def Call.pending : Call → Bool
  | .lock _ | .check _ | .construct | .store _ => true
  | _ => false

/-- A load finds an instance, or no other call that loaded null is still before its store. -/
def LoadsAlone {count : Nat} (singleton : Singleton count) (thread : Fin count) : Prop :=
  singleton.calls thread = .load → singleton.mInstance = none →
    ∀ other, (singleton.calls other).pending = false

instance {count : Nat} (singleton : Singleton count) (thread : Fin count) :
    Decidable (LoadsAlone singleton thread) :=
  inferInstanceAs (Decidable (_ → _ → _))

/-- The local pointer of a call agrees with the shared instance and the constructed objects. -/
def Singleton.Follows {count : Nat} (singleton : Singleton count) : Call → Prop
  | .idle | .load => True
  | .lock temp | .check temp => temp = none ∧ singleton.mInstance = none ∧ singleton.constructed = []
  | .construct => singleton.mInstance = none ∧ singleton.constructed = []
  | .store temp => singleton.mInstance = none ∧ singleton.constructed = [temp]
  | .unlock temp | .leave temp => temp ≠ none ∧ temp = singleton.mInstance

/-- At most one call is between its load of null and its store, and each other one sees the stored object. -/
structure Singleton.Sound {count : Nat} (singleton : Singleton count) : Prop where
  follows : ∀ thread, singleton.Follows (singleton.calls thread)
  alone : ∀ first second, (singleton.calls first).pending → (singleton.calls second).pending → first = second
  settled : (∀ thread, (singleton.calls thread).pending = false) →
    singleton.constructed = singleton.mInstance.toList
  returned : ∀ temp ∈ singleton.returned, temp ≠ none ∧ temp = singleton.mInstance

section
variable {count : Nat} {singleton next : Singleton count} {thread : Fin count}

theorem sound_initial : (Singleton.initial count).Sound where
  follows := fun _ => trivial
  alone := by
    intro first second pending
    cases pending
  settled := fun _ => rfl
  returned := by
    intro temp member
    cases member

/-- A change of the shared fields keeps each other call when only the moved one was pending. -/
theorem Singleton.Sound.others (sound : singleton.Sound) (pending : (singleton.calls thread).pending)
    (unset : singleton.mInstance = none) {other : Fin count} (different : other ≠ thread) :
    singleton.calls other = .idle ∨ singleton.calls other = .load := by
  have follows := sound.follows other
  have still : ¬ (singleton.calls other).pending := fun also => different (sound.alone _ _ also pending)
  cases call : singleton.calls other with
  | idle =>
      left
      rfl
  | load =>
      right
      rfl
  | unlock temp | leave temp =>
      rw [call] at follows
      exact absurd (follows.2.trans unset) follows.1
  | lock temp | check temp | construct | store temp =>
      rw [call] at still
      exact absurd rfl still

/-- A move of one thread keeps the invariant when the moved call and the other calls follow the new fields. -/
theorem Singleton.Sound.moved (sound : singleton.Sound) (call : Call)
    (calls : next.calls = Function.update singleton.calls thread call)
    (here : next.Follows call)
    (others : ∀ other, other ≠ thread → next.Follows (singleton.calls other))
    (alone : call.pending → (singleton.calls thread).pending ∨ ∀ other, (singleton.calls other).pending = false)
    (settled : call.pending = false → (∀ other, other ≠ thread → (singleton.calls other).pending = false) →
      next.constructed = next.mInstance.toList)
    (returned : ∀ temp ∈ next.returned, temp ≠ none ∧ temp = next.mInstance) : next.Sound := by
  have self : next.calls thread = call := by rw [calls, Function.update_self]
  have kept : ∀ other, other ≠ thread → next.calls other = singleton.calls other := by
    intro other different
    rw [calls, Function.update_of_ne different]
  have only : call.pending → ∀ other, other ≠ thread → ¬ (singleton.calls other).pending := by
    intro pending other different also
    cases alone pending with
    | inl before => exact different (sound.alone _ _ also before)
    | inr none => exact Bool.false_ne_true ((none other).symm.trans also)
  constructor
  · intro other
    by_cases same : other = thread
    · rw [same, self]
      exact here
    · rw [kept other same]
      exact others other same
  · intro first second left right
    by_cases firstMoved : first = thread
    · by_cases secondMoved : second = thread
      · exact firstMoved.trans secondMoved.symm
      · rw [firstMoved, self] at left
        rw [kept second secondMoved] at right
        exact absurd right (only left second secondMoved)
    · rw [kept first firstMoved] at left
      by_cases secondMoved : second = thread
      · rw [secondMoved, self] at right
        exact absurd left (only right first firstMoved)
      · rw [kept second secondMoved] at right
        exact sound.alone first second left right
  · intro none
    apply settled
    · rw [← self]
      exact none thread
    · intro other different
      rw [← kept other different]
      exact none other
  · exact returned

/-- The instance is what was constructed when neither the moved call nor another one is pending. -/
theorem Singleton.Sound.settled_of_others (sound : singleton.Sound)
    (still : (singleton.calls thread).pending = false)
    (rest : ∀ other, other ≠ thread → (singleton.calls other).pending = false) :
    singleton.constructed = singleton.mInstance.toList := by
  apply sound.settled
  intro other
  by_cases same : other = thread
  · rw [same]
    exact still
  · exact rest other same

/-- A call that keeps the instance and the objects moves on when its new place follows them. -/
theorem Singleton.Sound.proceeds (sound : singleton.Sound) (call : Call)
    (calls : next.calls = Function.update singleton.calls thread call)
    (stored : next.mInstance = singleton.mInstance) (constructed : next.constructed = singleton.constructed)
    (returned : next.returned = singleton.returned) (here : singleton.Follows call)
    (pending : call.pending = (singleton.calls thread).pending) : next.Sound := by
  have follows (place : Call) (before : singleton.Follows place) : next.Follows place := by
    cases place with
    | idle | load => trivial
    | lock | check | construct | store | unlock | leave => simpa [Follows, stored, constructed] using before
  refine sound.moved call calls (follows call here) (fun other _ => follows _ (sound.follows other)) ?_ ?_ ?_
  · intro still
    left
    rw [← pending]
    exact still
  · intro still rest
    rw [stored, constructed]
    exact sound.settled_of_others (pending.symm.trans still) rest
  · rw [returned, stored]
    exact sound.returned

/-- The other calls are before their load when a pending call changes the instance or the objects. -/
theorem Singleton.Sound.others_follow (sound : singleton.Sound) (pending : (singleton.calls thread).pending)
    (unset : singleton.mInstance = none) (after : Singleton count) (other : Fin count) (different : other ≠ thread) :
    after.Follows (singleton.calls other) := by
  cases sound.others pending unset different with
  | inl idle =>
      rw [idle]
      trivial
  | inr load =>
      rw [load]
      trivial

/-- A step of a call keeps the invariant when its load of null is the only pending one. -/
theorem Singleton.Sound.step (sound : singleton.Sound) (loads : LoadsAlone singleton thread)
    (stepped : instanceStep singleton thread = some next) : next.Sound := by
  have follows := sound.follows thread
  have others : ∀ other, other ≠ thread → singleton.Follows (singleton.calls other) :=
    fun other _ => sound.follows other
  unfold instanceStep at stepped
  cases call : singleton.calls thread with
  | idle =>
      simp only [call, Option.some.injEq] at stepped
      subst stepped
      exact sound.proceeds .load rfl rfl rfl rfl trivial (by rw [call]; rfl)
  | load =>
      simp only [call, Option.some.injEq] at stepped
      subst stepped
      cases stored : singleton.mInstance with
      | none =>
          have quiet := loads call stored
          refine sound.moved (.lock none) rfl ⟨rfl, stored, ?_⟩ others (fun _ => Or.inr quiet) ?_ sound.returned
          · show singleton.constructed = []
            rw [sound.settled quiet, stored]
            rfl
          · intro pending
            cases pending
      | some temp =>
          have found : singleton.Follows (.leave (some temp)) := ⟨Option.some_ne_none temp, stored.symm⟩
          exact sound.proceeds (.leave (some temp)) rfl rfl rfl rfl found (by rw [call]; rfl)
  | lock temp =>
      simp only [call] at stepped follows
      split at stepped
      · obtain rfl := Option.some.inj stepped
        exact sound.proceeds (.check temp) rfl rfl rfl rfl follows (by rw [call]; rfl)
      · cases stepped
  | check temp =>
      simp only [call, Option.some.injEq] at stepped follows
      subst stepped
      obtain ⟨rfl, unset, empty⟩ := follows
      exact sound.proceeds .construct rfl rfl rfl rfl ⟨unset, empty⟩ (by rw [call]; rfl)
  | construct =>
      have pending : (singleton.calls thread).pending := by rw [call]; rfl
      simp only [call, Option.some.injEq] at stepped follows
      subst stepped
      obtain ⟨unset, empty⟩ := follows
      refine sound.moved (.store singleton.constructed.length) rfl ⟨unset, ?_⟩
        (sound.others_follow pending unset _) (fun _ => Or.inl pending) ?_ sound.returned
      · show _ :: singleton.constructed = _
        rw [empty]
      · intro still
        cases still
  | store temp =>
      have pending : (singleton.calls thread).pending := by rw [call]; rfl
      simp only [call, Option.some.injEq] at stepped follows
      subst stepped
      obtain ⟨unset, single⟩ := follows
      refine sound.moved (.unlock (some temp)) rfl ⟨Option.some_ne_none temp, rfl⟩
        (sound.others_follow pending unset _) ?_ (fun _ _ => single) ?_
      · intro still
        cases still
      · intro other member
        have old := sound.returned other member
        exact absurd (old.2.trans unset) old.1
  | unlock temp =>
      simp only [call, Option.some.injEq] at stepped follows
      subst stepped
      exact sound.proceeds (.leave temp) rfl rfl rfl rfl follows (by rw [call]; rfl)
  | leave temp =>
      have still : (singleton.calls thread).pending = false := by rw [call]; rfl
      simp only [call, Option.some.injEq] at stepped follows
      subst stepped
      refine sound.moved .idle rfl trivial others ?_ (fun _ rest => sound.settled_of_others still rest) ?_
      · intro pending
        cases pending
      · intro other member
        cases List.mem_cons.mp member with
        | inl same => exact same ▸ follows
        | inr before => exact sound.returned other before

/-- The invariant leaves room for one object and one pointer. -/
theorem Singleton.Sound.agreed (sound : singleton.Sound) : singleton.Agreed where
  single := by
    by_cases quiet : ∀ thread, (singleton.calls thread).pending = false
    · rw [sound.settled quiet]
      cases singleton.mInstance <;> simp
    · simp only [not_forall, Bool.not_eq_false] at quiet
      obtain ⟨thread, pending⟩ := quiet
      have follows := sound.follows thread
      cases call : singleton.calls thread with
      | idle | load | unlock temp | leave temp =>
          rw [call] at pending
          cases pending
      | lock temp | check temp =>
          rw [call] at follows
          simp [follows.2.2]
      | construct =>
          rw [call] at follows
          simp [follows.2]
      | store temp =>
          rw [call] at follows
          simp [follows.2]
  nonNull := fun temp member => (sound.returned temp member).1
  same := fun first left second right => (sound.returned first left).2.trans (sound.returned second right).2.symm

/-- The calls agree in each run in which no load of null overlaps another one that is before its store. -/
theorem agreed_of_loadsAlone {threads : List (Fin count)} {final : Singleton count}
    (alone : Meets instanceStep LoadsAlone (.initial count) threads)
    (reached : run instanceStep (.initial count) threads = some final) : final.Agreed :=
  (run_invariant_of_meets Singleton.Sound (fun _ _ _ sound loads stepped => sound.step loads stepped)
    sound_initial alone reached).agreed

end

/-- These are the two threads of the concrete runs. -/
def firstThread : Fin 2 := ⟨0, Nat.zero_lt_two⟩

def secondThread : Fin 2 := ⟨1, Nat.one_lt_two⟩

/-- The second thread loads the pointer while the first one still holds the mutex after its store. -/
def loadAfterStore : List (Fin 2) :=
  [firstThread, firstThread, firstThread, firstThread, firstThread, firstThread, secondThread, secondThread,
    firstThread, secondThread, firstThread]

/-- The two calls agree when the second load comes after the store. -/
theorem loadAfterStore_agreed : ∃ final, run instanceStep (.initial 2) loadAfterStore = some final ∧
    final.Agreed := by
  obtain ⟨final, reached⟩ : ∃ final, run instanceStep (.initial 2) loadAfterStore = some final :=
    Option.isSome_iff_exists.mp (by decide)
  exact ⟨final, reached, agreed_of_loadsAlone (by decide) reached⟩

/-- Both threads load null, and then each one passes the second check on its local pointer. -/
def bothLoadNull : List (Fin 2) :=
  [firstThread, secondThread, firstThread, secondThread, firstThread, firstThread, firstThread, firstThread,
    firstThread, firstThread, secondThread, secondThread, secondThread, secondThread, secondThread, secondThread]

/-- Two objects are constructed, and the two calls return different pointers. -/
theorem bothLoadNull_disagreed :
    (run instanceStep (.initial 2) bothLoadNull).map Singleton.returned = some [some 1, some 0] ∧
      ¬ Throughout instanceStep Singleton.Agreed (.initial 2) bothLoadNull := by
  decide

end DistributedNas.Singletone
