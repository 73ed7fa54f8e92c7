import DistributedNas.Singletone.Handleton

/-
This file follows `DestroyInstance` at the exit of the process, while other threads still call `GetInstance`.
-/

namespace DistributedNas.Singletone
open Library

/-- `DestroyInstance` makes three calls of `GetInstance`, whose references it ignores, reads and overwrites. -/
inductive DestroyInstance where
  | construct
  | read
  | overwrite (ptr : Option Address)
  | delete (ptr : Option Address)
  deriving DecidableEq, Repr

/-- The pointer is overwritten with this address, which no object has. -/
def deadbeef : Address := 0xdeadbeef

/-- One thread calls `exit` and runs the registered handlers, and the history says what it deleted. -/
structure Exiting (count : Nat) where
  handleton : Handleton count
  exiting : Option (Fin count)
  destroy : Option DestroyInstance
  started : Nat
  deleted : List (Option Address)

/-- A thread takes a step of its call, an idle one calls `exit`, and the exit takes a step of its handlers. -/
inductive ExitEvent (count : Nat) where
  | call (thread : Fin count)
  | exit (thread : Fin count)
  | destroy
  deriving DecidableEq, Repr

namespace Exiting
variable {count : Nat} (process : Exiting count)

/-- No call has begun, and the program runs. -/
def initial (count : Nat) : Exiting count := ⟨.initial count, none, none, 0, []⟩

/-- The reference that a call of the handler returns is used at the place of the handler. -/
def leaveStep (thread : Fin count) : DestroyInstance → Exiting count
  | .construct => { process with handleton := process.handleton.move thread .idle, destroy := some .read }
  | .read =>
      { process with
        handleton := process.handleton.move thread .idle
        destroy := some (.overwrite process.handleton.theObject) }
  | .overwrite ptr =>
      { process with
        handleton := { process.handleton.move thread .idle with theObject := some deadbeef }
        destroy := some (.delete ptr) }
  | .delete ptr => { process with deleted := ptr :: process.deleted, destroy := none }

/-- The exit starts each registered handler once, and the handler takes the steps of its calls. -/
def destroyStep (thread : Fin count) : Option (Exiting count) :=
  match process.destroy with
  | none =>
      if process.started < process.handleton.registered then
        some { process with destroy := some .construct, started := process.started + 1 }
      else none
  | some (.delete ptr) => some (process.leaveStep thread (.delete ptr))
  | some place =>
      if process.handleton.calls thread = .leave then some (process.leaveStep thread place)
      else (handletonStep process.handleton thread).map fun next => { process with handleton := next }

end Exiting

/-- The other threads run on during the exit. -/
def exitStep {count : Nat} (process : Exiting count) : ExitEvent count → Option (Exiting count)
  | .call thread =>
      if process.exiting = some thread then none
      else (handletonStep process.handleton thread).map fun next => { process with handleton := next }
  | .exit thread =>
      if process.exiting = none ∧ process.handleton.calls thread = .idle then
        some { process with exiting := some thread }
      else none
  | .destroy => process.exiting.bind process.destroyStep

namespace Exiting
variable {count : Nat} (process : Exiting count)

/-- The handler runs once and deletes the completed object once, and no call gets a pointer to a deleted object. -/
structure Safe : Prop where
  once : process.started ≤ 1
  deleted : process.deleted = [] ∨
    ∃ address, process.handleton.completed = [address] ∧ process.deleted = [some address]
  hidden : process.handleton.theObject ∉ process.deleted
  returned : ∀ temp ∈ process.handleton.returned, temp = some deadbeef ∨
    ∃ address, process.handleton.completed = [address] ∧ temp = some address
  waits : process.destroy ≠ none → process.handleton.svIsReady = false →
    ∃ thread, process.exiting ≠ some thread ∧ process.handleton.calls thread = .publish

/-- The pointer has not been overwritten, and a started handler is on the way to it. -/
structure Before (stage : Stage) : Prop where
  sound : process.handleton.Sound stage
  deleted : process.deleted = []
  fresh : process.destroy = none → process.started = 0
  running : ∀ place, process.destroy = some place → process.started = 1 ∧ process.handleton.registered = 1 ∧
    (place = .construct ∨ place = .read ∨ stage = .ready ∧ place = .overwrite (some 0))
  bystander : ∀ thread, process.exiting = some thread → (process.handleton.calls thread).remaining = 0

/-- The pointer has been overwritten, and the object is deleted once after it. -/
structure After : Prop where
  sound : ({ process.handleton with theObject := some 0, returned := [] } : Handleton count).Sound .ready
  object : process.handleton.theObject = some deadbeef
  started : process.started = 1
  deleted : process.destroy = some (.delete (some 0)) ∧ process.deleted = [] ∨
    process.destroy = none ∧ process.deleted = [some 0]
  returned : ∀ temp ∈ process.handleton.returned, temp = some deadbeef ∨ temp = some 0

end Exiting

section
variable {count : Nat} {handleton next : Handleton count} {thread : Fin count} {stage : Stage}

/-- A step of one call leaves the other calls. -/
theorem calls_of_handletonStep (stepped : handletonStep handleton thread = some next) {other : Fin count}
    (differs : other ≠ thread) : next.calls other = handleton.calls other := by
  unfold handletonStep at stepped
  cases call : handleton.calls thread <;> simp only [call, Option.some.injEq] at stepped <;> subst stepped <;>
    exact Function.update_of_ne differs _ _

/-- A call that does not initialize the object never begins to do so once the flag is set. -/
theorem remaining_of_handletonStep (stepped : handletonStep handleton thread = some next)
    (claimed : handleton.svShouldInit = true) (still : (handleton.calls thread).remaining = 0) :
    (next.calls thread).remaining = 0 := by
  unfold handletonStep at stepped
  cases call : handleton.calls thread with
  | allocate | build address | assign address | register | publish =>
      rw [call] at still
      cases still
  | fetchOr =>
      simp only [call, Option.some.injEq, claimed] at stepped
      subst stepped
      simp [Handleton.move, GetInstance.remaining]
  | idle | leave =>
      simp only [call, Option.some.injEq] at stepped
      subst stepped
      simp [Handleton.move, GetInstance.remaining]
  | test | spin =>
      simp only [call, Option.some.injEq] at stepped
      subst stepped
      cases handleton.svIsReady <;> simp [Handleton.move, GetInstance.remaining]

/-- A call that does not initialize the object neither looks at it before it returns nor changes it. -/
theorem handletonStep_restored (stepped : handletonStep handleton thread = some next)
    (still : (handleton.calls thread).remaining = 0) :
    (∃ after, handletonStep { handleton with theObject := some 0, returned := [] } thread = some after ∧
      { next with theObject := some 0, returned := [] } = { after with returned := [] }) ∧
      next.theObject = handleton.theObject ∧
      ∀ temp ∈ next.returned, temp = handleton.theObject ∨ temp ∈ handleton.returned := by
  unfold handletonStep at stepped ⊢
  cases call : handleton.calls thread with
  | allocate | build address | assign address | register | publish =>
      rw [call] at still
      cases still
  | idle | test | fetchOr | spin =>
      simp only [call, Option.some.injEq] at stepped
      subst stepped
      exact ⟨⟨_, rfl, rfl⟩, rfl, fun temp member => .inr member⟩
  | leave =>
      simp only [call, Option.some.injEq] at stepped
      subst stepped
      exact ⟨⟨_, rfl, rfl⟩, rfl, fun temp member => List.mem_cons.mp member⟩

/-- The history of the returned references may be forgotten. -/
theorem Handleton.Sound.forget (sound : handleton.Sound stage) :
    ({ handleton with returned := [] } : Handleton count).Sound stage where
  shows := ⟨sound.shows.isReady, sound.shows.shouldInit, sound.shows.object, sound.shows.constructed,
    sound.shows.completed, sound.shows.registered⟩
  allowed := sound.allowed
  alone := sound.alone
  owned := sound.owned
  returned := List.forall_mem_nil _

/-- A call may return without a look at the pointer. -/
theorem Handleton.Sound.leave (sound : handleton.Sound stage) (leaves : handleton.calls thread = .leave) :
    (handleton.move thread .idle).Sound stage := by
  refine sound.proceeds .idle rfl ?_ ?_ rfl trivial sound.returned
  · exact ⟨sound.shows.isReady, sound.shows.shouldInit, sound.shows.object, sound.shows.constructed,
      sound.shows.completed, sound.shows.registered⟩
  · rw [leaves]
    rfl

/-- A call returns only after the publication. -/
theorem Handleton.Sound.ready (sound : handleton.Sound stage) (leaves : handleton.calls thread = .leave) :
    stage = .ready := by
  have allowed := sound.allowed thread
  rw [leaves] at allowed
  exact allowed

/-- The handler is registered only in the last stages. -/
theorem Handleton.Sound.late (sound : handleton.Sound stage) (registered : handleton.registered ≠ 0) :
    stage = .registered ∨ stage = .ready := by
  rw [sound.shows.registered] at registered
  cases stage with
  | registered => exact .inl rfl
  | ready => exact .inr rfl
  | untouched | claimed | begun | built | assigned => exact absurd rfl registered

/-- The flag is set before the handler is registered. -/
theorem Handleton.Sound.claimed (sound : handleton.Sound stage) (registered : handleton.registered ≠ 0) :
    handleton.svShouldInit = true := by
  rw [sound.shows.shouldInit]
  rcases sound.late registered with rfl | rfl
  · rfl
  · rfl

/-- After the registration no step registers again, and the publication stays. -/
theorem Handleton.Sound.settled (sound : handleton.Sound stage) (registered : handleton.registered ≠ 0)
    (stepped : handletonStep handleton thread = some next) :
    next.registered = handleton.registered ∧ (handleton.svIsReady = true → next.svIsReady = true) := by
  have allowed := sound.allowed thread
  have late := sound.late registered
  unfold handletonStep at stepped
  cases call : handleton.calls thread with
  | register =>
      rw [call] at allowed
      obtain rfl : stage = .assigned := allowed
      rcases late with other | other
      · cases other
      · cases other
  | publish =>
      simp only [call, Option.some.injEq] at stepped
      subst stepped
      exact ⟨rfl, fun _ => rfl⟩
  | idle | test | fetchOr | allocate | build address | assign address | spin | leave =>
      simp only [call, Option.some.injEq] at stepped
      subst stepped
      exact ⟨rfl, id⟩

/-- The stages are told apart by the flag of the publication. -/
theorem Handleton.Sound.ready_iff (sound : handleton.Sound stage) : stage = .ready ↔ handleton.svIsReady = true := by
  rw [sound.shows.isReady, decide_eq_true_eq]

end

namespace Exiting
variable {count : Nat} {process next : Exiting count} {stage : Stage}

/-- After a step of a call the handler stands where it stood. -/
theorem Before.handletonStep (before : process.Before stage) {thread : Fin count} {after : Handleton count}
    (stepped : Singletone.handletonStep process.handleton thread = some after)
    (own : process.exiting = some thread → process.handleton.svShouldInit = true) :
    ∃ later, ({ process with handleton := after } : Exiting count).Before later := by
  obtain ⟨later, sound⟩ := before.sound.step stepped
  have kept : ∀ place, process.destroy = some place → after.registered = 1 ∧ (stage = .ready → later = .ready) := by
    intro place running
    obtain ⟨-, registered, -⟩ := before.running place running
    obtain ⟨same, ready⟩ := before.sound.settled (by rw [registered]; exact one_ne_zero) stepped
    exact ⟨same.trans registered, fun last => sound.ready_iff.mpr (ready (before.sound.ready_iff.mp last))⟩
  refine ⟨later, sound, before.deleted, before.fresh, ?_, ?_⟩
  · intro place running
    obtain ⟨started, -, places⟩ := before.running place running
    obtain ⟨registered, ready⟩ := kept place running
    exact ⟨started, registered, places.imp_right (Or.imp_right (And.imp_left ready))⟩
  · intro other exits
    by_cases same : other = thread
    · rw [same] at exits ⊢
      exact remaining_of_handletonStep stepped (own exits) (before.bystander thread exits)
    · rw [calls_of_handletonStep stepped same]
      exact before.bystander other exits

/-- The handler starts after the registration, and it starts once. -/
theorem Before.start (before : process.Before stage) (idle : process.destroy = none)
    (pending : process.started < process.handleton.registered) :
    ({ process with destroy := some .construct, started := process.started + 1 } : Exiting count).Before stage := by
  have first := before.fresh idle
  have registered : process.handleton.registered = 1 := by
    have single := before.sound.agreed.once
    omega
  refine ⟨before.sound, before.deleted, ?_, ?_, before.bystander⟩
  · intro none
    cases none
  · rintro place ⟨⟩
    exact ⟨by rw [first], registered, .inl rfl⟩

/-- The reference of a call is used at the place of the handler, and the pointer is overwritten at the last one. -/
theorem Before.leaveStep (before : process.Before stage) {thread : Fin count} {place : DestroyInstance}
    (running : process.destroy = some place) (leaves : process.handleton.calls thread = .leave) :
    (process.leaveStep thread place).Before stage ∨ (process.leaveStep thread place).After := by
  obtain ⟨started, registered, places⟩ := before.running place running
  have ready := before.sound.ready leaves
  have object : process.handleton.theObject = some 0 := by
    rw [before.sound.shows.object, ready]
    rfl
  have left := before.sound.leave leaves
  have bystander : ∀ other, process.exiting = some other →
      ((process.handleton.move thread .idle).calls other).remaining = 0 := by
    intro other exits
    show (Function.update process.handleton.calls thread .idle other).remaining = 0
    by_cases same : other = thread
    · rw [same, Function.update_self]
      rfl
    · rw [Function.update_of_ne same]
      exact before.bystander other exits
  rcases places with rfl | rfl | ⟨-, rfl⟩
  · refine .inl ⟨left, before.deleted, ?_, ?_, bystander⟩
    · intro none
      cases none
    · rintro other ⟨⟩
      exact ⟨started, registered, .inr (.inl rfl)⟩
  · refine .inl ⟨left, before.deleted, ?_, ?_, bystander⟩
    · intro none
      cases none
    · rintro other ⟨⟩
      exact ⟨started, registered, .inr (.inr ⟨ready, by rw [object]⟩)⟩
  · rw [ready] at left
    refine .inr ⟨?_, rfl, started, .inl ⟨rfl, before.deleted⟩, ?_⟩
    · have forgotten := left.forget
      rw [show ({ process.handleton.move thread .idle with returned := [] } : Handleton count) =
        { process.handleton.move thread .idle with theObject := some 0, returned := [] } by
          rw [← object]
          rfl] at forgotten
      exact forgotten
    · intro temp member
      exact .inr (left.returned temp member).1

/-- Each step keeps the handler on its way or overwrites the pointer. -/
theorem Before.step (before : process.Before stage) {event : ExitEvent count}
    (stepped : exitStep process event = some next) : (∃ later, next.Before later) ∨ next.After := by
  cases event with
  | call thread =>
      simp only [exitStep] at stepped
      split at stepped
      · cases stepped
      · next other =>
          obtain ⟨after, moved, rfl⟩ := Option.map_eq_some_iff.mp stepped
          exact .inl (before.handletonStep moved fun same => absurd same other)
  | exit thread =>
      simp only [exitStep] at stepped
      split at stepped
      · next enabled =>
          obtain rfl := Option.some.inj stepped
          refine .inl ⟨stage, before.sound, before.deleted, before.fresh, before.running, ?_⟩
          rintro other ⟨⟩
          rw [enabled.2]
          rfl
      · cases stepped
  | destroy =>
      obtain ⟨thread, exits, stepped⟩ := Option.bind_eq_some_iff.mp stepped
      unfold destroyStep at stepped
      cases running : process.destroy with
      | none =>
          simp only [running] at stepped
          split at stepped
          · next pending =>
              obtain rfl := Option.some.inj stepped
              exact .inl ⟨stage, before.start running pending⟩
          · cases stepped
      | some place =>
          obtain ⟨-, registered, places⟩ := before.running place running
          have waits : (if process.handleton.calls thread = .leave then some (process.leaveStep thread place)
              else (Singletone.handletonStep process.handleton thread).map fun next =>
                { process with handleton := next }) = some next := by
            rcases places with rfl | rfl | ⟨-, rfl⟩ <;> simpa only [running] using stepped
          split at waits
          · next leaves =>
              obtain rfl := Option.some.inj waits
              exact (before.leaveStep running leaves).imp_left fun kept => ⟨stage, kept⟩
          · obtain ⟨after, moved, rfl⟩ := Option.map_eq_some_iff.mp waits
            exact .inl (before.handletonStep moved fun _ =>
              before.sound.claimed (by rw [registered]; exact one_ne_zero))

/-- Each step keeps the pointer overwritten and deletes the object once. -/
theorem After.step (after : process.After) {event : ExitEvent count}
    (stepped : exitStep process event = some next) : next.After := by
  have still : ∀ thread, (process.handleton.calls thread).remaining = 0 := by
    intro thread
    by_contra remains
    exact ((after.sound.allowed thread).stage_of_remaining (Nat.pos_of_ne_zero remains)).2 rfl
  cases event with
  | call thread =>
      simp only [exitStep] at stepped
      split at stepped
      · cases stepped
      · obtain ⟨handleton, moved, rfl⟩ := Option.map_eq_some_iff.mp stepped
        obtain ⟨⟨copy, followed, same⟩, object, returned⟩ := handletonStep_restored moved (still thread)
        obtain ⟨later, sound⟩ := after.sound.step followed
        have last : later = .ready := by
          apply sound.ready_iff.mpr
          exact (after.sound.settled (by rw [after.sound.shows.registered]; decide) followed).2
            (after.sound.ready_iff.mp rfl)
        rw [last] at sound
        refine ⟨?_, object.trans after.object, after.started, after.deleted, ?_⟩
        · rw [same]
          exact sound.forget
        · intro temp member
          rcases returned temp member with here | before
          · exact .inl (here.trans after.object)
          · exact after.returned temp before
  | exit thread =>
      simp only [exitStep] at stepped
      split at stepped
      · obtain rfl := Option.some.inj stepped
        exact ⟨after.sound, after.object, after.started, after.deleted, after.returned⟩
      · cases stepped
  | destroy =>
      obtain ⟨thread, exits, stepped⟩ := Option.bind_eq_some_iff.mp stepped
      unfold destroyStep at stepped
      rcases after.deleted with ⟨running, none⟩ | ⟨finished, deleted⟩
      · simp only [running, Option.some.injEq] at stepped
        subst stepped
        refine ⟨after.sound, after.object, after.started, .inr ⟨rfl, ?_⟩, after.returned⟩
        rw [leaveStep, none]
      · have registered : process.handleton.registered = 1 := after.sound.shows.registered
        rw [finished] at stepped
        simp only [after.started, registered, lt_self_iff_false, if_false] at stepped
        cases stepped

/-- Before the pointer is overwritten nothing is deleted, and a handler waits at most for the publication. -/
theorem Before.safe (before : process.Before stage) : process.Safe where
  once := by
    cases running : process.destroy with
    | none =>
        rw [before.fresh running]
        exact Nat.zero_le 1
    | some place => exact (before.running place running).1.le
  deleted := .inl before.deleted
  hidden := by
    rw [before.deleted]
    exact List.not_mem_nil
  returned := by
    intro temp member
    obtain ⟨-, address, -, completed, same⟩ := before.sound.agreed.holds temp member
    exact .inr ⟨address, completed, same⟩
  waits := by
    intro some unready
    obtain ⟨place, running⟩ := Option.ne_none_iff_exists'.mp some
    have registered := (before.running place running).2.1
    have unfinished : stage ≠ .ready := by
      intro ready
      rw [before.sound.ready_iff.mp ready] at unready
      cases unready
    obtain rfl : stage = .registered :=
      (before.sound.late (by rw [registered]; exact one_ne_zero)).resolve_right unfinished
    obtain ⟨thread, remaining⟩ := before.sound.owned (by decide) unfinished
    refine ⟨thread, ?_, ?_⟩
    · intro exits
      rw [before.bystander thread exits] at remaining
      cases remaining
    · have allowed := before.sound.allowed thread
      cases call : process.handleton.calls thread with
      | publish => rfl
      | allocate | register =>
          rw [call] at allowed
          cases allowed
      | build address | assign address =>
          rw [call] at allowed
          cases allowed.1
      | idle | test | fetchOr | spin | leave =>
          rw [call] at remaining
          cases remaining

/-- After it the object is deleted at most once, and each later call returns the overwritten pointer. -/
theorem After.safe (after : process.After) : process.Safe where
  once := after.started.le
  deleted := by
    rcases after.deleted with ⟨-, none⟩ | ⟨-, one⟩
    · exact .inl none
    · exact .inr ⟨0, after.sound.shows.completed, one⟩
  hidden := by
    rw [after.object]
    rcases after.deleted with ⟨-, none⟩ | ⟨-, one⟩
    · rw [none]
      exact List.not_mem_nil
    · rw [one]
      decide
  returned := by
    intro temp member
    rcases after.returned temp member with here | before
    · exact .inl here
    · exact .inr ⟨0, after.sound.shows.completed, before⟩
  waits := by
    intro _ unready
    have ready : process.handleton.svIsReady = true := after.sound.ready_iff.mp rfl
    rw [ready] at unready
    cases unready

/-- In each run the exit deletes the one object once, after no call can get its pointer any more. -/
theorem safe_of_run {events : List (ExitEvent count)} {final : Exiting count}
    (reached : run exitStep (initial count) events = some final) : final.Safe := by
  have kept : (∃ stage, final.Before stage) ∨ final.After := by
    apply run_invariant (fun process : Exiting count => (∃ stage, process.Before stage) ∨ process.After) _ _ reached
    · rintro process event next (⟨stage, before⟩ | after) stepped
      · exact before.step stepped
      · exact .inr (after.step stepped)
    · refine .inl ⟨.untouched, handleton_sound_initial, rfl, fun _ => rfl, ?_, ?_⟩
      · intro place none
        cases none
      · intro thread none
        cases none
  rcases kept with ⟨stage, before⟩ | after
  · exact before.safe
  · exact after.safe

end Exiting

/-- The first thread constructs the object, the second one exits and spins, and the first one calls again. -/
def exitWhileSpinning : List (ExitEvent 2) :=
  List.replicate 7 (.call firstThread) ++ [.exit secondThread] ++ List.replicate 5 .destroy ++
    [.call firstThread] ++ List.replicate 9 .destroy ++ List.replicate 5 (.call firstThread)

/-- The object is deleted once, and the later call returns the overwritten pointer. -/
theorem safe_exitWhileSpinning : ∃ final, run exitStep (.initial 2) exitWhileSpinning = some final ∧
    final.deleted = [some 0] ∧ final.Safe := by
  obtain ⟨final, reached, deleted⟩ : ∃ final, run exitStep (.initial 2) exitWhileSpinning = some final ∧
      final.deleted = [some 0] := by decide
  exact ⟨final, reached, deleted, Exiting.safe_of_run reached⟩

end DistributedNas.Singletone
