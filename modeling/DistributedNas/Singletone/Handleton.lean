import DistributedNas.Singletone.Instance

/-
This file models concurrent calls of `Handleton::GetInstance`, whose initialization is published by two flags.
-/

namespace DistributedNas.Singletone
open Library

/-- A call of `GetInstance` stands before this step, and `new T()` keeps the address until its assignment. -/
inductive GetInstance where
  | idle
  | test
  | fetchOr
  | allocate
  | build (address : Address)
  | assign (address : Address)
  | register
  | publish
  | spin
  | leave
  deriving DecidableEq, Repr

/-- The threads share both flags and `theObject`, and the histories say what was constructed, registered and read. -/
structure Handleton (count : Nat) where
  svIsReady : Bool
  svShouldInit : Bool
  theObject : Option Address
  calls : Fin count → GetInstance
  constructed : List Address
  completed : List Address
  registered : Nat
  returned : List (Option Address)

/-- No call has begun. -/
def Handleton.initial (count : Nat) : Handleton count := ⟨false, false, none, fun _ => .idle, [], [], 0, []⟩

/-- This function moves one thread to the next step of its call. -/
def Handleton.move {count : Nat} (handleton : Handleton count) (thread : Fin count) (call : GetInstance) :
    Handleton count :=
  { handleton with calls := Function.update handleton.calls thread call }

/-- Only the call whose `Atomic_Or` finds `sv_shouldInit` unset constructs, registers and publishes the object. -/
def handletonStep {count : Nat} (handleton : Handleton count) (thread : Fin count) : Option (Handleton count) :=
  match handleton.calls thread with
  | .idle => some (handleton.move thread .test)
  | .test => some (handleton.move thread (if handleton.svIsReady then .leave else .fetchOr))
  | .fetchOr =>
      let before := handleton.svShouldInit
      some { handleton.move thread (if before then .spin else .allocate) with svShouldInit := true }
  | .allocate =>
      let address := handleton.constructed.length
      some { handleton.move thread (.build address) with constructed := address :: handleton.constructed }
  | .build address =>
      some { handleton.move thread (.assign address) with completed := address :: handleton.completed }
  | .assign address => some { handleton.move thread .register with theObject := some address }
  | .register => some { handleton.move thread .publish with registered := handleton.registered + 1 }
  | .publish => some { handleton.move thread .spin with svIsReady := true }
  | .spin => some (handleton.move thread (if handleton.svIsReady then .leave else .spin))
  | .leave => some { handleton.move thread .idle with returned := handleton.theObject :: handleton.returned }

/-- The initializing call has this many steps left up to its publication. -/
def GetInstance.remaining : GetInstance → Nat
  | .allocate => 5
  | .build _ => 4
  | .assign _ => 3
  | .register => 2
  | .publish => 1
  | _ => 0

/-- One object exists, it is registered once, and each returned reference holds the completed object. -/
structure Handleton.Agreed {count : Nat} (handleton : Handleton count) : Prop where
  single : handleton.constructed.length ≤ 1
  once : handleton.registered ≤ 1
  holds : ∀ temp ∈ handleton.returned, temp = handleton.theObject ∧
    ∃ address, handleton.constructed = [address] ∧ handleton.completed = [address] ∧ temp = some address

/-- While a call spins before the publication, another call can publish by its own steps alone. -/
def Handleton.Progresses {count : Nat} (handleton : Handleton count) : Prop :=
  handleton.svIsReady = false → (∃ thread, handleton.calls thread = .spin) →
    ∃ thread, 0 < (handleton.calls thread).remaining ∧ ∃ ready,
      run handletonStep handleton (List.replicate (handleton.calls thread).remaining thread) = some ready ∧
        ready.svIsReady

/-- The initialization passes through these stages once. -/
inductive Stage where
  | untouched
  | claimed
  | begun
  | built
  | assigned
  | registered
  | ready
  deriving DecidableEq, Repr

/-- The object has been begun in these stages. -/
def Stage.constructed : Stage → List Address
  | .untouched | .claimed => []
  | .begun | .built | .assigned | .registered | .ready => [0]

/-- The constructor has returned in these stages. -/
def Stage.completed : Stage → List Address
  | .untouched | .claimed | .begun => []
  | .built | .assigned | .registered | .ready => [0]

/-- The pointer has been assigned in these stages. -/
def Stage.theObject : Stage → Option Address
  | .untouched | .claimed | .begun | .built => none
  | .assigned | .registered | .ready => some 0

/-- `DestroyInstance` has been registered in these stages. -/
def Stage.registrations : Stage → Nat
  | .untouched | .claimed | .begun | .built | .assigned => 0
  | .registered | .ready => 1

/-- The shared fields are those of a stage. -/
structure Handleton.Shows {count : Nat} (handleton : Handleton count) (stage : Stage) : Prop where
  isReady : handleton.svIsReady = decide (stage = .ready)
  shouldInit : handleton.svShouldInit = decide (stage ≠ .untouched)
  object : handleton.theObject = stage.theObject
  constructed : handleton.constructed = stage.constructed
  completed : handleton.completed = stage.completed
  registered : handleton.registered = stage.registrations

/-- A call stands at a step that fits the stage. -/
def Stage.Allows (stage : Stage) : GetInstance → Prop
  | .idle | .test | .fetchOr => True
  | .allocate => stage = .claimed
  | .build address => stage = .begun ∧ address = 0
  | .assign address => stage = .built ∧ address = 0
  | .register => stage = .assigned
  | .publish => stage = .registered
  | .spin => stage ≠ .untouched
  | .leave => stage = .ready

/-- One call takes the initialization from a stage to the next one, and a call returns only in the last stage. -/
structure Handleton.Sound {count : Nat} (handleton : Handleton count) (stage : Stage) : Prop where
  shows : handleton.Shows stage
  allowed : ∀ thread, stage.Allows (handleton.calls thread)
  alone : ∀ first second, 0 < (handleton.calls first).remaining → 0 < (handleton.calls second).remaining →
    first = second
  owned : stage ≠ .untouched → stage ≠ .ready → ∃ thread, 0 < (handleton.calls thread).remaining
  returned : ∀ temp ∈ handleton.returned, temp = some 0 ∧ stage = .ready

section
variable {count : Nat} {handleton next : Handleton count} {thread : Fin count} {stage later : Stage}

theorem handleton_sound_initial : (Handleton.initial count).Sound .untouched where
  shows := ⟨rfl, rfl, rfl, rfl, rfl, rfl⟩
  allowed := fun _ => trivial
  alone := by
    intro first second remaining
    cases remaining
  owned := fun touched => absurd rfl touched
  returned := by
    intro temp member
    cases member

/-- A call that initializes stands neither in the first stage nor in the last one. -/
theorem Stage.Allows.stage_of_remaining {call : GetInstance} (allows : stage.Allows call)
    (remaining : 0 < call.remaining) : stage ≠ .untouched ∧ stage ≠ .ready := by
  cases call with
  | allocate | register | publish =>
      obtain rfl : stage = _ := allows
      exact ⟨by decide, by decide⟩
  | build address | assign address =>
      obtain ⟨rfl, -⟩ := allows
      exact ⟨by decide, by decide⟩
  | idle | test | fetchOr | spin | leave => cases remaining

/-- A call that does not initialize may stay where it is when the initialization goes on. -/
theorem Stage.Allows.advance {call : GetInstance} (allows : stage.Allows call) (still : call.remaining = 0)
    (touched : later ≠ .untouched) (kept : stage = .ready → later = .ready) : later.Allows call := by
  cases call with
  | idle | test | fetchOr => trivial
  | spin => exact touched
  | leave => exact kept allows
  | allocate | build address | assign address | register | publish => cases still

/-- A step of a call that does not initialize keeps the stage. -/
theorem Handleton.Sound.proceeds (sound : handleton.Sound stage) (call : GetInstance)
    (calls : next.calls = Function.update handleton.calls thread call) (shows : next.Shows stage)
    (before : (handleton.calls thread).remaining = 0) (after : call.remaining = 0) (allows : stage.Allows call)
    (returned : ∀ temp ∈ next.returned, temp = some 0 ∧ stage = .ready) : next.Sound stage := by
  have kept : ∀ other, 0 < (next.calls other).remaining ↔ 0 < (handleton.calls other).remaining := by
    intro other
    rw [calls]
    by_cases here : other = thread
    · rw [here, Function.update_self, before, after]
    · rw [Function.update_of_ne here]
  refine ⟨shows, ?_, ?_, ?_, returned⟩
  · intro other
    rw [calls]
    by_cases here : other = thread
    · rw [here, Function.update_self]
      exact allows
    · rw [Function.update_of_ne here]
      exact sound.allowed other
  · intro first second left right
    exact sound.alone first second ((kept first).mp left) ((kept second).mp right)
  · intro touched unready
    obtain ⟨other, remaining⟩ := sound.owned touched unready
    exact ⟨other, (kept other).mpr remaining⟩

/-- A step of the only call that may initialize takes the initialization to a later stage. -/
theorem Handleton.Sound.advances (sound : handleton.Sound stage) (call : GetInstance)
    (calls : next.calls = Function.update handleton.calls thread call) (shows : next.Shows later)
    (only : ∀ other, other ≠ thread → (handleton.calls other).remaining = 0) (allows : later.Allows call)
    (touched : later ≠ .untouched) (unready : stage ≠ .ready) (owned : later ≠ .ready → 0 < call.remaining)
    (returned : next.returned = handleton.returned) : next.Sound later := by
  have here : next.calls thread = call := by rw [calls, Function.update_self]
  have kept : ∀ other, other ≠ thread → next.calls other = handleton.calls other := by
    intro other different
    rw [calls, Function.update_of_ne different]
  have alone : ∀ other, 0 < (next.calls other).remaining → other = thread := by
    intro other remaining
    by_contra different
    rw [kept other different, only other different] at remaining
    cases remaining
  refine ⟨shows, ?_, ?_, ?_, ?_⟩
  · intro other
    by_cases same : other = thread
    · rw [same, here]
      exact allows
    · rw [kept other same]
      exact (sound.allowed other).advance (only other same) touched fun ready => absurd ready unready
  · intro first second left right
    exact (alone first left).trans (alone second right).symm
  · intro _ unfinished
    refine ⟨thread, ?_⟩
    rw [here]
    exact owned unfinished
  · intro temp member
    rw [returned] at member
    exact absurd (sound.returned temp member).2 unready

/-- The other calls do not initialize while this one does. -/
theorem Handleton.Sound.others (sound : handleton.Sound stage) (remaining : 0 < (handleton.calls thread).remaining)
    (other : Fin count) (different : other ≠ thread) : (handleton.calls other).remaining = 0 := by
  by_contra also
  exact different (sound.alone other thread (Nat.pos_of_ne_zero also) remaining)

/-- Each step keeps the stage or takes it on. -/
theorem Handleton.Sound.step (sound : handleton.Sound stage) (stepped : handletonStep handleton thread = some next) :
    ∃ later, next.Sound later := by
  have allowed := sound.allowed thread
  have ⟨isReady, shouldInit, object, constructed, completed, registered⟩ := sound.shows
  have moved : ∀ call, (handleton.move thread call).Shows stage :=
    fun _ => ⟨isReady, shouldInit, object, constructed, completed, registered⟩
  have published : handleton.svIsReady → stage = .ready := fun ready => of_decide_eq_true (isReady.symm.trans ready)
  unfold handletonStep at stepped
  cases call : handleton.calls thread with
  | idle =>
      simp only [call, Option.some.injEq] at stepped
      subst stepped
      exact ⟨stage, sound.proceeds .test rfl (moved _) (by rw [call]; rfl) rfl trivial sound.returned⟩
  | test =>
      simp only [call, Option.some.injEq] at stepped
      subst stepped
      refine ⟨stage, sound.proceeds _ rfl (moved _) (by rw [call]; rfl) ?_ ?_ sound.returned⟩
      · split <;> rfl
      · split
        · next ready => exact published ready
        · trivial
  | fetchOr =>
      have before : (handleton.calls thread).remaining = 0 := by rw [call]; rfl
      simp only [call, Option.some.injEq] at stepped
      subst stepped
      by_cases touched : stage = .untouched
      · have quiet : ∀ other, other ≠ thread → (handleton.calls other).remaining = 0 := by
          intro other _
          by_contra remaining
          exact ((sound.allowed other).stage_of_remaining (Nat.pos_of_ne_zero remaining)).1 touched
        subst touched
        refine ⟨.claimed, sound.advances .allocate ?_ ⟨isReady, rfl, object, constructed, completed, registered⟩
          quiet rfl (by decide) (by decide) (fun _ => by decide) rfl⟩
        rw [shouldInit]
        rfl
      · rw [decide_eq_true touched] at shouldInit
        refine ⟨stage, sound.proceeds .spin ?_ ⟨isReady, ?_, object, constructed, completed, registered⟩ before rfl
          touched sound.returned⟩
        · rw [shouldInit]
          rfl
        · exact (decide_eq_true touched).symm
  | allocate =>
      have others := sound.others (by rw [call]; decide)
      simp only [call, Option.some.injEq] at stepped allowed
      subst stepped
      obtain rfl : stage = .claimed := allowed
      refine ⟨.begun, sound.advances (.build handleton.constructed.length) rfl
        ⟨isReady, shouldInit, object, ?_, completed, registered⟩ others ⟨rfl, ?_⟩ (by decide) (by decide)
        (fun _ => Nat.succ_pos _) rfl⟩
      · show _ :: handleton.constructed = _
        rw [constructed]
        rfl
      · rw [constructed]
        rfl
  | build address =>
      have others := sound.others (by rw [call]; exact Nat.succ_pos _)
      simp only [call, Option.some.injEq] at stepped allowed
      subst stepped
      obtain ⟨rfl, rfl⟩ := allowed
      refine ⟨.built, sound.advances (.assign 0) rfl ⟨isReady, shouldInit, object, constructed, ?_, registered⟩ others
        ⟨rfl, rfl⟩ (by decide) (by decide) (fun _ => Nat.succ_pos _) rfl⟩
      show _ :: handleton.completed = _
      rw [completed]
      rfl
  | assign address =>
      have others := sound.others (by rw [call]; exact Nat.succ_pos _)
      simp only [call, Option.some.injEq] at stepped allowed
      subst stepped
      obtain ⟨rfl, rfl⟩ := allowed
      exact ⟨.assigned, sound.advances .register rfl ⟨isReady, shouldInit, rfl, constructed, completed, registered⟩
        others rfl (by decide) (by decide) (fun _ => Nat.succ_pos _) rfl⟩
  | register =>
      have others := sound.others (by rw [call]; decide)
      simp only [call, Option.some.injEq] at stepped allowed
      subst stepped
      obtain rfl : stage = .assigned := allowed
      refine ⟨.registered, sound.advances .publish rfl ⟨isReady, shouldInit, object, constructed, completed, ?_⟩
        others rfl (by decide) (by decide) (fun _ => Nat.succ_pos _) rfl⟩
      show handleton.registered + 1 = _
      rw [registered]
      rfl
  | publish =>
      have others := sound.others (by rw [call]; decide)
      simp only [call, Option.some.injEq] at stepped allowed
      subst stepped
      obtain rfl : stage = .registered := allowed
      exact ⟨.ready, sound.advances .spin rfl ⟨rfl, shouldInit, object, constructed, completed, registered⟩
        others (show Stage.ready ≠ .untouched by decide) (by decide) (by decide)
        (fun unready => absurd rfl unready) rfl⟩
  | spin =>
      simp only [call, Option.some.injEq] at stepped allowed
      subst stepped
      refine ⟨stage, sound.proceeds _ rfl (moved _) (by rw [call]; rfl) ?_ ?_ sound.returned⟩
      · split <;> rfl
      · split
        · next ready => exact published ready
        · exact allowed
  | leave =>
      simp only [call, Option.some.injEq] at stepped allowed
      subst stepped
      obtain rfl : stage = .ready := allowed
      refine ⟨.ready, sound.proceeds .idle rfl ⟨isReady, shouldInit, object, constructed, completed, registered⟩
        (by rw [call]; rfl) rfl trivial ?_⟩
      intro temp member
      cases List.mem_cons.mp member with
      | inl here => exact ⟨here.trans object, rfl⟩
      | inr before => exact sound.returned temp before

/-- Each stage leaves room for one object and one registration. -/
theorem Handleton.Sound.agreed (sound : handleton.Sound stage) : handleton.Agreed where
  single := by
    rw [sound.shows.constructed]
    cases stage <;> decide
  once := by
    rw [sound.shows.registered]
    cases stage <;> decide
  holds := by
    intro temp member
    obtain ⟨rfl, rfl⟩ := sound.returned temp member
    exact ⟨sound.shows.object.symm, 0, sound.shows.constructed, sound.shows.completed, rfl⟩

/-- A step of the initializing call leaves one step less up to the publication. -/
theorem handletonStep_remaining {steps : Nat} (remaining : (handleton.calls thread).remaining = steps + 1) :
    ∃ next, handletonStep handleton thread = some next ∧ (next.calls thread).remaining = steps ∧
      (steps = 0 → next.svIsReady) := by
  cases call : handleton.calls thread with
  | allocate | build address | assign address | register | publish =>
      rw [call] at remaining
      obtain rfl := Nat.succ.inj remaining
      refine ⟨_, by rw [handletonStep, call], ?_, ?_⟩
      · simp [Handleton.move, GetInstance.remaining]
      · simp
  | idle | test | fetchOr | spin | leave =>
      rw [call] at remaining
      cases remaining

/-- The initializing call publishes the object when it runs alone. -/
theorem ready_of_remaining {steps : Nat} (remaining : (handleton.calls thread).remaining = steps + 1) :
    ∃ ready, run handletonStep handleton (List.replicate (steps + 1) thread) = some ready ∧ ready.svIsReady := by
  induction steps generalizing handleton with
  | zero =>
      obtain ⟨next, stepped, -, published⟩ := handletonStep_remaining remaining
      exact ⟨next, run_cons_eq_some.mpr ⟨next, stepped, rfl⟩, published rfl⟩
  | succ steps ih =>
      obtain ⟨next, stepped, fewer, -⟩ := handletonStep_remaining remaining
      obtain ⟨ready, continued, published⟩ := ih fewer
      exact ⟨ready, run_cons_eq_some.mpr ⟨next, stepped, continued⟩, published⟩

/-- A spinning call finds the instance published or its initializing call on the way. -/
theorem Handleton.Sound.progresses (sound : handleton.Sound stage) : handleton.Progresses := by
  intro unready spins
  obtain ⟨spinner, spinning⟩ := spins
  have touched : stage ≠ .untouched := by
    have allowed := sound.allowed spinner
    rw [spinning] at allowed
    exact allowed
  have unfinished : stage ≠ .ready := of_decide_eq_false (sound.shows.isReady.symm.trans unready)
  obtain ⟨thread, remaining⟩ := sound.owned touched unfinished
  obtain ⟨steps, counted⟩ := Nat.exists_eq_succ_of_ne_zero remaining.ne'
  refine ⟨thread, remaining, ?_⟩
  rw [counted]
  exact ready_of_remaining counted

/-- In each run the calls agree on the completed object, and no spinning call waits in vain. -/
theorem handleton_agreed_of_run {threads : List (Fin count)} {final : Handleton count}
    (reached : run handletonStep (.initial count) threads = some final) : final.Agreed ∧ final.Progresses := by
  have sound : ∃ stage, final.Sound stage := run_invariant (fun handleton => ∃ stage, Handleton.Sound handleton stage)
    (fun _ _ _ before stepped => before.elim fun _ sound => sound.step stepped)
    ⟨.untouched, handleton_sound_initial⟩ reached
  obtain ⟨stage, sound⟩ := sound
  exact ⟨sound.agreed, sound.progresses⟩

end

/-- The second thread spins while the first one constructs the object, and a later call finds it ready. -/
def spinOnce : List (Fin 2) :=
  [firstThread, secondThread, firstThread, secondThread, firstThread, secondThread, secondThread, firstThread,
    firstThread, firstThread, firstThread, secondThread, firstThread, secondThread, secondThread, firstThread,
    firstThread, secondThread, secondThread, secondThread]

/-- Both threads return the one object. -/
theorem spinOnce_agreed : ∃ final, run handletonStep (.initial 2) spinOnce = some final ∧
    final.Agreed ∧ final.Progresses := by
  obtain ⟨final, reached⟩ : ∃ final, run handletonStep (.initial 2) spinOnce = some final :=
    Option.isSome_iff_exists.mp (by decide)
  exact ⟨final, reached, handleton_agreed_of_run reached⟩

example : (run handletonStep (.initial 2) spinOnce).map Handleton.returned = some [some 0, some 0, some 0] := by
  decide

end DistributedNas.Singletone
