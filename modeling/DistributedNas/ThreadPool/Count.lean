import DistributedNas.ThreadPool.Deletion

/-
This file proves when `m_num_of_threads` is the number of live workers, and what `Pause` and `Stop` enqueue from it.
-/

namespace DistributedNas.ThreadPool
open Library
open Engine (Priority)

section
variable {Job : Type*}

/-- No operation is in progress, and no `DeleteTask` is queued or executing. -/
def Pool.Quiet (pool : Pool Job) : Prop := pool.controller = .idle ∧ pool.outstanding = 0

/-- The last `SetThreadNumber` asked for this number of threads, unless `Stop` came after it. -/
def goal (numOfThreads : Nat) : List (Operation Job) → Option Int
  | [] => some numOfThreads
  | .setThreadNumber newNumOfThreads :: _ => some newNumOfThreads
  | .stop :: _ => none
  | _ :: earlier => goal numOfThreads earlier

/-- An observer notes the last call: whether it came in a quiet state, and how many workers were alive. -/
structure Audit (Job : Type*) where
  pool : Pool Job
  quietly : Bool
  staff : Nat
  issued : Nat

def Audit.initial (numOfThreads : Nat) : Audit Job := ⟨.initial numOfThreads, false, 0, 0⟩

/-- An effect enqueues at most one `PauseTask` or `DeleteTask`. -/
def Effect.issues : Effect Job → Nat
  | .enqueue .pause | .enqueue .delete => 1
  | _ => 0

/-- The observer counts the tasks that the pool enqueues for its own workers since the last call. -/
def auditStep (audit : Audit Job) (action : Action Job) : Option (Audit Job) :=
  (poolStep audit.pool action).map fun next =>
    match action with
    | .call _ => ⟨next, audit.pool.outstanding = 0, audit.pool.live, 0⟩
    | .control =>
        let issues := audit.pool.plan.elim 0 fun planned => planned.1.issues
        ⟨next, audit.quietly, audit.staff, audit.issued + issues⟩
    | _ => ⟨next, audit.quietly, audit.staff, audit.issued⟩

/-- `SetThreadNumber` is called with no `DeleteTask` queued or executing, and it does not shrink the pool. -/
def Pool.GrowsQuietly (pool : Pool Job) : Action Job → Prop
  | .call (.setThreadNumber newNumOfThreads) => pool.outstanding = 0 ∧ pool.mNumOfThreads ≤ newNumOfThreads
  | _ => True

/-- The last call was `Pause` or `Stop`. -/
def Pool.enlists (pool : Pool Job) : Bool :=
  match pool.calls with
  | .pause :: _ | .stop :: _ => true
  | _ => false

/-- In a quiet state the count is the number of live workers, and `Pause` and `Stop` enqueue one task for each. -/
structure Audit.Truthful (numOfThreads : Nat) (audit : Audit Job) : Prop where
  live : audit.pool.Quiet → audit.pool.mNumOfThreads = audit.pool.live
  nonneg : audit.pool.Quiet → 0 ≤ audit.pool.mNumOfThreads
  goal : audit.pool.Quiet → audit.pool.mNumOfThreads = (goal numOfThreads audit.pool.calls).getD 0
  issued : audit.pool.controller = .idle → audit.pool.enlists → audit.quietly → audit.issued = audit.staff

/-- A created thread is not yet counted at this step. -/
def Controller.uncounted : Controller Job → Nat
  | .resizeIncrement _ => 1
  | _ => 0

/-- The operation leads the count to a number of threads. -/
def Controller.Towards (number count : Int) : Controller Job → Prop
  | .resizeTest new => new = number ∧ count ≤ number
  | .resizeGrow new => new = number ∧ count < number
  | .resizePause diff _ => count + diff = number
  | .resizeCreate left => count + left = number
  | .resizeIncrement left => count + left + 1 = number
  | .resizeShrink new => new = number ∧ count = number
  | .resizeDelete left => left = 0 ∧ count = number
  | .resizeDecrement _ => False
  | .stopLock | .stopBroadcast | .stopLoop _ | .stopTest | .stopWaiting | .stopWoken _ | .stopLeave _ => False
  | _ => count = number

/-- `Stop` leaves no more live workers than `DeleteTask` objects. -/
def Controller.Ending (live outstanding : Nat) : Controller Job → Prop
  | .stopLock | .stopBroadcast => True
  | .stopLoop i => i ≤ outstanding
  | .resizeTest _ | .resizeGrow _ | .resizePause _ _ | .resizeCreate _ | .resizeIncrement _ | .resizeShrink _
  | .resizeDelete _ | .resizeDecrement _ => False
  | _ => live ≤ outstanding

/-- `Pause` or `Stop` has issued this number of tasks, and it goes on up to the number of live workers. -/
def Controller.Issuing (staff issued outstanding : Nat) (count : Int) : Controller Job → Prop
  | .pauseSet | .stopLock | .stopBroadcast => count = staff ∧ outstanding = 0 ∧ issued = 0
  | .pauseLoop i => count = staff ∧ outstanding = 0 ∧ issued = i ∧ i ≤ staff
  | .stopLoop i => count = staff ∧ issued = i ∧ i ≤ staff
  | .resizeTest _ | .resizeGrow _ | .resizePause _ _ | .resizeCreate _ | .resizeIncrement _ | .resizeShrink _
  | .resizeDelete _ | .resizeDecrement _ => False
  | _ => issued = staff

/-- The count is right in each operation that does not shrink the pool, and it leads to the goal. -/
structure Pool.Tallied (numOfThreads : Nat) (pool : Pool Job) : Prop where
  count : pool.mNumOfThreads + pool.controller.uncounted = pool.live
  towards : ∀ number, goal numOfThreads pool.calls = some number →
    pool.outstanding = 0 ∧ pool.controller.Towards number pool.mNumOfThreads
  ending : goal numOfThreads pool.calls = none → pool.controller.Ending pool.live pool.outstanding

/-- `Pause` and `Stop` count their rounds when they were called in a quiet state. -/
def Audit.Tracked (audit : Audit Job) : Prop :=
  audit.pool.enlists → audit.quietly →
    audit.pool.controller.Issuing audit.staff audit.issued audit.pool.outstanding audit.pool.mNumOfThreads

variable {pool next base : Pool Job} {id numOfThreads staff issued outstanding live : Nat} {worker : Worker Job}
  {effect : Effect Job} {after : Controller Job} {number : Int}

/-- A resize that does not shrink the pool leads the count to its argument. -/
theorem Plans.towards (plans : Plans pool effect after)
    (towards : pool.controller.Towards number pool.mNumOfThreads) :
    after.Towards number (pool.mNumOfThreads + effect.change) ∧ effect.ordered = 0 := by
  cases plans with
  | grow new stands | shrink new stands | growPaused new stands | growUnpaused new stands
  | growPauseTask diff left stands | growPauseEnd diff stands | create left stands | createEnd stands
  | increment left stands | shrinkStart new stands | deleteEnd stands =>
      rw [stands] at towards
      refine ⟨?_, rfl⟩
      simp only [Controller.Towards, Effect.change] at towards ⊢
      omega
  | delete left stands =>
      rw [stands] at towards
      cases towards.1
  | addTask job priority stands | pauseSet stands | pauseTask i stands | pauseEnd i stands | resumeClear stands
  | resumeNotify stands =>
      rw [stands] at towards
      exact ⟨(add_zero pool.mNumOfThreads).symm ▸ towards, rfl⟩
  | stopLock stands | stopBroadcast stands | stopTask i stands | stopTasksEnd i stands | stopDone stands
  | stopWait stands | stopRetest stands | stopGiveUp stands | stopLeave timedOut stands | decrement left stands =>
      rw [stands] at towards
      cases towards

/-- The loop of `Stop` goes on until no live worker is without a `DeleteTask`. -/
theorem Plans.ending (plans : Plans pool effect after) (ending : pool.controller.Ending live outstanding)
    (count : pool.mNumOfThreads + pool.controller.uncounted = live) :
    after.Ending live (outstanding + effect.ordered) ∧ effect.change = 0 ∧ effect.created = 0 := by
  cases plans with
  | stopTask i stands more =>
      rw [stands] at ending
      exact ⟨Nat.succ_le_succ ending, rfl, rfl⟩
  | stopTasksEnd i stands done =>
      rw [stands] at ending count
      simp only [Controller.Ending, Controller.uncounted, Effect.ordered] at ending count ⊢
      exact ⟨by omega, rfl, rfl⟩
  | stopBroadcast stands => exact ⟨Nat.zero_le _, rfl, rfl⟩
  | stopLock stands => exact ⟨trivial, rfl, rfl⟩
  | addTask job priority stands | pauseSet stands | pauseTask i stands | pauseEnd i stands | resumeClear stands
  | resumeNotify stands | stopDone stands | stopWait stands | stopRetest stands | stopGiveUp stands
  | stopLeave timedOut stands =>
      rw [stands] at ending
      exact ⟨ending, rfl, rfl⟩
  | grow new stands | shrink new stands | growPaused new stands | growUnpaused new stands
  | growPauseTask diff left stands | growPauseEnd diff stands | create left stands | createEnd stands
  | increment left stands | shrinkStart new stands | delete left stands | deleteEnd stands
  | decrement left stands =>
      rw [stands] at ending
      cases ending

/-- The count follows the created threads, except in a shrinking resize. -/
theorem Plans.counting (plans : Plans pool effect after)
    (grows : ∀ left, pool.controller ≠ .resizeDecrement left) :
    effect.change + after.uncounted = pool.controller.uncounted + effect.created := by
  cases plans with
  | decrement left stands => exact absurd stands (grows left)
  | _ => simp [*, Effect.change, Effect.created, Controller.uncounted]

/-- `Pause` and `Stop` issue one task in each round of their loops. -/
theorem Plans.issuing (plans : Plans pool effect after)
    (issuing : pool.controller.Issuing staff issued pool.outstanding pool.mNumOfThreads) :
    after.Issuing staff (issued + effect.issues) (pool.outstanding + effect.ordered)
      (pool.mNumOfThreads + effect.change) := by
  cases plans with
  | pauseTask i stands more | stopTask i stands more | pauseEnd i stands done | stopTasksEnd i stands done =>
      rw [stands] at issuing
      simp only [Controller.Issuing, Effect.issues, Effect.ordered, Effect.change, Task.isDelete, Bool.toNat_false]
        at issuing ⊢
      omega
  | pauseSet stands | stopLock stands | stopBroadcast stands =>
      rw [stands] at issuing
      simp only [Controller.Issuing, Effect.issues, Effect.ordered, Effect.change] at issuing ⊢
      omega
  | addTask job priority stands | resumeClear stands | resumeNotify stands | stopDone stands | stopWait stands
  | stopRetest stands | stopGiveUp stands | stopLeave timedOut stands =>
      rw [stands] at issuing
      exact issuing
  | grow new stands | shrink new stands | growPaused new stands | growUnpaused new stands
  | growPauseTask diff left stands | growPauseEnd diff stands | create left stands | createEnd stands
  | increment left stands | shrinkStart new stands | delete left stands | deleteEnd stands
  | decrement left stands =>
      rw [stands] at issuing
      cases issuing

/-- A completed `DeleteTask` lowers both sides, and none is completed while `Stop` enqueues. -/
theorem Controller.Ending.lowered {controller : Controller Job} (ending : controller.Ending live outstanding)
    {fewer rest size : Nat} (lives : fewer + size = live) (remains : rest + size = outstanding)
    (held : controller.holds → size = 0) : controller.Ending fewer rest := by
  cases controller with
  | stopLoop i =>
      have none := held rfl
      simp only [Controller.Ending] at ending ⊢
      omega
  | stopLock | stopBroadcast => trivial
  | resizeTest | resizeGrow | resizePause | resizeCreate | resizeIncrement | resizeShrink | resizeDelete
  | resizeDecrement => cases ending
  | idle | addTask | pauseSet | pauseLoop | resumeClear | resumeNotify | stopTest | stopWaiting | stopWoken
  | stopLeave =>
      simp only [Controller.Ending] at ending ⊢
      omega

theorem Controller.Issuing.lowered {controller : Controller Job} {count fewer : Int}
    (issuing : controller.Issuing staff issued outstanding count) {rest size : Nat}
    (lowers : fewer + size = count) (remains : rest + size = outstanding) (held : controller.holds → size = 0) :
    controller.Issuing staff issued rest fewer := by
  cases controller with
  | stopLoop i | stopBroadcast =>
      have none := held rfl
      simp only [Controller.Issuing] at issuing ⊢
      omega
  | stopLock | pauseSet | pauseLoop i =>
      simp only [Controller.Issuing] at issuing ⊢
      omega
  | resizeTest | resizeGrow | resizePause | resizeCreate | resizeIncrement | resizeShrink | resizeDelete
  | resizeDecrement => cases issuing
  | idle | addTask | resumeClear | resumeNotify | stopTest | stopWaiting | stopWoken | stopLeave => exact issuing

namespace Pool

theorem Tallied.control (tallied : pool.Tallied numOfThreads) (plans : Plans pool effect after)
    (performed : pool.perform effect = some base) : Tallied numOfThreads { base with controller := after } := by
  have counts := performed_of_perform performed
  have count := tallied.count
  have grows : ∀ left, pool.controller ≠ .resizeDecrement left := by
    intro left stands
    cases aim : goal numOfThreads pool.calls with
    | none =>
        have ending := tallied.ending aim
        rw [stands] at ending
        cases ending
    | some number =>
        have towards := (tallied.towards number aim).2
        rw [stands] at towards
        cases towards
  constructor
  · have counting := plans.counting grows
    change base.mNumOfThreads + after.uncounted = base.live
    rw [counts.number, counts.live, Nat.cast_add, ← count]
    omega
  · intro number aim
    change goal numOfThreads base.calls = some number at aim
    rw [counts.calls] at aim
    obtain ⟨none, towards⟩ := tallied.towards number aim
    obtain ⟨continues, orders⟩ := plans.towards towards
    change base.outstanding = 0 ∧ after.Towards number base.mNumOfThreads
    rw [counts.outstanding, counts.number, none, orders]
    exact ⟨rfl, continues⟩
  · intro aim
    change goal numOfThreads base.calls = none at aim
    rw [counts.calls] at aim
    obtain ⟨continues, _, created⟩ := plans.ending (tallied.ending aim) count
    change after.Ending base.live base.outstanding
    rw [counts.outstanding, counts.live, created, add_zero]
    exact continues

theorem Tallied.works (tallied : pool.Tallied numOfThreads) (sound : pool.Sound)
    (present : pool.workers[id]? = some worker) (works : Works pool id worker next) :
    next.Tallied numOfThreads := by
  obtain ⟨ids, worked⟩ := sound.registered.worked present works
  have lives := worked.live
  have remains := worked.outstanding
  constructor
  · have count := tallied.count
    have lowers := worked.number
    have same : next.controller.uncounted = pool.controller.uncounted := by
      rcases worked.controller with same | ⟨before, after⟩
      · rw [same]
      · rw [before, after]
        rfl
    rw [same]
    omega
  · intro number aim
    rw [worked.calls] at aim
    obtain ⟨none, towards⟩ := tallied.towards number aim
    have nobody : ids.length = 0 := by omega
    have number := worked.number
    rw [nobody, Nat.cast_zero, add_zero] at number
    rcases worked.controller with same | ⟨before, _⟩
    · rw [same, number]
      exact ⟨by omega, towards⟩
    · rw [before] at towards
      cases towards
  · intro aim
    rw [worked.calls] at aim
    have lowered := (tallied.ending aim).lowered lives remains (worked.length_of_holds sound.guarded)
    rcases worked.controller with same | ⟨before, after⟩
    · rw [same]
      exact lowered
    · rw [before] at lowered
      rw [after]
      exact lowered

theorem Tallied.step (tallied : pool.Tallied numOfThreads) (sound : pool.Sound) {action : Action Job}
    (condition : pool.GrowsQuietly action) (moves : PoolMoves pool action next) : next.Tallied numOfThreads := by
  cases moves with
  | call operation stands =>
      obtain ⟨count, towards, ending⟩ := tallied
      rw [stands] at count towards ending
      cases operation with
      | setThreadNumber new =>
          refine ⟨count, ?_, by simp [goal]⟩
          intro number aim
          obtain rfl : new = number := Option.some.inj aim
          exact ⟨condition.1, rfl, condition.2⟩
      | stop => exact ⟨count, by simp [goal], fun _ => trivial⟩
      | addTask | pause | resume => exact ⟨count, towards, ending⟩
  | control effect after base plans performed => exact tallied.control plans performed
  | stopTimeOut stands =>
      obtain ⟨count, towards, ending⟩ := tallied
      cases stands with
      | inl stands | inr stands =>
          rw [stands] at count towards ending
          exact ⟨count, towards, ending⟩
  | stopSpurious stands =>
      obtain ⟨count, towards, ending⟩ := tallied
      rw [stands] at count towards ending
      exact ⟨count, towards, ending⟩
  | work id place worker next present works | spurious id worker next present works =>
      exact tallied.works sound present works

theorem tallied_initial (numOfThreads : Nat) : (initial numOfThreads : Pool Job).Tallied numOfThreads := by
  constructor
  · simp [initial, live, List.countP_replicate, Worker.new, Controller.uncounted]
  · intro number aim
    obtain rfl : (numOfThreads : Int) = number := Option.some.inj aim
    simp [initial, outstanding, List.countP_replicate, Worker.deletes, Worker.new, Controller.Towards]
  · intro aim
    cases aim

end Pool

variable {audit after : Audit Job} {action : Action Job}

/-- The observer sees each step of the pool. -/
theorem poolStep_of_auditStep (stepped : auditStep audit action = some after) :
    poolStep audit.pool action = some after.pool := by
  obtain ⟨next, moved, rfl⟩ := Option.map_eq_some_iff.mp stepped
  rw [moved]
  cases action <;> rfl

namespace Audit

/-- A step other than a call or a step of the controlling thread leaves the notes of the observer. -/
theorem Tracked.observed (tracked : audit.Tracked) (calls : next.calls = audit.pool.calls)
    (issuing : audit.pool.controller.Issuing audit.staff audit.issued audit.pool.outstanding audit.pool.mNumOfThreads →
      next.controller.Issuing audit.staff audit.issued next.outstanding next.mNumOfThreads) :
    Tracked ⟨next, audit.quietly, audit.staff, audit.issued⟩ := by
  intro enlists quietly
  change next.enlists = true at enlists
  rw [Pool.enlists, calls] at enlists
  exact issuing (tracked enlists quietly)

theorem Tracked.call (tallied : audit.pool.Tallied numOfThreads) {operation : Operation Job}
    (stands : audit.pool.controller = .idle) :
    Tracked ⟨{ audit.pool with controller := operation.begin, calls := operation :: audit.pool.calls },
      audit.pool.outstanding = 0, audit.pool.live, 0⟩ := by
  intro enlists quietly
  have none : audit.pool.outstanding = 0 := of_decide_eq_true quietly
  have count := tallied.count
  rw [stands] at count
  have right : audit.pool.mNumOfThreads = audit.pool.live := by
    rw [← count]
    simp [Controller.uncounted]
  cases operation with
  | pause | stop => exact ⟨right, none, rfl⟩
  | addTask | setThreadNumber | resume => cases enlists

theorem Tracked.works (tracked : audit.Tracked) (sound : audit.pool.Sound)
    (present : audit.pool.workers[id]? = some worker) (works : Works audit.pool id worker next) :
    Tracked ⟨next, audit.quietly, audit.staff, audit.issued⟩ := by
  obtain ⟨ids, worked⟩ := sound.registered.worked present works
  apply tracked.observed worked.calls
  intro issuing
  have lowered := issuing.lowered worked.number worked.outstanding (worked.length_of_holds sound.guarded)
  rcases worked.controller with same | ⟨before, woken⟩
  · rw [same]
    exact lowered
  · rw [before] at lowered
    rw [woken]
    exact lowered

theorem Tracked.step (tracked : audit.Tracked) (tallied : audit.pool.Tallied numOfThreads) (sound : audit.pool.Sound)
    (stepped : auditStep audit action = some after) : after.Tracked := by
  obtain ⟨next, moved, rfl⟩ := Option.map_eq_some_iff.mp stepped
  cases poolMoves_of_poolStep moved with
  | call operation stands => exact Tracked.call tallied stands
  | control effect last base plans performed =>
      have counts := Pool.performed_of_perform performed
      intro enlists quietly
      change Pool.enlists { base with controller := last } = true at enlists
      rw [Pool.enlists, counts.calls] at enlists
      have issuing := plans.issuing (tracked enlists quietly)
      change last.Issuing audit.staff _ base.outstanding base.mNumOfThreads
      rw [plan_of_plans plans, counts.outstanding, counts.number]
      exact issuing
  | stopTimeOut stands =>
      apply tracked.observed
      · rfl
      · intro issuing
        cases stands with
        | inl stands | inr stands =>
            rw [stands] at issuing
            exact issuing
  | stopSpurious stands =>
      apply tracked.observed
      · rfl
      · intro issuing
        rw [stands] at issuing
        exact issuing
  | work id place worker next present works | spurious id worker next present works =>
      exact tracked.works sound present works

/-- These facts hold in each run that grows its pool quietly. -/
structure Sound (numOfThreads : Nat) (audit : Audit Job) : Prop where
  pool : audit.pool.Sound
  tallied : audit.pool.Tallied numOfThreads
  tracked : audit.Tracked

theorem Sound.step (sound : audit.Sound numOfThreads) (condition : audit.pool.GrowsQuietly action)
    (stepped : auditStep audit action = some after) : after.Sound numOfThreads where
  pool := sound.pool.step (poolMoves_of_poolStep (poolStep_of_auditStep stepped))
  tallied := sound.tallied.step sound.pool condition (poolMoves_of_poolStep (poolStep_of_auditStep stepped))
  tracked := sound.tracked.step sound.tallied sound.pool stepped

theorem sound_initial (numOfThreads : Nat) : (initial numOfThreads : Audit Job).Sound numOfThreads where
  pool := Pool.sound_initial numOfThreads
  tallied := Pool.tallied_initial numOfThreads
  tracked := by
    intro enlists
    cases enlists

theorem Sound.truthful (sound : audit.Sound numOfThreads) : audit.Truthful numOfThreads := by
  have live : audit.pool.Quiet → audit.pool.mNumOfThreads = audit.pool.live := by
    intro quiet
    have count := sound.tallied.count
    rw [quiet.1] at count
    rw [← count]
    simp [Controller.uncounted]
  constructor
  · exact live
  · intro quiet
    rw [live quiet]
    exact Int.natCast_nonneg _
  · intro quiet
    cases aim : goal numOfThreads audit.pool.calls with
    | some number =>
        have towards := (sound.tallied.towards number aim).2
        rw [quiet.1] at towards
        exact towards
    | none =>
        have ending := sound.tallied.ending aim
        rw [quiet.1, quiet.2] at ending
        rw [live quiet, Nat.le_zero.mp ending]
        rfl
  · intro stands enlists quietly
    have issuing := sound.tracked enlists quietly
    rw [stands] at issuing
    exact issuing

end Audit

/-- The count is the truth in each run that grows its pool quietly. -/
theorem truthful_of_growsQuietly {actions : List (Action Job)} {final : Audit Job}
    (quietly : Meets auditStep (fun (audit : Audit Job) action => audit.pool.GrowsQuietly action)
      (.initial numOfThreads) actions)
    (reached : run auditStep (.initial numOfThreads) actions = some final) : final.Truthful numOfThreads := by
  have sound : final.Sound numOfThreads := run_invariant_of_meets (Audit.Sound numOfThreads)
    (fun _ _ _ before condition stepped => before.step condition stepped)
    (Audit.sound_initial numOfThreads) quietly reached
  exact sound.truthful

end

instance decidableGrowsQuietly {Job : Type*} (pool : Pool Job) : (action : Action Job) →
    Decidable (pool.GrowsQuietly action)
  | .call (.setThreadNumber newNumOfThreads) =>
      inferInstanceAs (Decidable (pool.outstanding = 0 ∧ pool.mNumOfThreads ≤ newNumOfThreads))
  | .call (.addTask _ _) | .call .pause | .call .resume | .call .stop => isTrue trivial
  | .control | .stopTimeOut | .work _ _ | .stopSpurious | .spurious _ => isTrue trivial

/-- A pool of one thread grows to two, and it is paused. -/
def growAndPause : List (Action Nat) :=
  [.call (.setThreadNumber 2), .control, .control, .control, .control, .control, .work 0 0, .work 1 0,
    .call .pause, .control, .control, .control, .control]

/-- The count is two after this run, and two tasks were enqueued. -/
theorem growAndPause_truthful : ∃ final, run auditStep (.initial 1) growAndPause = some final ∧ final.pool.Quiet ∧
    final.pool.live = 2 ∧ final.issued = 2 ∧ final.Truthful 1 := by
  obtain ⟨final, reached, quiet, live, issued⟩ :
      ∃ final, run auditStep (.initial 1) growAndPause = some final ∧
        (final.pool.controller = .idle ∧ final.pool.outstanding = 0) ∧ final.pool.live = 2 ∧ final.issued = 2 := by
    decide
  exact ⟨final, reached, quiet, live, issued, truthful_of_growsQuietly (by decide) reached⟩

/-- A pool of two threads shrinks to one, and one worker executes the `DeleteTask`. -/
def shrinkByOne : List (Action Nat) :=
  [.work 0 0, .work 1 0, .call (.setThreadNumber 1), .control, .control, .control, .control, .control,
    .work 0 0, .work 0 0, .work 0 0]

/-- The deletion is counted twice: a worker is alive, and the count is zero. -/
theorem shrinkByOne_miscounts : ∃ final, run auditStep (.initial 2) shrinkByOne = some final ∧ final.pool.Quiet ∧
    final.pool.mNumOfThreads = 0 ∧ final.pool.live = 1 ∧ goal 2 final.pool.calls = some 1 ∧
      ¬ final.Truthful 2 := by
  obtain ⟨final, reached, quiet, number, live, aim⟩ :
      ∃ final, run auditStep (.initial 2) shrinkByOne = some final ∧
        (final.pool.controller = .idle ∧ final.pool.outstanding = 0) ∧ final.pool.mNumOfThreads = 0 ∧
          final.pool.live = 1 ∧ goal 2 final.pool.calls = some 1 := by
    decide
  refine ⟨final, reached, quiet, number, live, aim, ?_⟩
  intro truthful
  have same := truthful.live quiet
  rw [number, live] at same
  cases same

end DistributedNas.ThreadPool
