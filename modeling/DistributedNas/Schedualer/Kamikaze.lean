import DistributedNas.Schedualer.Lifetimes

/-
This file follows the scheduler with objects that delete themselves in their handler, as `Kamikaze::OnEvent` does.
-/

namespace DistributedNas.Timing
open Library Observer

section
variable {Callback : Type*}

namespace Station
variable (station : Station Callback)

/-- `Kamikaze::OnEvent` ends with `delete this`, so `Update` returns after its callback is destroyed. -/
def DeletesItself : StationAction Callback → Prop
  | .resume =>
      match station.stage with
      | .updating _ _ callback => (station.links.mDispatcher callback).isNone
      | .between | .stopping .. | .arming | .undefined => True
  | .construct _ | .destroy _ | .add .. | .expire _ | .start _ | .finish .. => True

instance (action : StationAction Callback) : Decidable (station.DeletesItself action) :=
  match action with
  | .resume =>
      match same : station.stage with
      | .updating _ _ callback =>
          decidable_of_iff ((station.links.mDispatcher callback).isNone) (by simp [DeletesItself, same])
      | .between | .stopping .. | .arming | .undefined => isTrue (by simp [DeletesItself, same])
  | .construct _ | .destroy _ | .add .. | .expire _ | .start _ | .finish .. => isTrue trivial

/-- No handler was called, or one `Update` was called and `Cycle` is still inside it or is undefined since. -/
def OneCall : Prop :=
  station.links.deliveries = [] ∧ station.stage.place = none ∨
    ∃ dispatcher callback, station.links.deliveries = [.update dispatcher callback 0] ∧
      (station.stage = .undefined ∨ ∃ node, station.stage = .updating dispatcher node callback ∧
        station.added[dispatcher]? = some callback)

variable {station} {next : Station Callback}

/-- Undefined behaviour calls no further handler. -/
theorem OneCall.fail (once : station.OneCall) : station.fail.OneCall := by
  rcases once with ⟨quiet, -⟩ | ⟨dispatcher, callback, called, -⟩
  · exact Or.inl ⟨quiet, rfl⟩
  · exact Or.inr ⟨dispatcher, callback, called, Or.inl rfl⟩

/-- A step with the same calls and the same stage keeps the count. -/
theorem OneCall.of_same (once : station.OneCall) (calls : next.links.deliveries = station.links.deliveries)
    (stage : next.stage = station.stage)
    (added : ∀ (dispatcher : Nat) (callback : Callback), station.added[dispatcher]? = some callback →
      next.added[dispatcher]? = some callback) : next.OneCall := by
  unfold OneCall
  rw [calls, stage]
  rcases once with quiet | ⟨dispatcher, callback, called, undefined | ⟨node, inside, known⟩⟩
  · exact Or.inl quiet
  · exact Or.inr ⟨dispatcher, callback, called, Or.inl undefined⟩
  · exact Or.inr ⟨dispatcher, callback, called, Or.inr ⟨node, inside, added dispatcher callback known⟩⟩

/-- No call was made while no handler runs and nothing undefined has happened. -/
theorem OneCall.quiet (once : station.OneCall) (outside : station.stage.place = none)
    (defined : station.stage ≠ .undefined) : station.links.deliveries = [] := by
  rcases once with ⟨quiet, -⟩ | ⟨dispatcher, callback, called, undefined | ⟨node, inside, known⟩⟩
  · exact quiet
  · exact absurd undefined defined
  · rw [inside] at outside
    cases outside

/-- The first `Update` enters its handler, unless its callback does not exist. -/
theorem Owned.notify_first (owned : station.Owned) (quiet : station.links.deliveries = [])
    {dispatcher : Nat} {list : NodeList Callback} (listed : station.links.mSubscribers dispatcher = some list) :
    (station.notify dispatcher list.first).Owned ∧ (station.notify dispatcher list.first).OneCall := by
  rcases owned.nodes_cases listed with empty | ⟨node, callback, held, known⟩
  · rw [notify_of_empty listed empty]
    refine ⟨owned.drop rfl, Or.inl ⟨quiet, rfl⟩⟩
  · rw [(single_spec held).1, notify, call, Links.subscribers_of_listed listed]
    simp only [(single_spec held).2.1]
    split
    · exact ⟨⟨owned.short, owned.fresh⟩, Or.inl ⟨quiet, rfl⟩⟩
    · refine ⟨⟨owned.short, owned.fresh⟩, Or.inr ⟨dispatcher, callback, ?_, Or.inr ⟨node, rfl, known⟩⟩⟩
      rw [Links.record, quiet]
      rfl

/-- The loop does not survive the destruction of the callback that it has called. -/
theorem Owned.updated_fails (owned : station.Owned) {dispatcher : Nat} {node : Node} {callback : Callback}
    (known : station.added[dispatcher]? = some callback) (gone : station.links.mDispatcher callback = none) :
    station.updated dispatcher node = station.fail := by
  unfold updated
  cases listed : station.links.mSubscribers dispatcher with
  | none =>
      have empty : station.links.subscribers dispatcher = .empty := by
        rw [Links.subscribers, listed, Option.getD_none]
      rw [empty]
      rfl
  | some list =>
      rw [Links.subscribers_of_listed listed]
      rcases owned.nodes_cases listed with empty | ⟨other, owner, held, owns⟩
      · have erased : list.next node = none := by
          rw [NodeList.next, empty]
          rfl
        simp only [erased]
      · obtain rfl := Option.some.inj (known.symm.trans owns)
        obtain ⟨first, found, ended⟩ := single_spec held
        by_cases same : other = node
        · subst same
          -- The list still holds the destroyed callback, which `~Dispatcher` calls next.
          simp only [ended, notify, Links.subscribers_of_listed listed, first, stop, call, found, gone]
        · have erased : list.next node = none := by
            rw [NodeList.next, held]
            apply following_eq_none
            simpa using Ne.symm same
          simp only [erased]

variable [DecidableEq Callback]

/-- Each step keeps the count when a called callback is destroyed before its handler returns. -/
theorem OneCall.step (once : station.OneCall) (owned : station.Owned) {action : StationAction Callback}
    (deletes : station.DeletesItself action) (stepped : stationStep station action = some next) :
    next.Owned ∧ next.OneCall := by
  cases action with
  | construct callback =>
      simp only [stationStep] at stepped
      split at stepped
      · obtain rfl := Option.some.inj stepped
        exact ⟨⟨owned.short, owned.fresh⟩, once.of_same rfl rfl (fun _ _ known => known)⟩
      · cases stepped
  | destroy callback =>
      simp only [stationStep] at stepped
      split at stepped
      · split at stepped
        · obtain rfl := Option.some.inj stepped
          exact ⟨⟨owned.short, owned.fresh⟩, once.fail⟩
        · next links gone =>
            obtain rfl := Option.some.inj stepped
            refine ⟨owned.destroy gone, once.of_same ?_ rfl (fun _ _ known => known)⟩
            exact (Links.destroyCallback_eq_some gone).2.1
      · cases stepped
  | add cb milli clock =>
      simp only [stationStep] at stepped
      split at stepped
      · obtain ⟨links, attached, rfl⟩ := Option.map_eq_some_iff.mp stepped
        refine ⟨owned.add cb milli clock attached, once.of_same ?_ rfl ?_⟩
        · exact (attach_newDispatcher attached).2.2.2
        · intro dispatcher callback known
          rw [List.getElem?_append_left (List.getElem?_eq_some_iff.mp known).1]
          exact known
      · cases stepped
  | expire now =>
      simp only [stationStep] at stepped
      split at stepped
      · obtain rfl := Option.some.inj stepped
        exact ⟨⟨owned.short, owned.fresh⟩, once.of_same rfl rfl (fun _ _ known => known)⟩
      · cases stepped
  | start place =>
      simp only [stationStep] at stepped
      split at stepped
      · next enabled =>
          have outside : station.stage.place = none := by
            rw [enabled.1]
            rfl
          have quiet := once.quiet outside (fun same => by cases enabled.1.symm.trans same)
          split at stepped
          · obtain rfl := Option.some.inj stepped
            exact ⟨⟨owned.short, owned.fresh⟩, Or.inl ⟨quiet, rfl⟩⟩
          · obtain ⟨popped, taken, rfl⟩ := Option.map_eq_some_iff.mp stepped
            split
            · exact ⟨⟨owned.short, owned.fresh⟩, Or.inl ⟨quiet, rfl⟩⟩
            · next list listed =>
                let begun : Station Callback :=
                  { station with schedualer := popped.2, pending := station.pending - 1 }
                have same : begun.Owned := ⟨owned.short, owned.fresh⟩
                exact same.notify_first quiet listed
      · cases stepped
  | resume =>
      simp only [stationStep] at stepped
      split at stepped
      · next dispatcher node callback inside =>
          obtain rfl := Option.some.inj stepped
          rcases once with ⟨-, outside⟩ | ⟨other, owner, called, undefined | ⟨spot, entered, known⟩⟩
          · rw [inside] at outside
            cases outside
          · cases inside.symm.trans undefined
          · obtain ⟨rfl, rfl, rfl⟩ := Stage.updating.inj (inside.symm.trans entered)
            simp only [DeletesItself, inside, Option.isNone_iff_eq_none] at deletes
            rw [owned.updated_fails known deletes]
            exact ⟨⟨owned.short, owned.fresh⟩, Or.inr ⟨dispatcher, callback, called, Or.inl rfl⟩⟩
      · next dispatcher node callback inside =>
          exfalso
          rcases once with ⟨-, outside⟩ | ⟨other, owner, called, undefined | ⟨spot, entered, known⟩⟩
          · rw [inside] at outside
            cases outside
          · cases inside.symm.trans undefined
          · cases inside.symm.trans entered
      all_goals cases stepped
  | finish place now armed expired =>
      simp only [stationStep] at stepped
      split at stepped
      · next enabled =>
          have outside : station.stage.place = none := by
            rw [enabled.1]
            rfl
          have quiet := once.quiet outside (fun same => by cases enabled.1.symm.trans same)
          split at stepped
          · obtain rfl := Option.some.inj stepped
            exact ⟨⟨owned.short, owned.fresh⟩, Or.inl ⟨quiet, rfl⟩⟩
          · obtain ⟨schedualer, rearmed, rfl⟩ := Option.map_eq_some_iff.mp stepped
            exact ⟨⟨owned.short, owned.fresh⟩, Or.inl ⟨quiet, rfl⟩⟩
      · cases stepped

/-- In each run of objects that delete themselves at most one handler is called, and its `Cycle` never gets past it. -/
theorem oneCall_of_deletesItself {now : Int} {actions : List (StationAction Callback)} {final : Station Callback}
    (deletes : Meets stationStep DeletesItself (initial now) actions)
    (reached : run stationStep (initial now) actions = some final) : final.OneCall := by
  have start : (initial now : Station Callback).Owned ∧ (initial now : Station Callback).OneCall := by
    refine ⟨⟨?_, fun dispatcher beyond => rfl⟩, Or.inl ⟨rfl, rfl⟩⟩
    intro dispatcher list listed
    cases listed
  have ends := run_invariant_of_meets (fun station : Station Callback => station.Owned ∧ station.OneCall)
    (fun station action next holds condition stepped => holds.2.step holds.1 condition stepped) start deletes reached
  exact ends.2

end Station

end

/-- Two objects are added, and the handler of the first one adds a third and deletes itself. -/
def selfDeletion : List (StationAction Nat) :=
  [.construct 0, .construct 1, .add 0 1 (.at 0), .add 1 2 (.at 0), .expire 1000000, .start 1, .construct 2,
    .add 2 0 (.at 1000000), .expire 1000001, .destroy 0, .resume]

/-- One handler of this run is called once, and its return is undefined while an expiry waits. -/
theorem selfDeletion_oneCall : ∃ final, run stationStep (.initial 0) selfDeletion = some final ∧
    final.stage = .undefined ∧ final.pending = 1 ∧ final.OneCall := by
  obtain ⟨final, reached, stage, waiting⟩ : ∃ final, run stationStep (.initial 0) selfDeletion = some final ∧
      final.stage = .undefined ∧ final.pending = 1 := by decide
  have deletes : Meets stationStep Station.DeletesItself (.initial 0) selfDeletion := by decide
  exact ⟨final, reached, stage, waiting, Station.oneCall_of_deletesItself deletes reached⟩

end DistributedNas.Timing
