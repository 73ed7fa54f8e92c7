import DistributedNas.Schedualer.Dangling

/-
This file counts the handler calls of each job of the scheduler and relates the jobs to their dispatchers.
-/

namespace DistributedNas.Timing
open Library Observer

section
variable {Callback : Type*}

/-- This is the dispatcher that makes a call. -/
def caller : Delivery Nat Callback Int → Nat
  | .update dispatcher _ _ | .stopObserving dispatcher _ => dispatcher

/-- A whole job calls `Update` and then `StopObserving` of its callback. -/
def bothCalls (dispatcher : Nat) (callback : Callback) : List (Delivery Nat Callback Int) :=
  [.update dispatcher callback 0, .stopObserving dispatcher callback]

namespace Station
variable (station : Station Callback)

/-- These are the calls that one dispatcher has made, in their order. -/
def calls (dispatcher : Nat) : List (Delivery Nat Callback Int) :=
  station.links.deliveries.filter fun delivery => caller delivery = dispatcher

/-- A job has made no call while it waits, and both calls at its end unless its callback was destroyed before. -/
structure Accounted : Prop where
  waiting : ∀ dispatcher ∈ station.schedualer.mPq.map Prod.fst, station.calls dispatcher = []
  updating : ∀ dispatcher node callback, station.stage = .updating dispatcher node callback →
    station.added[dispatcher]? = some callback ∧ station.calls dispatcher = [.update dispatcher callback 0]
  stopping : ∀ dispatcher node callback, station.stage = .stopping dispatcher node callback →
    station.added[dispatcher]? = some callback ∧ station.calls dispatcher = bothCalls dispatcher callback
  ended : ∀ dispatcher callback, station.added[dispatcher]? = some callback → dispatcher ∉ station.jobs →
    station.calls dispatcher = bothCalls dispatcher callback ∨
      station.calls dispatcher = [] ∧ callback ∈ station.destroyed
  emptied : ∀ dispatcher list callback, station.links.mSubscribers dispatcher = some list → list.items = [] →
    station.added[dispatcher]? = some callback → callback ∈ station.destroyed
  unmade : ∀ dispatcher, station.added.length ≤ dispatcher → station.calls dispatcher = []

variable {station} {next : Station Callback}

/-- A recorded call counts for its own dispatcher only. -/
theorem filter_record {links : Links Nat Callback Int} (delivery : Delivery Nat Callback Int) (dispatcher : Nat) :
    (links.record delivery).deliveries.filter (fun other => caller other = dispatcher) =
      links.deliveries.filter (fun other => caller other = dispatcher) ++
        if caller delivery = dispatcher then [delivery] else [] := by
  rw [Links.record, List.filter_append]
  by_cases same : caller delivery = dispatcher
  · simp [same]
  · simp [same]

/-- A step that makes no call and ends no job keeps the account. -/
theorem Accounted.of_same (accounted : station.Accounted)
    (calls : next.links.deliveries = station.links.deliveries) (added : next.added = station.added)
    (queue : next.schedualer.mPq = station.schedualer.mPq) (stage : next.stage = station.stage)
    (destroyed : ∀ callback ∈ station.destroyed, callback ∈ next.destroyed)
    (emptied : ∀ dispatcher list callback, next.links.mSubscribers dispatcher = some list → list.items = [] →
      next.added[dispatcher]? = some callback → callback ∈ next.destroyed) : next.Accounted := by
  have heard : ∀ dispatcher, next.calls dispatcher = station.calls dispatcher := by
    intro dispatcher
    rw [Station.calls, Station.calls, calls]
  have jobs : next.jobs = station.jobs := by rw [Station.jobs, Station.jobs, queue, stage]
  constructor
  · intro dispatcher member
    rw [queue] at member
    rw [heard]
    exact accounted.waiting dispatcher member
  · intro dispatcher node callback inside
    rw [stage] at inside
    rw [heard, added]
    exact accounted.updating dispatcher node callback inside
  · intro dispatcher node callback inside
    rw [stage] at inside
    rw [heard, added]
    exact accounted.stopping dispatcher node callback inside
  · intro dispatcher callback known apart
    rw [added] at known
    rw [jobs] at apart
    rw [heard]
    rcases accounted.ended dispatcher callback known apart with both | ⟨none, gone⟩
    · exact Or.inl both
    · exact Or.inr ⟨none, destroyed callback gone⟩
  · exact emptied
  · intro dispatcher beyond
    rw [added] at beyond
    rw [heard]
    exact accounted.unmade dispatcher beyond

/-- The `delete` of a dispatcher ends a job that has made both calls or lost its callback before. -/
theorem Accounted.drop (accounted : station.Accounted) {dispatcher : Nat} {links : Links Nat Callback Int}
    (deliveries : links.deliveries = station.links.deliveries)
    (lists : links.mSubscribers = station.links.mSubscribers) {schedualer : Schedualer Nat} {pending : Nat}
    (jobs : station.jobs.Perm (dispatcher :: schedualer.mPq.map Prod.fst))
    (waiting : ∀ other ∈ schedualer.mPq.map Prod.fst, station.calls other = [])
    (ends : ∀ callback, station.added[dispatcher]? = some callback →
      station.calls dispatcher = bothCalls dispatcher callback ∨
        station.calls dispatcher = [] ∧ callback ∈ station.destroyed) :
    Accounted { station with
      schedualer := schedualer
      pending := pending
      links := links.dropDispatcher dispatcher
      stage := .arming } := by
  have heard : ∀ other, Station.calls { station with
      schedualer := schedualer
      pending := pending
      links := links.dropDispatcher dispatcher
      stage := .arming } other = station.calls other := by
    intro other
    rw [calls, calls, ← deliveries]
    rfl
  refine ⟨?_, fun _ _ _ inside => (by cases inside), fun _ _ _ inside => (by cases inside), ?_, ?_, ?_⟩
  · intro other member
    rw [heard]
    exact waiting other member
  · intro other callback known apart
    rw [heard]
    by_cases same : other = dispatcher
    · subst same
      exact ends callback known
    · apply accounted.ended other callback known
      rw [jobs.mem_iff, List.mem_cons, not_or]
      exact ⟨same, apart⟩
  · intro other list callback listed empty known
    by_cases same : other = dispatcher
    · subst same
      change Function.update links.mSubscribers other none other = some list at listed
      rw [Function.update_self] at listed
      cases listed
    · change Function.update links.mSubscribers dispatcher none other = some list at listed
      rw [Function.update_of_ne same, lists] at listed
      exact accounted.emptied other list callback listed empty known
  · intro other beyond
    rw [heard]
    exact accounted.unmade other beyond

/-- The queue from before holds the popped job and the rest. -/
theorem queued_of_popJob {place : Nat} {entry : Entry Nat} {rest : Schedualer Nat}
    (popped : station.schedualer.popJob place = some (entry, rest)) (dispatcher : Nat) :
    dispatcher ∈ station.schedualer.mPq.map Prod.fst ↔
      dispatcher ∈ entry.1 :: rest.mPq.map Prod.fst := by
  obtain ⟨-, perm, -⟩ := Schedualer.popJob_spec popped
  have queued := perm.map Prod.fst
  exact queued.mem_iff

theorem accounted_initial (now : Int) : (initial now : Station Callback).Accounted where
  waiting := fun dispatcher member => by cases member
  updating := fun dispatcher node callback inside => by cases inside
  stopping := fun dispatcher node callback inside => by cases inside
  ended := fun dispatcher callback known => by cases known
  emptied := fun dispatcher list callback listed => by cases listed
  unmade := fun dispatcher beyond => rfl

/-- A recorded call is the next one of the job that runs. -/
theorem Accounted.enter (accounted : station.Accounted) (kept : station.Kept)
    {delivery : Delivery Nat Callback Int} {stage : Stage Callback} {schedualer : Schedualer Nat}
    {pending dispatcher : Nat} {node : Node} {callback : Callback} (from_here : caller delivery = dispatcher)
    (jobs : station.jobs.Perm (dispatcher :: schedualer.mPq.map Prod.fst))
    (waiting : ∀ other ∈ schedualer.mPq.map Prod.fst, station.calls other = [])
    (known : station.added[dispatcher]? = some callback)
    (stages : stage = .updating dispatcher node callback ∧
        station.calls dispatcher ++ [delivery] = [.update dispatcher callback 0] ∨
      stage = .stopping dispatcher node callback ∧
        station.calls dispatcher ++ [delivery] = bothCalls dispatcher callback) :
    Accounted { station with
      schedualer := schedualer
      pending := pending
      links := station.links.record delivery
      stage := stage } := by
  have heard : ∀ other, Station.calls { station with
      schedualer := schedualer
      pending := pending
      links := station.links.record delivery
      stage := stage } other = station.calls other ++ if dispatcher = other then [delivery] else [] := by
    intro other
    rw [← from_here]
    exact filter_record delivery other
  have others : ∀ other, other ≠ dispatcher → Station.calls { station with
      schedualer := schedualer
      pending := pending
      links := station.links.record delivery
      stage := stage } other = station.calls other := by
    intro other different
    rw [heard, if_neg (Ne.symm different), List.append_nil]
  have unique := List.nodup_cons.mp (jobs.nodup_iff.mp kept.distinct)
  have standing : stage.place = some (dispatcher, node, callback) := by
    rcases stages with ⟨rfl, -⟩ | ⟨rfl, -⟩
    · rfl
    · rfl
  constructor
  · intro other member
    rw [others other (fun same => unique.1 (same ▸ member))]
    exact waiting other member
  · intro other spot held inside
    rcases stages with ⟨at_update, both⟩ | ⟨at_stop, -⟩
    · obtain ⟨rfl, rfl, rfl⟩ := Stage.updating.inj (at_update.symm.trans inside)
      refine ⟨known, ?_⟩
      rw [heard, if_pos rfl]
      exact both
    · cases at_stop.symm.trans inside
  · intro other spot held inside
    rcases stages with ⟨at_update, -⟩ | ⟨at_stop, both⟩
    · cases at_update.symm.trans inside
    · obtain ⟨rfl, rfl, rfl⟩ := Stage.stopping.inj (at_stop.symm.trans inside)
      refine ⟨known, ?_⟩
      rw [heard, if_pos rfl]
      exact both
  · intro other owner given apart
    have away : other ∉ dispatcher :: schedualer.mPq.map Prod.fst := by
      intro member
      apply apart
      rw [Station.jobs, standing]
      exact member
    rw [others other (fun same => away (same ▸ List.mem_cons_self))]
    exact accounted.ended other owner given (fun member => away (jobs.mem_iff.mp member))
  · exact accounted.emptied
  · intro other beyond
    have bound := kept.below dispatcher (jobs.mem_iff.mpr List.mem_cons_self)
    rw [others other (by
      rintro rfl
      exact absurd bound (not_lt.mpr beyond))]
    exact accounted.unmade other beyond

variable [DecidableEq Callback]

/-- A list loses its callback only by the destruction of this callback. -/
theorem Kept.emptied_destroy (kept : station.Kept) (accounted : station.Accounted) {callback : Callback}
    {links : Links Nat Callback Int} (gone : station.links.destroyCallback callback = some links)
    {dispatcher : Nat} {list : NodeList Callback} {owner : Callback}
    (listed : links.mSubscribers dispatcher = some list) (empty : list.items = [])
    (known : station.added[dispatcher]? = some owner) : owner ∈ callback :: station.destroyed := by
  obtain ⟨-, -, lists⟩ := Links.destroyCallback_eq_some gone
  rcases lists with ⟨-, same⟩ | ⟨home, items, left, pointer, found, erased, changed⟩
  · rw [same] at listed
    exact List.mem_cons_of_mem _ (accounted.emptied dispatcher list owner listed empty known)
  · by_cases same : dispatcher = home
    · subst same
      have member := kept.linked.entered callback dispatcher items pointer found
      have short := kept.owned.short dispatcher items found
      rw [known] at short
      have equal := List.mem_singleton.mp (short.subset member)
      rw [equal]
      exact List.mem_cons_self
    · rw [changed, Function.update_of_ne same] at listed
      exact List.mem_cons_of_mem _ (accounted.emptied dispatcher list owner listed empty known)

/-- A new job has made no call. -/
theorem Accounted.add (accounted : station.Accounted) (cb : Callback) (milli : Int)
    (clock : AddClock) {links : Links Nat Callback Int}
    (attached : (newDispatcher station.links station.added.length).attach station.added.length cb = some links) :
    Accounted { station with
      now := clock.armed
      schedualer := station.schedualer.add station.added.length milli clock
      pending := station.pending + clock.expired.toNat
      links := links
      added := station.added ++ [cb] } := by
  obtain ⟨exist, lists, pointers, deliveries⟩ := attach_newDispatcher attached
  have heard : ∀ dispatcher, Station.calls { station with
      now := clock.armed
      schedualer := station.schedualer.add station.added.length milli clock
      pending := station.pending + clock.expired.toNat
      links := links
      added := station.added ++ [cb] } dispatcher = station.calls dispatcher := by
    intro dispatcher
    rw [calls, calls, deliveries]
  have earlier : ∀ (dispatcher : Nat) (callback : Callback), (station.added ++ [cb])[dispatcher]? = some callback →
      dispatcher ≠ station.added.length → station.added[dispatcher]? = some callback := by
    intro dispatcher callback known different
    have bound := (List.getElem?_eq_some_iff.mp known).1
    rw [List.length_append, List.length_singleton] at bound
    rwa [List.getElem?_append_left (by omega)] at known
  have remains : ∀ (dispatcher : Nat) (callback : Callback), station.added[dispatcher]? = some callback →
      (station.added ++ [cb])[dispatcher]? = some callback := by
    intro dispatcher callback known
    rw [List.getElem?_append_left (List.getElem?_eq_some_iff.mp known).1]
    exact known
  constructor
  · intro dispatcher member
    rw [heard]
    rcases List.mem_cons.mp member with rfl | old
    · exact accounted.unmade _ le_rfl
    · exact accounted.waiting dispatcher old
  · intro dispatcher node callback inside
    obtain ⟨known, called⟩ := accounted.updating dispatcher node callback inside
    exact ⟨remains dispatcher callback known, (heard dispatcher).trans called⟩
  · intro dispatcher node callback inside
    obtain ⟨known, called⟩ := accounted.stopping dispatcher node callback inside
    exact ⟨remains dispatcher callback known, (heard dispatcher).trans called⟩
  · intro dispatcher callback known apart
    have old : dispatcher ∉ station.added.length :: station.jobs :=
      fun member => apart (List.perm_middle.mem_iff.mpr member)
    rw [List.mem_cons, not_or] at old
    rw [heard]
    exact accounted.ended dispatcher callback (earlier dispatcher callback known old.1) old.2
  · intro dispatcher list callback listed empty known
    change links.mSubscribers dispatcher = some list at listed
    by_cases same : dispatcher = station.added.length
    · subst same
      rw [lists, Function.update_self] at listed
      obtain rfl := Option.some.inj listed
      cases empty
    · rw [lists, Function.update_of_ne same] at listed
      exact accounted.emptied dispatcher list callback listed empty (earlier dispatcher callback known same)
  · intro dispatcher beyond
    have bound : station.added.length ≤ dispatcher := by
      refine le_trans ?_ beyond
      rw [List.length_append]
      exact Nat.le_add_right _ _
    rw [heard]
    exact accounted.unmade dispatcher bound

/-- Each step that spares the callbacks in use keeps the account. -/
theorem Accounted.step (accounted : station.Accounted) (kept : station.Kept) {action : StationAction Callback}
    (spares : station.Spares action) (moves : StationMoves station action next) : next.Accounted := by
  have owner : ∀ dispatcher list node callback, station.links.mSubscribers dispatcher = some list →
      list.nodes = [(node, callback)] → station.added[dispatcher]? = some callback := by
    intro dispatcher list node callback listed held
    rcases kept.owned.nodes_cases listed with empty | ⟨other, owner, single, known⟩
    · cases held.symm.trans empty
    · rw [held] at single
      obtain ⟨rfl, rfl⟩ := Prod.mk.inj (List.singleton_inj.mp single)
      exact known
  cases moves with
  | construct callback new =>
      exact accounted.of_same rfl rfl rfl rfl (fun other gone => gone) accounted.emptied
  | destroy callback links exist gone =>
      apply accounted.of_same
      · exact (Links.destroyCallback_eq_some gone).2.1
      · rfl
      · rfl
      · rfl
      · exact fun other before => List.mem_cons_of_mem _ before
      · exact fun dispatcher list owner listed empty known =>
          kept.emptied_destroy accounted gone listed empty known
  | add cb milli clock links attached => exact accounted.add cb milli clock attached
  | expire now => exact accounted.of_same rfl rfl rfl rfl (fun other gone => gone) accounted.emptied
  | startEmpty place empty => exact absurd empty spares
  | update place entry rest node callback list between popped listed held =>
      have queued := queued_of_popJob popped
      have first : station.calls entry.1 = [] := accounted.waiting _ ((queued _).mpr List.mem_cons_self)
      apply accounted.enter kept (by rfl) (jobs_of_popJob between popped) _ (owner _ list node callback listed held)
      · left
        rw [first]
        exact ⟨rfl, rfl⟩
      · exact fun other member => accounted.waiting other ((queued _).mpr (List.mem_cons_of_mem _ member))
  | skip place entry rest list between popped listed held =>
      have queued := queued_of_popJob popped
      apply accounted.drop rfl rfl (jobs_of_popJob between popped)
      · exact fun other member => accounted.waiting other ((queued _).mpr (List.mem_cons_of_mem _ member))
      · intro callback known
        right
        refine ⟨accounted.waiting _ ((queued _).mpr List.mem_cons_self), ?_⟩
        exact accounted.emptied entry.1 list callback listed (List.map_eq_nil_iff.mpr held) known
  | stopObserving dispatcher node callback list inside listed held =>
      obtain ⟨known, called⟩ := accounted.updating dispatcher node callback inside
      apply accounted.enter kept (by rfl) _ accounted.waiting known
      · right
        rw [called]
        exact ⟨rfl, rfl⟩
      · rw [Station.jobs, inside]
        exact List.Perm.refl _
  | drop dispatcher node callback list inside listed held =>
      obtain ⟨known, called⟩ := accounted.stopping dispatcher node callback inside
      apply accounted.drop
      · rfl
      · rfl
      · rw [Station.jobs, inside]
        exact List.Perm.refl _
      · exact accounted.waiting
      · intro owner given
        obtain rfl := Option.some.inj (known.symm.trans given)
        exact Or.inl called
  | finishEmpty place now armed expired empty => exact absurd empty spares
  | finish place now armed expired schedualer arming filled rearmed =>
      have same := (Schedualer.armNext_spec rearmed).1
      have jobs : Station.jobs { station with
          now := armed
          schedualer := schedualer
          pending := station.pending + expired.toNat
          stage := .between } = station.jobs := by
        simp only [Station.jobs, same, arming]
        rfl
      refine ⟨?_, fun _ _ _ inside => (by cases inside), fun _ _ _ inside => (by cases inside), ?_,
        accounted.emptied, accounted.unmade⟩
      · intro dispatcher member
        simp only [same] at member
        exact accounted.waiting dispatcher member
      · intro dispatcher callback known apart
        rw [jobs] at apart
        exact accounted.ended dispatcher callback known apart

/-- In each run that spares the callbacks in use, the jobs are accounted for and own exactly the dispatchers. -/
theorem accounted_of_spares {now : Int} {actions : List (StationAction Callback)} {final : Station Callback}
    (spares : Meets stationStep Spares (initial now) actions)
    (reached : run stationStep (initial now) actions = some final) :
    final.Accounted ∧ ∀ dispatcher, final.links.mSubscribers dispatcher ≠ none ↔ dispatcher ∈ final.jobs := by
  have both : final.Kept ∧ final.Accounted := by
    apply run_invariant_of_meets (fun station : Station Callback => station.Kept ∧ station.Accounted) _
      ⟨kept_initial now, accounted_initial now⟩ spares reached
    rintro station action next ⟨kept, accounted⟩ condition stepped
    have moves := kept.moves stepped
    exact ⟨kept.step condition moves, accounted.step kept condition moves⟩
  exact ⟨both.2, both.1.existing⟩

end Station

end

/-- The first job of this run has made both of its calls, and the second one none. -/
theorem wholeJob_accounted : ∃ final, run stationStep (.initial 0) wholeJob = some final ∧
    final.calls 0 = bothCalls 0 0 ∧ final.calls 1 = [] ∧ final.Accounted ∧
      ∀ dispatcher, final.links.mSubscribers dispatcher ≠ none ↔ dispatcher ∈ final.jobs := by
  obtain ⟨final, reached, first, second⟩ : ∃ final, run stationStep (.initial 0) wholeJob = some final ∧
      final.calls 0 = bothCalls 0 0 ∧ final.calls 1 = [] := by decide
  exact ⟨final, reached, first, second, Station.accounted_of_spares wholeJob_spares reached⟩

end DistributedNas.Timing
