import DistributedNas.Schedualer.Lifetimes

/-
This file decides in which runs of the scheduler no pointer to a callback or a dispatcher dangles.
-/

namespace DistributedNas.Timing
open Library Observer

section
variable {Callback : Type*}

namespace Station
variable {station next : Station Callback}

/-- A step that changes only pointers to callbacks keeps the jobs and their lists. -/
theorem Kept.of_lists (kept : station.Kept) (linked : next.links.Linked)
    (lists : next.links.mSubscribers = station.links.mSubscribers) (added : next.added = station.added)
    (jobs : next.jobs = station.jobs) (stage : ∀ place ∈ next.stage.place, place ∈ station.stage.place)
    (defined : next.stage ≠ .undefined) : next.Kept where
  linked := linked
  owned := by
    refine ⟨?_, ?_⟩
    · rw [lists, added]
      exact kept.owned.short
    · rw [lists, added]
      exact kept.owned.fresh
  existing := by
    rw [lists, jobs]
    exact kept.existing
  distinct := jobs ▸ kept.distinct
  iterator := by
    intro place here
    rw [lists]
    exact kept.iterator place (stage place here)
  defined := defined

/-- The deletion of a dispatcher ends its job. -/
theorem Kept.drop (kept : station.Kept) {dispatcher : Nat} {links : Links Nat Callback Int}
    (linked : (links.dropDispatcher dispatcher).Linked) (lists : links.mSubscribers = station.links.mSubscribers)
    {schedualer : Schedualer Nat} {pending : Nat}
    (jobs : station.jobs.Perm (dispatcher :: schedualer.mPq.map Prod.fst)) :
    Kept { station with
      schedualer := schedualer
      pending := pending
      links := links.dropDispatcher dispatcher
      stage := .arming } := by
  have elsewhere : ∀ other, other ≠ dispatcher →
      (links.dropDispatcher dispatcher).mSubscribers other = station.links.mSubscribers other := by
    intro other different
    rw [← lists]
    exact Function.update_of_ne different _ _
  have here : (links.dropDispatcher dispatcher).mSubscribers dispatcher = none := Function.update_self _ _ _
  have apart := List.nodup_cons.mp (jobs.nodup_iff.mp kept.distinct)
  refine ⟨linked, kept.owned.drop lists, ?_, apart.2, ?_, fun same => by cases same⟩
  · intro other
    show (links.dropDispatcher dispatcher).mSubscribers other ≠ none ↔ other ∈ schedualer.mPq.map Prod.fst
    by_cases same : other = dispatcher
    · subst same
      rw [here]
      exact iff_of_false (fun absent => absent rfl) apart.1
    · rw [elsewhere other same, kept.existing other, jobs.mem_iff, List.mem_cons, or_iff_right same]
  · intro place inside
    cases inside

/-- The popped job and the queued ones are the jobs from before. -/
theorem jobs_of_popJob (between : station.stage = .between) {place : Nat} {entry : Entry Nat} {rest : Schedualer Nat}
    (popped : station.schedualer.popJob place = some (entry, rest)) :
    station.jobs.Perm (entry.1 :: rest.mPq.map Prod.fst) := by
  obtain ⟨-, perm, -⟩ := Schedualer.popJob_spec popped
  rw [jobs, between]
  exact perm.map Prod.fst

/-- A loop that has called its handler stands at the only node of its list. -/
theorem Kept.enter (kept : station.Kept) {delivery : Delivery Nat Callback Int} {stage : Stage Callback}
    {schedualer : Schedualer Nat} {pending dispatcher : Nat} {entry : Node × Callback} {list : NodeList Callback}
    (place : stage.place = some (dispatcher, entry))
    (listed : station.links.mSubscribers dispatcher = some list) (held : list.nodes = [entry])
    (jobs : station.jobs.Perm (dispatcher :: schedualer.mPq.map Prod.fst)) (defined : stage ≠ .undefined) :
    Kept { station with
      schedualer := schedualer
      pending := pending
      links := station.links.record delivery
      stage := stage } := by
  have same : Station.jobs { station with
      schedualer := schedualer
      pending := pending
      links := station.links.record delivery
      stage := stage } = dispatcher :: schedualer.mPq.map Prod.fst := by
    simp only [Station.jobs, place, Option.map_some, Option.toList_some, List.singleton_append]
  refine ⟨kept.linked.record delivery, ⟨kept.owned.short, kept.owned.fresh⟩, ?_, ?_, ?_, defined⟩
  · intro other
    rw [same, ← jobs.mem_iff]
    exact kept.existing other
  · rw [same]
    exact jobs.nodup_iff.mp kept.distinct
  · intro inside here
    obtain rfl := Option.some.inj (place.symm.trans here)
    exact ⟨list, listed, held⟩

/-- Valid pointers do not dangle. -/
theorem Kept.intact (kept : station.Kept) : station.Intact where
  links := kept.linked.safe
  iterator := by
    intro place here
    obtain ⟨list, listed, held⟩ := kept.iterator place here
    rw [Links.subscribers_of_listed listed, (single_spec held).2.1]
    exact Option.some_ne_none _
  defined := kept.defined

theorem kept_initial (now : Int) : (initial now : Station Callback).Kept where
  linked := Links.linked_initial
  owned := ⟨fun dispatcher list listed => (by cases listed), fun dispatcher beyond => rfl⟩
  existing := fun dispatcher => iff_of_false (fun absent => absent rfl) List.not_mem_nil
  distinct := List.nodup_nil
  iterator := fun place here => by cases here
  defined := fun same => by cases same

variable [DecidableEq Callback]

/-- The destruction of a callback that is not in use keeps the jobs. -/
theorem Kept.destroy (kept : station.Kept) {callback : Callback} (spares : station.Spares (.destroy callback))
    {links : Links Nat Callback Int} (gone : station.links.destroyCallback callback = some links) :
    Kept { station with links := links, destroyed := callback :: station.destroyed } := by
  obtain ⟨pointers, deliveries, lists⟩ := Links.destroyCallback_eq_some gone
  obtain ⟨safe, entered⟩ := kept.linked.destroyCallback_iff gone
  have linked : links.Linked := ⟨safe.mpr ((kept.owned.listedOnce_iff callback).mp spares.1), entered⟩
  rcases lists with ⟨-, same⟩ | ⟨home, list, left, pointer, listed, erased, changed⟩
  · exact kept.of_lists linked same rfl rfl (fun place here => here) kept.defined
  · have elsewhere : ∀ other, other ≠ home → links.mSubscribers other = station.links.mSubscribers other := by
      intro other different
      rw [changed, Function.update_of_ne different]
    have here : links.mSubscribers home = some left := by rw [changed, Function.update_self]
    refine ⟨linked, kept.owned.destroy gone, ?_, kept.distinct, ?_, kept.defined⟩
    · intro other
      refine Iff.trans ?_ (kept.existing other)
      by_cases same : other = home
      · subst same
        rw [here, listed]
        exact iff_of_true (Option.some_ne_none _) (Option.some_ne_none _)
      · rw [elsewhere other same]
    · intro place inside
      obtain ⟨items, found, held⟩ := kept.iterator place inside
      refine ⟨items, ?_, held⟩
      rw [elsewhere place.1, found]
      rintro rfl
      obtain rfl := Option.some.inj (listed.symm.trans found)
      have member := kept.linked.entered callback place.1 list pointer listed
      rw [NodeList.items, held] at member
      exact spares.2 place inside (List.mem_singleton.mp member).symm

/-- An `Add` puts one new dispatcher into the queue. -/
theorem Kept.add (kept : station.Kept) (cb : Callback) (milli : Int) (clock : AddClock)
    {links : Links Nat Callback Int}
    (attached : (newDispatcher station.links station.added.length).attach station.added.length cb = some links) :
    Kept { station with
      now := clock.armed
      schedualer := station.schedualer.add station.added.length milli clock
      pending := station.pending + clock.expired.toNat
      links := links
      added := station.added ++ [cb] } := by
  obtain ⟨exist, lists, pointers, deliveries⟩ := attach_newDispatcher attached
  have elsewhere : ∀ other, other ≠ station.added.length →
      links.mSubscribers other = station.links.mSubscribers other := by
    intro other different
    rw [lists, Function.update_of_ne different]
  have before : ∀ other ∈ station.jobs, other ≠ station.added.length :=
    fun other member => (kept.below other member).ne
  have queued : ∀ stage : Stage Callback, stage = station.stage →
      ((stage.place.map Prod.fst).toList ++ (station.added.length :: station.schedualer.mPq.map Prod.fst)).Perm
        (station.added.length :: station.jobs) := by
    rintro stage rfl
    exact List.perm_middle
  have perm := queued station.stage rfl
  constructor
  · exact (kept.linked.createDispatcher (kept.owned.fresh _ le_rfl)).attach attached
  · exact kept.owned.add cb milli clock attached
  · intro other
    refine Iff.trans ?_ perm.mem_iff.symm
    show links.mSubscribers other ≠ none ↔ _
    by_cases same : other = station.added.length
    · subst same
      rw [lists, Function.update_self]
      exact iff_of_true (Option.some_ne_none _) List.mem_cons_self
    · rw [elsewhere other same, List.mem_cons, or_iff_right same]
      exact kept.existing other
  · exact perm.nodup_iff.mpr (List.nodup_cons.mpr ⟨fun member => before _ member rfl, kept.distinct⟩)
  · intro place inside
    obtain ⟨items, found, held⟩ := kept.iterator place inside
    refine ⟨items, ?_, held⟩
    show links.mSubscribers place.1 = some items
    have present : station.links.mSubscribers place.1 ≠ none := by
      rw [found]
      exact Option.some_ne_none _
    rw [elsewhere place.1 (before place.1 ((kept.existing place.1).mp present)), found]
  · exact kept.defined

/-- A step that spares the callbacks in use keeps all pointers valid. -/
theorem Kept.step (kept : station.Kept) {action : StationAction Callback} (spares : station.Spares action)
    (moves : StationMoves station action next) : next.Kept := by
  cases moves with
  | construct callback new =>
      exact kept.of_lists kept.linked.createCallback rfl rfl rfl (fun place here => here) kept.defined
  | destroy callback links exist gone => exact kept.destroy spares gone
  | add cb milli clock links attached => exact kept.add cb milli clock attached
  | expire now => exact kept.of_lists kept.linked rfl rfl rfl (fun place here => here) kept.defined
  | startEmpty place empty => exact absurd empty spares
  | update place entry rest node callback list between popped listed held =>
      exact kept.enter rfl listed held (jobs_of_popJob between popped) (fun same => by cases same)
  | skip place entry rest list between popped listed held =>
      apply kept.drop _ rfl (jobs_of_popJob between popped)
      have dropped := kept.linked.dropDispatcher listed station.links.deliveries
      simpa only [NodeList.items, held, List.map_nil, List.not_mem_nil, if_false] using dropped
  | stopObserving dispatcher node callback list inside listed held =>
      apply kept.enter rfl listed held _ (fun same => by cases same)
      rw [jobs, inside]
      exact List.Perm.refl _
  | drop dispatcher node callback list inside listed held =>
      apply kept.drop
      · have pointers : (fun other => if other ∈ list.items then some none else station.links.mDispatcher other) =
            Function.update station.links.mDispatcher callback (some none) := by
          funext other
          rw [NodeList.items, held, List.map_singleton, Function.update_apply]
          simp only [List.mem_singleton]
        have dropped := kept.linked.dropDispatcher listed station.links.deliveries
        rwa [pointers] at dropped
      · rfl
      · rw [jobs, inside]
        exact List.Perm.refl _
  | finishEmpty place now armed expired empty => exact absurd empty spares
  | finish place now armed expired schedualer arming filled rearmed =>
      have same := (Schedualer.armNext_spec rearmed).1
      refine kept.of_lists kept.linked rfl rfl ?_ ?_ (fun same => by cases same)
      · simp only [jobs, same, arming]
        rfl
      · intro place here
        cases here

/-- The node of a running loop is lost when its callback is destroyed in the only list it is in. -/
theorem Kept.destroy_called (kept : station.Kept) {callback : Callback}
    (once : station.links.DestroysListedOnce (.destroyCallback callback)) {links : Links Nat Callback Int}
    (gone : station.links.destroyCallback callback = some links) {place : Nat × Node × Callback}
    (here : place ∈ station.stage.place) (called : place.2.2 = callback) :
    (links.subscribers place.1).deref place.2.1 = none := by
  obtain ⟨list, listed, held⟩ := kept.iterator place here
  have alone : list.items = [callback] := by rw [NodeList.items, held, List.map_singleton, called]
  have pointer : station.links.mDispatcher callback = some (some place.1) := by
    have count := once place.1 list listed
    rw [alone, List.count_singleton_self] at count
    by_contra elsewhere
    rw [if_neg elsewhere] at count
    exact absurd count (by decide)
  obtain ⟨-, -, lists⟩ := Links.destroyCallback_eq_some gone
  rcases lists with ⟨free, -⟩ | ⟨home, items, left, at_home, found, erased, changed⟩
  · cases free.symm.trans pointer
  · obtain rfl := Option.some.inj (Option.some.inj (at_home.symm.trans pointer))
    obtain rfl := Option.some.inj (found.symm.trans listed)
    rw [alone, List.erase_cons_head] at erased
    have empty : left.nodes = [] := List.map_eq_nil_iff.mp erased
    rw [Links.subscribers_of_listed (by rw [changed, Function.update_self]), NodeList.deref, empty]
    rfl

/-- A step leaves all pointers valid exactly when it spares the callbacks in use. -/
theorem Kept.step_iff (kept : station.Kept) {action : StationAction Callback}
    (stepped : stationStep station action = some next) : next.Intact ↔ station.Spares action := by
  have moves := kept.moves stepped
  constructor
  · intro intact
    cases moves with
    | destroy callback links exist gone =>
        have once := (kept.linked.destroyCallback_iff gone).1.mp intact.links
        refine ⟨(kept.owned.listedOnce_iff callback).mpr once, fun place here called => ?_⟩
        exact intact.iterator place here (kept.destroy_called once gone here called)
    | startEmpty place empty => exact absurd rfl intact.defined
    | update place entry rest node callback list between popped => exact Schedualer.queued_of_popJob popped
    | skip place entry rest list between popped => exact Schedualer.queued_of_popJob popped
    | finishEmpty place now armed expired empty => exact absurd rfl intact.defined
    | finish place now armed expired schedualer arming filled => exact filled
    | _ => trivial
  · intro spares
    exact (kept.step spares moves).intact

/-- In each run no pointer dangles exactly when each destroyed callback was not in use and each `Cycle` found a job. -/
theorem intact_iff_spares {now : Int} {actions : List (StationAction Callback)} {final : Station Callback}
    (reached : run stationStep (initial now) actions = some final) :
    Throughout stationStep Intact (initial now) actions ↔ Meets stationStep Spares (initial now) actions := by
  apply throughout_iff_meets _ _ (kept_initial now) reached
  · exact fun station action next kept stepped => kept.step_iff stepped
  · exact fun station action next kept intact stepped =>
      kept.step ((kept.step_iff stepped).mp intact) (kept.moves stepped)

end Station

end

/-- Two jobs are added, and the first one fires, where its handler destroys the callback of the second. -/
def wholeJob : List (StationAction Nat) :=
  [.construct 0, .construct 1, .add 0 1 (.at 0), .add 1 2 (.at 0), .expire 1000000, .start 1, .destroy 1, .resume,
    .resume, .finish 0 1000000 1000000 false, .expire 2000000, .start 0]

/-- Each step of this run spares the callbacks in use. -/
theorem wholeJob_spares : Meets stationStep Station.Spares (.initial 0) wholeJob := by
  decide

/-- No pointer dangles in this run. -/
theorem wholeJob_intact : ∃ final, run stationStep (.initial 0) wholeJob = some final ∧ final.stage = .arming ∧
    Throughout stationStep Station.Intact (.initial 0) wholeJob := by
  obtain ⟨final, reached, stage⟩ : ∃ final, run stationStep (.initial 0) wholeJob = some final ∧
      final.stage = .arming := by decide
  exact ⟨final, reached, stage, (Station.intact_iff_spares reached).mpr wholeJob_spares⟩

end DistributedNas.Timing
