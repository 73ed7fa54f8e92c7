import Mathlib.Data.List.Basic
import Mathlib.Data.List.Forall2

namespace DistributedNas.Library

/-- A run applies a partial step function to a list of inputs. -/
def run {State Input : Type*} (step : State → Input → Option State) :
    State → List Input → Option State
  | state, [] => some state
  | state, input :: rest => (step state input).bind fun next => run step next rest

section
variable {State Input : Type*} {step : State → Input → Option State}

@[simp] theorem run_nil (state : State) : run step state [] = some state := rfl

theorem run_cons (state : State) (input : Input) (rest : List Input) :
    run step state (input :: rest) = (step state input).bind fun next => run step next rest := rfl

/-- A completed nonempty run splits at its first step. -/
theorem run_cons_eq_some {state final : State} {input : Input} {rest : List Input} :
    run step state (input :: rest) = some final ↔
      ∃ next, step state input = some next ∧ run step next rest = some final := by
  rw [run_cons, Option.bind_eq_some_iff]

/-- A property of the state that a run reaches is decided at that state. -/
instance decidableReached {Holds : State → Prop} [∀ state, Decidable (Holds state)] (outcome : Option State) :
    Decidable (∃ final, outcome = some final ∧ Holds final) :=
  match outcome with
  | none => isFalse (by simp)
  | some final => decidable_of_iff (Holds final) (by simp)

/-- A property kept by each step holds after each run. -/
theorem run_invariant (Holds : State → Prop)
    (kept : ∀ state input next, Holds state → step state input = some next → Holds next)
    {state final : State} {inputs : List Input} (start : Holds state)
    (reached : run step state inputs = some final) : Holds final := by
  induction inputs generalizing state with
  | nil => exact (Option.some.inj reached) ▸ start
  | cons input rest ih =>
      obtain ⟨next, stepped, continued⟩ := run_cons_eq_some.mp reached
      exact ih (kept state input next start stepped) continued

/-- A measure that a step can decrease until the goal leads a run to the goal. -/
theorem exists_run_of_falls {Sound Goal : State → Prop} (measure : State → Nat)
    (falls : ∀ state, Sound state → ¬ Goal state →
      ∃ input next, step state input = some next ∧ Sound next ∧ measure next < measure state)
    {state : State} (start : Sound state) :
    ∃ inputs final, run step state inputs = some final ∧ Sound final ∧ Goal final := by
  induction bound : measure state using Nat.strongRecOn generalizing state with
  | ind bound ih =>
      by_cases reached : Goal state
      · exact ⟨[], state, rfl, start, reached⟩
      · obtain ⟨input, next, stepped, sound, fall⟩ := falls state start reached
        obtain ⟨inputs, final, continued, ends⟩ := ih (measure next) (by omega) sound rfl
        exact ⟨input :: inputs, final, run_cons_eq_some.mpr ⟨next, stepped, continued⟩, ends⟩

/-- A second machine that can follow each step of the first one by a matching input follows its runs. -/
theorem exists_run_of_matching {Other Event : Type*} {twin : Other → Event → Option Other}
    {Related : State → Other → Prop} {Matches : Input → Event → Prop}
    (follows : ∀ state other input event next, Related state other → Matches input event →
      step state input = some next → ∃ after, twin other event = some after ∧ Related next after)
    {state final : State} {other : Other} {inputs : List Input} {events : List Event}
    (matched : List.Forall₂ Matches inputs events) (start : Related state other)
    (reached : run step state inputs = some final) :
    ∃ last, run twin other events = some last ∧ Related final last := by
  induction matched generalizing state other with
  | nil =>
      obtain rfl := Option.some.inj reached
      exact ⟨other, rfl, start⟩
  | @cons input event rest later first matched ih =>
      obtain ⟨next, stepped, continued⟩ := run_cons_eq_some.mp reached
      obtain ⟨after, followed, related⟩ := follows state other input event next start first stepped
      obtain ⟨last, ran, related⟩ := ih related continued
      exact ⟨last, run_cons_eq_some.mpr ⟨after, followed, ran⟩, related⟩

/-- A second machine that can follow each step of the first one follows its runs. -/
theorem exists_run_of_simulation {Other : Type*} {twin : Other → Input → Option Other} {Related : State → Other → Prop}
    (follows : ∀ state other input next, Related state other → step state input = some next →
      ∃ after, twin other input = some after ∧ Related next after)
    {state final : State} {other : Other} {inputs : List Input} (start : Related state other)
    (reached : run step state inputs = some final) :
    ∃ last, run twin other inputs = some last ∧ Related final last := by
  have same : List.Forall₂ Eq inputs inputs := List.forall₂_refl inputs
  refine exists_run_of_matching ?_ same start reached
  rintro state other input _ next related rfl stepped
  exact follows state other input next related stepped

/-- This relation says that each step of a run starts in a state that meets a condition. -/
def Meets (step : State → Input → Option State) (Condition : State → Input → Prop) :
    State → List Input → Prop
  | _, [] => True
  | state, input :: rest =>
      Condition state input ∧ ∀ next, step state input = some next → Meets step Condition next rest

instance decidableMeets {Condition : State → Input → Prop} [∀ state input, Decidable (Condition state input)] :
    (state : State) → (inputs : List Input) → Decidable (Meets step Condition state inputs)
  | _, [] => isTrue trivial
  | state, input :: rest =>
      match stepped : step state input with
      | none => decidable_of_iff (Condition state input) (by simp [Meets, stepped])
      | some next =>
          have : Decidable (Meets step Condition next rest) := decidableMeets next rest
          decidable_of_iff (Condition state input ∧ Meets step Condition next rest) (by simp [Meets, stepped])

/-- A condition on the inputs alone is met by each run over such inputs. -/
theorem meets_of_forall {Condition : Input → Prop} {inputs : List Input}
    (all : ∀ input ∈ inputs, Condition input) (state : State) :
    Meets step (fun _ input => Condition input) state inputs := by
  induction inputs generalizing state with
  | nil => trivial
  | cons input rest ih =>
      exact ⟨all input (by simp), fun next _ => ih (fun other inside => all other (by simp [inside])) next⟩

/-- Two conditions met by a run are met together. -/
theorem Meets.and {First Second : State → Input → Prop} {state : State} {inputs : List Input}
    (first : Meets step First state inputs) (second : Meets step Second state inputs) :
    Meets step (fun s i => First s i ∧ Second s i) state inputs := by
  induction inputs generalizing state with
  | nil => trivial
  | cons input rest ih =>
      exact ⟨⟨first.1, second.1⟩, fun next stepped =>
        ih (first.2 next stepped) (second.2 next stepped)⟩

/-- A run continues where another one ended. -/
theorem run_append {state middle : State} {first : List Input} (reached : run step state first = some middle)
    (second : List Input) : run step state (first ++ second) = run step middle second := by
  induction first generalizing state with
  | nil =>
      obtain rfl := Option.some.inj reached
      rfl
  | cons input rest ih =>
      obtain ⟨next, stepped, continued⟩ := run_cons_eq_some.mp reached
      rw [List.cons_append, run_cons, stepped, Option.bind_some]
      exact ih continued

/-- A second machine that matches each step of the first one by a run of its own matches its runs. -/
theorem exists_run_of_stutters {Other Event : Type*} {twin : Other → Event → Option Other}
    {Condition : State → Input → Prop} {Related : State → Other → Prop}
    (follows : ∀ state other input next, Related state other → Condition state input →
      step state input = some next → ∃ events after, run twin other events = some after ∧ Related next after)
    {state final : State} {other : Other} {inputs : List Input} (start : Related state other)
    (meets : Meets step Condition state inputs) (reached : run step state inputs = some final) :
    ∃ events last, run twin other events = some last ∧ Related final last := by
  induction inputs generalizing state other with
  | nil =>
      obtain rfl := Option.some.inj reached
      exact ⟨[], other, rfl, start⟩
  | cons input rest ih =>
      obtain ⟨next, stepped, continued⟩ := run_cons_eq_some.mp reached
      obtain ⟨events, after, followed, related⟩ := follows state other input next start meets.1 stepped
      obtain ⟨more, last, ran, ends⟩ := ih related (meets.2 next stepped) continued
      refine ⟨events ++ more, last, ?_, ends⟩
      rw [run_append followed]
      exact ran

/-- A property kept by each step that meets the condition holds after each run that meets it. -/
theorem run_invariant_of_meets {Condition : State → Input → Prop} (Holds : State → Prop)
    (kept : ∀ state input next, Holds state → Condition state input →
      step state input = some next → Holds next)
    {state final : State} {inputs : List Input} (start : Holds state)
    (meets : Meets step Condition state inputs)
    (reached : run step state inputs = some final) : Holds final := by
  induction inputs generalizing state with
  | nil => exact (Option.some.inj reached) ▸ start
  | cons input rest ih =>
      obtain ⟨next, stepped, continued⟩ := run_cons_eq_some.mp reached
      exact ih (kept state input next start meets.1 stepped) (meets.2 next stepped) continued

/-- A run is no longer than the fall of a measure that each of its steps under the condition decreases. -/
theorem run_length_add_le_of_meets {Condition : State → Input → Prop} {Sound : State → Prop} (measure : State → Nat)
    (kept : ∀ state input next, Sound state → Condition state input → step state input = some next → Sound next)
    (falls : ∀ state input next, Sound state → Condition state input → step state input = some next →
      measure next < measure state)
    {state final : State} {inputs : List Input} (start : Sound state) (meets : Meets step Condition state inputs)
    (reached : run step state inputs = some final) : inputs.length + measure final ≤ measure state := by
  induction inputs generalizing state with
  | nil =>
      obtain rfl := Option.some.inj reached
      exact Nat.le_of_eq (Nat.zero_add _)
  | cons input rest ih =>
      obtain ⟨next, stepped, continued⟩ := run_cons_eq_some.mp reached
      have later := ih (kept state input next start meets.1 stepped) (meets.2 next stepped) continued
      have fall := falls state input next start meets.1 stepped
      rw [List.length_cons]
      omega

/-- A run is no longer than the fall of a measure that each of its steps decreases. -/
theorem run_length_add_le {Sound : State → Prop} (measure : State → Nat)
    (kept : ∀ state input next, Sound state → step state input = some next → Sound next)
    (falls : ∀ state input next, Sound state → step state input = some next → measure next < measure state)
    {state final : State} {inputs : List Input} (start : Sound state)
    (reached : run step state inputs = some final) : inputs.length + measure final ≤ measure state := by
  have meets : Meets step (fun _ _ => True) state inputs := meets_of_forall (fun _ _ => trivial) state
  exact run_length_add_le_of_meets measure (fun state input next sound _ => kept state input next sound)
    (fun state input next sound _ => falls state input next sound) start meets reached

/-- A run meets each condition that an invariant of the run gives at its steps. -/
theorem Meets.of_invariant {Condition Implied : State → Input → Prop} {Sound : State → Prop}
    (kept : ∀ state input next, Sound state → Condition state input →
      step state input = some next → Sound next)
    (implied : ∀ state input next, Sound state → Condition state input →
      step state input = some next → Implied state input)
    {state final : State} {inputs : List Input} (start : Sound state)
    (meets : Meets step Condition state inputs)
    (reached : run step state inputs = some final) : Meets step Implied state inputs := by
  induction inputs generalizing state with
  | nil => trivial
  | cons input rest ih =>
      obtain ⟨next, stepped, continued⟩ := run_cons_eq_some.mp reached
      refine ⟨implied state input next start meets.1 stepped, fun other same => ?_⟩
      obtain rfl := Option.some.inj (stepped.symm.trans same)
      exact ih (kept state input next start meets.1 stepped) (meets.2 next stepped) continued

/-- This relation says that a property holds in each state a run reaches after a step. -/
def Throughout (step : State → Input → Option State) (Holds : State → Prop) :
    State → List Input → Prop
  | _, [] => True
  | state, input :: rest =>
      ∀ next, step state input = some next → Holds next ∧ Throughout step Holds next rest

instance decidableThroughout {Holds : State → Prop} [∀ state, Decidable (Holds state)] :
    (state : State) → (inputs : List Input) → Decidable (Throughout step Holds state inputs)
  | _, [] => isTrue trivial
  | state, input :: rest =>
      match stepped : step state input with
      | none => isTrue (by simp [Throughout, stepped])
      | some next =>
          have : Decidable (Throughout step Holds next rest) := decidableThroughout next rest
          decidable_of_iff (Holds next ∧ Throughout step Holds next rest) (by simp [Throughout, stepped])

/-- The step condition decides the property when it does so at each step from an invariant state. -/
theorem throughout_iff_meets {Condition : State → Input → Prop} {Holds Sound : State → Prop}
    (decided : ∀ state input next, Sound state → step state input = some next →
      (Holds next ↔ Condition state input))
    (kept : ∀ state input next, Sound state → Holds next → step state input = some next → Sound next)
    {state final : State} {inputs : List Input} (start : Sound state)
    (reached : run step state inputs = some final) :
    Throughout step Holds state inputs ↔ Meets step Condition state inputs := by
  induction inputs generalizing state with
  | nil => exact Iff.rfl
  | cons input rest ih =>
      obtain ⟨next, stepped, continued⟩ := run_cons_eq_some.mp reached
      have here := decided state input next start stepped
      simp only [Throughout, Meets, stepped, Option.some.injEq, forall_eq']
      constructor
      · rintro ⟨holds, later⟩
        exact ⟨here.mp holds, (ih (kept state input next start holds stepped) continued).mp later⟩
      · rintro ⟨condition, later⟩
        have holds := here.mpr condition
        exact ⟨holds, (ih (kept state input next start holds stepped) continued).mpr later⟩

end

end DistributedNas.Library
