import DistributedNas.Library.Transition
import Mathlib.Data.Finset.Basic
import Mathlib.Tactic

/-
This file accounts for the dynamic memory of a machine: each block is allocated, used while it lives, and freed once.
-/

namespace DistributedNas.Library

/-- A machine allocates, uses, or frees a block. -/
inductive HeapEvent (Block : Type*) where
  | new (block : Block)
  | use (block : Block)
  | delete (block : Block)
  deriving DecidableEq, Repr

section
variable {Block : Type*} [DecidableEq Block]

/-- An event faults when its block is allocated twice, or used or freed while it does not live. -/
def touch (live : Finset Block) : HeapEvent Block → Option (Finset Block)
  | .new block => if block ∈ live then none else some (insert block live)
  | .use block => if block ∈ live then some live else none
  | .delete block => if block ∈ live then some (live.erase block) else none

variable {live : Finset Block} {block : Block}

@[simp] theorem touch_new (absent : block ∉ live) : touch live (.new block) = some (insert block live) := if_neg absent

@[simp] theorem touch_use (member : block ∈ live) : touch live (.use block) = some live := if_pos member

@[simp] theorem touch_delete (member : block ∈ live) : touch live (.delete block) = some (live.erase block) :=
  if_pos member

variable {State Input : Type*} {step : State → Input → Option State}
  {events : State → Input → List (HeapEvent Block)}

/-- The tracked machine steps with its heap and stops at the first fault. -/
def tracked (step : State → Input → Option State) (events : State → Input → List (HeapEvent Block))
    (state : State × Finset Block) (input : Input) : Option (State × Finset Block) :=
  (step state.1 input).bind fun next =>
    (run touch state.2 (events state.1 input)).map fun live => (next, live)

/-- A discipline that rules out the faults of each step rules out the faults of each run. -/
theorem exists_tracked_run {Owns : State → Finset Block → Prop}
    (safe : ∀ state live input next, Owns state live → step state input = some next →
      ∃ after, run touch live (events state input) = some after ∧ Owns next after)
    {state final : State} {inputs : List Input} (start : Owns state live)
    (reached : run step state inputs = some final) :
    ∃ after, run (tracked step events) (state, live) inputs = some (final, after) ∧ Owns final after := by
  let Related (state : State) (twin : State × Finset Block) : Prop := twin.1 = state ∧ Owns state twin.2
  have follows (state : State) (twin : State × Finset Block) (input : Input) (next : State)
      (related : Related state twin) (stepped : step state input = some next) :
      ∃ after, tracked step events twin input = some after ∧ Related next after := by
    obtain ⟨rfl, owns⟩ := related
    obtain ⟨after, touched, owned⟩ := safe twin.1 twin.2 input next owns stepped
    refine ⟨(next, after), ?_, rfl, owned⟩
    rw [tracked, stepped, Option.bind_some, touched, Option.map_some]
  have initial : Related state (state, live) := ⟨rfl, start⟩
  obtain ⟨⟨last, after⟩, ran, rfl, owned⟩ := exists_run_of_simulation follows initial reached
  exact ⟨after, ran, owned⟩

end

end DistributedNas.Library
