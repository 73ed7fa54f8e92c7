import Mathlib.Tactic

/-
This file follows a planned sequence of calls that stops at its first failure.
-/

namespace DistributedNas.Library

section
variable {Call : Type*} {plan later : List Call} {call : Call} {calls : List (Call × Bool)}

/-- The calls up to the rest of the plan were made in their order, and each one succeeded. -/
def Succeeds (plan later : List Call) (calls : List (Call × Bool)) : Prop :=
  ∃ done, plan = done ++ later ∧ calls = done.map fun call => (call, true)

/-- The calls of a plan were made in its order up to some place or up to the first one that failed. -/
def Follows (plan : List Call) (calls : List (Call × Bool)) : Prop :=
  ∃ later, Succeeds plan later calls ∨
    ∃ call rest before, later = call :: rest ∧ Succeeds plan later before ∧ calls = before ++ [(call, false)]

theorem succeeds_nil (plan : List Call) : Succeeds plan plan [] := ⟨[], rfl, rfl⟩

/-- The next call of the plan succeeds. -/
theorem Succeeds.next (succeeds : Succeeds plan (call :: later) calls) :
    Succeeds plan later (calls ++ [(call, true)]) := by
  obtain ⟨done, rfl, rfl⟩ := succeeds
  refine ⟨done ++ [call], ?_, ?_⟩
  · rw [List.append_assoc, List.singleton_append]
  · rw [List.map_append, List.map_singleton]

theorem Succeeds.follows (succeeds : Succeeds plan later calls) : Follows plan calls := ⟨later, .inl succeeds⟩

/-- The next call of the plan fails, and the plan stops. -/
theorem Succeeds.stop (succeeds : Succeeds plan (call :: later) calls) : Follows plan (calls ++ [(call, false)]) :=
  ⟨call :: later, .inr ⟨call, later, calls, rfl, succeeds, rfl⟩⟩

/-- A plan without a rest is done. -/
theorem Succeeds.complete (succeeds : Succeeds plan [] calls) : calls = plan.map fun call => (call, true) := by
  obtain ⟨done, rfl, rfl⟩ := succeeds
  rw [List.append_nil]

end
end DistributedNas.Library
