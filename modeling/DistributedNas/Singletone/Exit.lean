import DistributedNas.Library.Interleaving
import DistributedNas.Singletone.Instance
import Mathlib.Algebra.BigOperators.Group.Finset.Basic

/-
This file follows `Singleton::KillInstance` at the exit of the process, while other threads still call `instance`.
-/

namespace DistributedNas.Singletone
open Library
open scoped BigOperators

/-- A call of `KillInstance` stands before this step; only a loaded null takes it to the lock. -/
inductive KillInstance where
  | load
  | lock
  | check
  | delete
  | unlock
  | leave
  deriving DecidableEq, Repr

/-- A stored object is registered by `atexit`, and each handler is named after the object of its registration. -/
structure Process (count : Nat) where
  singleton : Singleton count
  registering : Fin count → Option Address
  handlers : List Address
  exiting : Bool
  kill : Option (Address × KillInstance)
  held : Bool
  deleted : List (Option Address)
  finished : List Address

/-- A thread takes a step of its call, the program calls `exit`, and the exit takes a step of its handlers. -/
inductive ProcessEvent (count : Nat) where
  | call (thread : Fin count)
  | exit
  | kill
  deriving DecidableEq, Repr

namespace Process
variable {count : Nat} (process : Process count)

/-- No call has begun, and the program runs. -/
def initial (count : Nat) : Process count := ⟨.initial count, fun _ => none, [], false, none, false, [], []⟩

/-- `instance` calls `atexit` after its store and before it drops the lock. -/
def callStep (thread : Fin count) : Option (Process count) :=
  match process.registering thread with
  | some address =>
      some { process with
        handlers := address :: process.handlers
        registering := Function.update process.registering thread none }
  | none =>
      match process.singleton.calls thread with
      | .lock _ =>
          if process.held then none
          else (instanceStep process.singleton thread).map fun next => { process with singleton := next }
      | .store temp =>
          (instanceStep process.singleton thread).map fun next =>
            { process with
              singleton := next
              registering := Function.update process.registering thread (some temp) }
      | _ => (instanceStep process.singleton thread).map fun next => { process with singleton := next }

/-- The handlers run in the reverse order of their registration, and `delete` gets the null pointer `temp`. -/
def killStep : Option (Process count) :=
  match process.kill with
  | none =>
      match process.handlers with
      | [] => none
      | address :: rest => some { process with handlers := rest, kill := some (address, .load) }
  | some (address, .load) =>
      some { process with
        kill := some (address, if process.singleton.mInstance.isNone then .lock else .leave) }
  | some (address, .lock) =>
      if process.singleton.mMutex.isNone ∧ process.held = false then
        some { process with held := true, kill := some (address, .check) }
      else none
  | some (address, .check) => some { process with kill := some (address, .delete) }
  | some (address, .delete) =>
      some { process with deleted := none :: process.deleted, kill := some (address, .unlock) }
  | some (address, .unlock) => some { process with held := false, kill := some (address, .leave) }
  | some (address, .leave) => some { process with finished := address :: process.finished, kill := none }

end Process

/-- The other threads run on during the exit. -/
def processStep {count : Nat} (process : Process count) : ProcessEvent count → Option (Process count)
  | .call thread => process.callStep thread
  | .exit => if process.exiting then none else some { process with exiting := true }
  | .kill => if process.exiting then process.killStep else none

/-- A call that has constructed an object and has not stored it yet keeps its address. -/
def Call.storing : Call → Option Address
  | .store temp => some temp
  | _ => none

/-- This is the multiset of no address or of one. -/
def addressOf (address : Option Address) : Multiset Address := (address.toList : List Address)

namespace Process
variable {count : Nat} (process : Process count)

/-- These objects still get their registration. -/
def owed : Multiset Address :=
  (∑ thread, addressOf (process.singleton.calls thread).storing) +
    ∑ thread, addressOf (process.registering thread)

/-- The exit destroys no object and waits for no lock, and each object has one registration. -/
structure Harmless : Prop where
  nothing : process.deleted = []
  free : process.held = false
  passing : ∀ running ∈ process.kill, running.2 = .load ∨ running.2 = .leave
  set : process.singleton.mInstance = none →
    process.handlers = [] ∧ process.kill = none ∧ ∀ thread, process.registering thread = none
  registered : (process.singleton.constructed : Multiset Address) =
    (process.finished : Multiset Address) + addressOf (process.kill.map Prod.fst) +
      (process.handlers : Multiset Address) + process.owed
  numbered : process.singleton.constructed = (List.range process.singleton.constructed.length).reverse

variable {process} {next : Process count} {thread : Fin count}

/-- A step of `instance` constructs an object, stores one, or leaves the objects and the instance. -/
theorem instanceStep_cases {singleton after : Singleton count}
    (stepped : instanceStep singleton thread = some after) :
    ∃ call, after.calls = Function.update singleton.calls thread call ∧
      ((singleton.calls thread = .construct ∧ call = .store singleton.constructed.length ∧
          after.constructed = singleton.constructed.length :: singleton.constructed ∧
          after.mInstance = singleton.mInstance) ∨
        (∃ temp, singleton.calls thread = .store temp ∧ call.storing = none ∧
          after.constructed = singleton.constructed ∧ after.mInstance = some temp) ∨
        (singleton.calls thread).storing = none ∧ call.storing = none ∧
          after.constructed = singleton.constructed ∧ after.mInstance = singleton.mInstance) := by
  unfold instanceStep at stepped
  cases place : singleton.calls thread with
  | lock temp =>
      simp only [place] at stepped
      split at stepped
      · obtain rfl := Option.some.inj stepped
        exact ⟨_, rfl, Or.inr (Or.inr ⟨rfl, rfl, rfl, rfl⟩)⟩
      · cases stepped
  | construct =>
      simp only [place, Option.some.injEq] at stepped
      subst stepped
      exact ⟨_, rfl, Or.inl ⟨rfl, rfl, rfl, rfl⟩⟩
  | store temp =>
      simp only [place, Option.some.injEq] at stepped
      subst stepped
      exact ⟨_, rfl, Or.inr (Or.inl ⟨temp, rfl, rfl, rfl, rfl⟩)⟩
  | load =>
      simp only [place, Option.some.injEq] at stepped
      subst stepped
      refine ⟨_, rfl, Or.inr (Or.inr ⟨rfl, ?_, rfl, rfl⟩)⟩
      split
      · rfl
      · rfl
  | check temp =>
      simp only [place, Option.some.injEq] at stepped
      subst stepped
      refine ⟨_, rfl, Or.inr (Or.inr ⟨rfl, ?_, rfl, rfl⟩)⟩
      split
      · rfl
      · rfl
  | idle | unlock temp | leave temp =>
      simp only [place, Option.some.injEq] at stepped
      subst stepped
      exact ⟨_, rfl, Or.inr (Or.inr ⟨rfl, rfl, rfl, rfl⟩)⟩

/-- The step of one call changes what is owed by its own part. -/
theorem owed_move (process : Process count) (singleton : Singleton count) (call : Call) (registers : Option Address)
    (calls : singleton.calls = Function.update process.singleton.calls thread call) :
    owed { process with
        singleton := singleton
        registering := Function.update process.registering thread registers } +
        (addressOf (process.singleton.calls thread).storing + addressOf (process.registering thread)) =
      process.owed + (addressOf call.storing + addressOf registers) := by
  have stores := sum_update (fun place : Call => addressOf place.storing) process.singleton.calls thread call
  have waits := sum_update addressOf process.registering thread registers
  simp only [owed, calls]
  calc
    _ = ((∑ other, addressOf (Function.update process.singleton.calls thread call other).storing) +
          addressOf (process.singleton.calls thread).storing) +
        ((∑ other, addressOf (Function.update process.registering thread registers other)) +
          addressOf (process.registering thread)) := by abel
    _ = _ := by rw [stores, waits]; abel

theorem coe_cons (address : Address) (rest : List Address) :
    ((address :: rest : List Address) : Multiset Address) = {address} + (rest : Multiset Address) := by
  rw [Multiset.singleton_add, Multiset.cons_coe]

@[simp] theorem addressOf_none : addressOf none = 0 := rfl

@[simp] theorem addressOf_some (address : Address) : addressOf (some address) = {address} := rfl

/-- A registration moves its object from the owed ones to the handlers. -/
theorem Harmless.register (harmless : process.Harmless) {address : Address}
    (waits : process.registering thread = some address) :
    Harmless { process with
      handlers := address :: process.handlers
      registering := Function.update process.registering thread none } := by
  have moved := owed_move process process.singleton (process.singleton.calls thread) none
    (Function.update_eq_self thread process.singleton.calls).symm
  rw [waits, addressOf_some, addressOf_none, add_zero, ← add_assoc, add_right_comm] at moved
  have fewer := add_right_cancel moved
  refine ⟨harmless.nothing, harmless.free, harmless.passing, fun unset => ?_, ?_, harmless.numbered⟩
  · have none := (harmless.set unset).2.2 thread
    rw [waits] at none
    cases none
  · have before := harmless.registered
    rw [← fewer] at before
    show (process.singleton.constructed : Multiset Address) = _
    rw [before, coe_cons]
    change _ + _ = _ + _ + (_ + _) + owed { process with
      singleton := process.singleton
      registering := Function.update process.registering thread none }
    abel

/-- A step of `instance` owes one more registration for each object that it constructs. -/
theorem Harmless.advance (harmless : process.Harmless) (waits : process.registering thread = none)
    {after : Singleton count} (stepped : instanceStep process.singleton thread = some after) :
    Harmless { process with
      singleton := after
      registering := Function.update process.registering thread (process.singleton.calls thread).storing } := by
  obtain ⟨call, calls, effect⟩ := instanceStep_cases stepped
  have moved := owed_move process after call (process.singleton.calls thread).storing calls
  rw [waits, addressOf_none, add_zero, ← add_assoc] at moved
  have owes := add_right_cancel moved
  have unset : ∀ storing : Option Address, storing = none → process.singleton.mInstance = none →
      process.handlers = [] ∧ process.kill = none ∧
        ∀ other, Function.update process.registering thread storing other = none := by
    rintro storing rfl empty
    obtain ⟨handlers, kill, registering⟩ := harmless.set empty
    have same : Function.update process.registering thread none = process.registering := by
      rw [← waits, Function.update_eq_self]
    refine ⟨handlers, kill, fun other => ?_⟩
    rw [same]
    exact registering other
  have balance : (process.singleton.constructed : Multiset Address) + addressOf call.storing =
      (process.finished : Multiset Address) + addressOf (process.kill.map Prod.fst) +
        (process.handlers : Multiset Address) + owed { process with
          singleton := after
          registering := Function.update process.registering thread (process.singleton.calls thread).storing } := by
    rw [owes, harmless.registered, add_assoc]
  rcases effect with ⟨constructs, rfl, constructed, kept⟩ | ⟨temp, stores, storing, constructed, stored⟩ |
    ⟨stores, storing, constructed, kept⟩
  · refine ⟨harmless.nothing, harmless.free, harmless.passing, fun empty => ?_, ?_, ?_⟩
    · apply unset _ _ (kept.symm.trans empty)
      rw [constructs]
      rfl
    · show (after.constructed : Multiset Address) = _
      rw [constructed, coe_cons, add_comm]
      exact balance
    · show after.constructed = (List.range after.constructed.length).reverse
      rw [constructed, List.length_cons, List.range_succ, List.reverse_append, ← harmless.numbered]
      rfl
  · refine ⟨harmless.nothing, harmless.free, harmless.passing, fun empty => ?_, ?_, ?_⟩
    · cases stored.symm.trans empty
    · show (after.constructed : Multiset Address) = _
      rw [storing, addressOf_none, add_zero] at balance
      rw [constructed]
      exact balance
    · show after.constructed = (List.range after.constructed.length).reverse
      rw [constructed]
      exact harmless.numbered
  · refine ⟨harmless.nothing, harmless.free, harmless.passing, fun empty => ?_, ?_, ?_⟩
    · exact unset _ stores (kept.symm.trans empty)
    · show (after.constructed : Multiset Address) = _
      rw [storing, addressOf_none, add_zero] at balance
      rw [constructed]
      exact balance
    · show after.constructed = (List.range after.constructed.length).reverse
      rw [constructed]
      exact harmless.numbered

/-- Each step of a thread keeps the exit harmless. -/
theorem Harmless.call (harmless : process.Harmless) (stepped : process.callStep thread = some next) :
    next.Harmless := by
  unfold callStep at stepped
  cases waits : process.registering thread with
  | some address =>
      simp only [waits, Option.some.injEq] at stepped
      subst stepped
      exact harmless.register waits
  | none =>
      have same : Function.update process.registering thread none = process.registering := by
        rw [← waits, Function.update_eq_self]
      have plain : (process.singleton.calls thread).storing = none →
          ∀ after, instanceStep process.singleton thread = some after →
            Harmless { process with singleton := after } := by
        intro storing after advanced
        have moved := harmless.advance waits advanced
        rw [storing, same] at moved
        exact moved
      simp only [waits] at stepped
      split at stepped
      · next temp locks =>
          split at stepped
          · cases stepped
          · obtain ⟨after, advanced, rfl⟩ := Option.map_eq_some_iff.mp stepped
            exact plain (by rw [locks]; rfl) after advanced
      · next temp stores =>
          obtain ⟨after, advanced, rfl⟩ := Option.map_eq_some_iff.mp stepped
          have moved := harmless.advance waits advanced
          rw [stores] at moved
          exact moved
      · next others =>
          obtain ⟨after, advanced, rfl⟩ := Option.map_eq_some_iff.mp stepped
          apply plain _ after advanced
          cases place : process.singleton.calls thread with
          | store temp => exact absurd place (others temp)
          | _ => rfl

/-- A handler finds the instance set, so it passes the lock and the `delete`. -/
theorem Harmless.killStep (harmless : process.Harmless) (stepped : process.killStep = some next) :
    next.Harmless := by
  have balance := harmless.registered
  unfold Process.killStep at stepped
  cases running : process.kill with
  | none =>
      cases waiting : process.handlers with
      | nil =>
          simp only [running, waiting] at stepped
          cases stepped
      | cons address rest =>
          simp only [running, waiting, Option.some.injEq] at stepped
          subst stepped
          refine ⟨harmless.nothing, harmless.free, ?_, fun unset => ?_, ?_, harmless.numbered⟩
          · intro other same
            obtain rfl := Option.some.inj same
            exact Or.inl rfl
          · have none := (harmless.set unset).1
            rw [waiting] at none
            cases none
          · rw [running, waiting, coe_cons] at balance
            show (process.singleton.constructed : Multiset Address) = _
            rw [balance]
            simp only [Option.map_none, Option.map_some, addressOf_none, addressOf_some]
            change _ = _ + _ + _ + process.owed
            abel
  | some pair =>
      obtain ⟨address, place⟩ := pair
      have set : process.singleton.mInstance.isNone = false := by
        rw [Option.isNone_eq_false_iff, Option.isSome_iff_ne_none]
        intro unset
        cases running.symm.trans (harmless.set unset).2.1
      rw [running] at balance
      rcases harmless.passing (address, place) running with at_load | at_leave
      · obtain rfl : place = .load := at_load
        simp only [running, set, Bool.false_eq_true, if_false, Option.some.injEq] at stepped
        subst stepped
        refine ⟨harmless.nothing, harmless.free, ?_, fun unset => ?_, balance, harmless.numbered⟩
        · intro other same
          obtain rfl := Option.some.inj same
          exact Or.inr rfl
        · cases running.symm.trans (harmless.set unset).2.1
      · obtain rfl : place = .leave := at_leave
        simp only [running, Option.some.injEq] at stepped
        subst stepped
        refine ⟨harmless.nothing, harmless.free, ?_, fun unset => ?_, ?_, harmless.numbered⟩
        · intro other same
          cases same
        · cases running.symm.trans (harmless.set unset).2.1
        · show (process.singleton.constructed : Multiset Address) = _
          rw [balance, coe_cons]
          simp only [Option.map_none, Option.map_some, addressOf_none, addressOf_some, add_zero]
          change _ = _ + _ + _ + process.owed
          abel

theorem harmless_initial (count : Nat) : (initial count).Harmless := by
  refine ⟨rfl, rfl, fun running same => (by cases same), fun _ => ⟨rfl, rfl, fun _ => rfl⟩, ?_, rfl⟩
  simp [initial, Singleton.initial, owed, Call.storing]

theorem Harmless.step (harmless : process.Harmless) {event : ProcessEvent count}
    (stepped : processStep process event = some next) : next.Harmless := by
  cases event with
  | call thread => exact harmless.call stepped
  | exit =>
      simp only [processStep] at stepped
      split at stepped
      · cases stepped
      · obtain rfl := Option.some.inj stepped
        exact ⟨harmless.nothing, harmless.free, harmless.passing, harmless.set, harmless.registered,
          harmless.numbered⟩
  | kill =>
      simp only [processStep] at stepped
      split at stepped
      · exact harmless.killStep stepped
      · cases stepped

/-- A handler that has not finished can take its next step in each state of the other threads. -/
theorem Harmless.unblocked (harmless : process.Harmless)
    (waiting : process.kill ≠ none ∨ process.handlers ≠ []) : process.killStep ≠ none := by
  unfold Process.killStep
  cases running : process.kill with
  | none =>
      cases queue : process.handlers with
      | nil => simp [running, queue] at waiting
      | cons address rest => exact Option.some_ne_none _
  | some pair =>
      obtain ⟨address, place⟩ := pair
      rcases harmless.passing (address, place) running with at_load | at_leave
      · obtain rfl : place = .load := at_load
        exact Option.some_ne_none _
      · obtain rfl : place = .leave := at_leave
        exact Option.some_ne_none _

/-- In each run the exit destroys nothing and never waits, and it runs one handler for each object. -/
theorem harmless_of_run {events : List (ProcessEvent count)} {final : Process count}
    (reached : run processStep (initial count) events = some final) :
    final.Harmless ∧ (final.kill ≠ none ∨ final.handlers ≠ [] → final.killStep ≠ none) := by
  have harmless : final.Harmless := by
    apply run_invariant (fun process : Process count => process.Harmless) _ (harmless_initial count) reached
    exact fun process event next before stepped => before.step stepped
  exact ⟨harmless, harmless.unblocked⟩

end Process

/-- Both threads construct an object, and the exit runs both handlers. -/
def exitAfterBoth : List (ProcessEvent 2) :=
  [.call firstThread, .call secondThread, .call firstThread, .call secondThread, .call firstThread,
    .call firstThread, .call firstThread, .call firstThread, .call firstThread, .call firstThread,
    .call secondThread, .call secondThread, .call secondThread, .call secondThread, .exit, .kill, .kill, .kill,
    .call secondThread, .kill, .kill, .kill]

/-- Both objects have their handler, and neither is destroyed. -/
theorem harmless_exitAfterBoth : ∃ final, run processStep (.initial 2) exitAfterBoth = some final ∧
    final.Harmless ∧ (final.kill ≠ none ∨ final.handlers ≠ [] → final.killStep ≠ none) := by
  obtain ⟨final, reached⟩ : ∃ final, run processStep (.initial 2) exitAfterBoth = some final :=
    Option.isSome_iff_exists.mp (by decide)
  exact ⟨final, reached, Process.harmless_of_run reached⟩

end DistributedNas.Singletone
