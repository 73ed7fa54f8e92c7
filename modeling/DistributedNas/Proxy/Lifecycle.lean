import DistributedNas.Library.Transition
import Mathlib.Data.List.Perm.Basic
import Mathlib.Data.List.Perm.Lattice
import Mathlib.Data.List.Nodup
import Mathlib.Tactic

/-
This file models the life cycle of `NBDProxy` and decides when its device and its descriptors stay in order.
One variable of the process stands for all proxies, and the destructor never changes it.
-/

namespace DistributedNas.Proxy
open Library
open scoped List

/-- These calls of the constructor throw `Error` when they fail. -/
inductive Checked where
  | socketpair
  | openDevice
  | setSize
  | clearSock
  | sigemptyset
  | sigaddset
  | pthreadCreate
  | pthreadDetach
  deriving DecidableEq, Repr

/-- A live proxy has its three descriptors, and the history says whether `SIGINT` arrived since its construction. -/
structure LiveProxy where
  mSocketFd : Nat × Nat
  mNbdFd : Nat
  interrupted : Bool
  deriving DecidableEq, Repr

/-- The proxy owns both sockets and the device. -/
def LiveProxy.descriptors (proxy : LiveProxy) : List Nat := [proxy.mSocketFd.1, proxy.mSocketFd.2, proxy.mNbdFd]

/-- The variable `nbd_dev_to_disconnect` has the value `none` for -1, and the last two fields are history. -/
structure Process where
  nbdDevToDisconnect : Option Nat
  handler : Bool
  opened : List Nat
  proxies : List LiveProxy
  restored : Bool
  strays : List Nat
  deriving DecidableEq, Repr

/-- The process starts with no proxy and with the default action for `SIGINT`. -/
def Process.initial : Process := ⟨none, false, [], [], true, []⟩

/-- The answer of `IsValid` is the same for each proxy. -/
def Process.isValid (process : Process) : Bool := process.nbdDevToDisconnect.isSome

/-- An exception of the constructor runs no destructor, and the history notes whether the variable is as before. -/
def Process.threw (before now : Process) : Process :=
  { now with restored := before.restored && decide (now.nbdDevToDisconnect = before.nbdDevToDisconnect) }

/-- The constructor makes its checked calls in order and throws at the failed one. -/
def Process.construct (before : Process) (first second device : Nat) (fails : Option Checked) : Process :=
  if fails = some .socketpair then before.threw before
  else
    let paired := { before with opened := before.opened ++ [first, second] }
    if fails = some .openDevice then before.threw paired
    else
      let connected := { paired with opened := paired.opened ++ [device] }
      if fails = some .setSize ∨ fails = some .clearSock then before.threw connected
      else
        let chosen := { connected with nbdDevToDisconnect := some device }
        if fails = some .sigemptyset ∨ fails = some .sigaddset then before.threw chosen
        else
          let handled := { chosen with handler := true }
          if fails = some .pthreadCreate ∨ fails = some .pthreadDetach then before.threw handled
          else { handled with proxies := handled.proxies ++ [⟨(first, second), device, false⟩] }

/-- The destructor closes the three descriptors. -/
def Process.destroy (process : Process) (index : Nat) (proxy : LiveProxy) : Process :=
  { process with
    opened := process.opened.diff proxy.descriptors
    proxies := process.proxies.eraseIdx index }

/-- The handler disconnects the device of the variable, and the history notes a device of no live proxy. -/
def Process.disconnectNbd (process : Process) : Process :=
  { process with
    nbdDevToDisconnect := none
    proxies := process.proxies.map fun proxy => { proxy with interrupted := true }
    strays := process.strays ++ process.nbdDevToDisconnect.toList.filter fun device =>
      decide (device ∉ process.proxies.map LiveProxy.mNbdFd) }

/-- The program constructs or destroys a proxy, or a signal arrives. -/
inductive LifecycleEvent where
  | construct (first second device : Nat) (fails : Option Checked)
  | destroy (index : Nat)
  | sigint
  deriving DecidableEq, Repr

/-- The system gives descriptors that are not open, and a signal without the handler ends the process. -/
def Process.step (process : Process) : LifecycleEvent → Option Process
  | .construct first second device fails =>
      if (process.opened ++ [first, second, device]).Nodup then some (process.construct first second device fails)
      else none
  | .destroy index => (process.proxies[index]?).map (process.destroy index)
  | .sigint => if process.handler then some process.disconnectNbd else none

/-- The variable names a live device, the open descriptors are those of the live proxies, and `IsValid` is exact. -/
structure Process.InOrder (process : Process) : Prop where
  target : ∀ device, process.nbdDevToDisconnect = some device → device ∈ process.proxies.map LiveProxy.mNbdFd
  descriptors : process.opened ~ process.proxies.flatMap LiveProxy.descriptors
  valid : ∀ proxy ∈ process.proxies, process.isValid = !proxy.interrupted
  restored : process.restored = true
  strays : process.strays = []

/-- A construction succeeds while the live proxies are valid or fails at once, and the chosen device stays. -/
def Process.Careful (process : Process) : LifecycleEvent → Prop
  | .construct _ _ _ none => process.proxies ≠ [] → process.isValid = true
  | .construct _ _ _ (some call) => call = .socketpair
  | .destroy index => ∀ proxy, process.proxies[index]? = some proxy → process.nbdDevToDisconnect ≠ some proxy.mNbdFd
  | .sigint => True

section
variable {process next : Process} {first second device : Nat}

/-- A successful constructor opens the three descriptors and chooses its device. -/
theorem construct_none (process : Process) (first second device : Nat) :
    process.construct first second device none =
      { process with
        nbdDevToDisconnect := some device
        handler := true
        opened := process.opened ++ [first, second] ++ [device]
        proxies := process.proxies ++ [⟨(first, second), device, false⟩] } := rfl

/-- A failure of the first call leaves the process as it was. -/
theorem construct_socketpair (process : Process) (first second device : Nat) :
    process.construct first second device (some .socketpair) = process := by
  simp [Process.construct, Process.threw]

/-- A failure of a later call leaves descriptors open that belong to no proxy. -/
theorem construct_leaks {call : Checked} (later : call ≠ .socketpair) (process : Process)
    (first second device : Nat) :
    (process.construct first second device (some call)).proxies = process.proxies ∧
      process.opened.length < (process.construct first second device (some call)).opened.length := by
  cases call with
  | socketpair => exact absurd rfl later
  | openDevice => simp [Process.construct, Process.threw]
  | setSize => simp [Process.construct, Process.threw]
  | clearSock => simp [Process.construct, Process.threw]
  | sigemptyset => simp [Process.construct, Process.threw]
  | sigaddset => simp [Process.construct, Process.threw]
  | pthreadCreate => simp [Process.construct, Process.threw]
  | pthreadDetach => simp [Process.construct, Process.threw]

/-- Each constructor opens a part of the three given descriptors. -/
theorem construct_opened (process : Process) (first second device : Nat) (fails : Option Checked) :
    (process.construct first second device fails).opened <+ process.opened ++ [first, second, device] := by
  have paired : process.opened ++ [first, second] <+ process.opened ++ [first, second, device] :=
    (List.Sublist.refl _).append (by simp)
  unfold Process.construct
  split_ifs
  · exact List.sublist_append_left _ _
  · exact paired
  all_goals simp [Process.threw]

/-- The open descriptors without those of one proxy are those of the others. -/
theorem destroy_descriptors {index : Nat} {proxy : LiveProxy} (present : process.proxies[index]? = some proxy)
    (order : process.opened ~ process.proxies.flatMap LiveProxy.descriptors) :
    process.opened ~ proxy.descriptors ++ (process.proxies.eraseIdx index).flatMap LiveProxy.descriptors := by
  obtain ⟨inside, rfl⟩ := List.getElem?_eq_some_iff.mp present
  have moved := (List.getElem_cons_eraseIdx_perm inside).flatMap_right LiveProxy.descriptors
  exact order.trans moved.symm

/-- A successful construction keeps the order exactly when the live proxies are valid. -/
theorem inOrder_construct_iff (order : process.InOrder) :
    (process.construct first second device none).InOrder ↔ (process.proxies ≠ [] → process.isValid = true) := by
  rw [construct_none]
  constructor
  · intro after some
    obtain ⟨proxy, member⟩ := List.exists_mem_of_ne_nil _ some
    have fresh := after.valid proxy (List.mem_append_left _ member)
    exact (order.valid proxy member).trans fresh.symm
  · intro valid
    refine ⟨?_, ?_, ?_, order.restored, order.strays⟩
    · rintro chosen ⟨⟩
      simp
    · rw [List.append_assoc, List.flatMap_append]
      exact order.descriptors.append_right [first, second, device]
    · intro proxy member
      rcases List.mem_append.mp member with earlier | new
      · rw [← order.valid proxy earlier, valid (List.ne_nil_of_mem earlier)]
        rfl
      · obtain rfl := List.mem_singleton.mp new
        rfl

/-- A failed construction keeps the order exactly when its first call failed. -/
theorem inOrder_failed_iff (order : process.InOrder) (call : Checked) :
    (process.construct first second device (some call)).InOrder ↔ call = .socketpair := by
  constructor
  · intro after
    by_contra later
    obtain ⟨proxies, longer⟩ := construct_leaks later process first second device
    have before := order.descriptors.length_eq
    have now := after.descriptors.length_eq
    rw [proxies] at now
    omega
  · rintro rfl
    rwa [construct_socketpair]

/-- A destruction keeps the order exactly when the variable names another device. -/
theorem inOrder_destroy_iff (order : process.InOrder) (distinct : process.opened.Nodup) {index : Nat}
    {proxy : LiveProxy} (present : process.proxies[index]? = some proxy) :
    (process.destroy index proxy).InOrder ↔ process.nbdDevToDisconnect ≠ some proxy.mNbdFd := by
  have split := destroy_descriptors present order.descriptors
  constructor
  · intro after named
    -- the descriptors of different live proxies differ, so that no other proxy has the closed device
    obtain ⟨other, member, same⟩ := List.mem_map.mp (after.target proxy.mNbdFd named)
    have apart := (List.nodup_append.mp (split.nodup_iff.mp distinct)).2.2
    apply apart proxy.mNbdFd (by simp [LiveProxy.descriptors]) other.mNbdFd _ same.symm
    exact List.mem_flatMap.mpr ⟨other, member, by simp [LiveProxy.descriptors]⟩
  · intro other
    refine ⟨?_, ?_, ?_, order.restored, order.strays⟩
    · intro chosen named
      obtain ⟨inside, rfl⟩ := List.getElem?_eq_some_iff.mp present
      have member := order.target chosen named
      rw [← ((List.getElem_cons_eraseIdx_perm inside).map LiveProxy.mNbdFd).mem_iff, List.map_cons] at member
      rcases List.mem_cons.mp member with rfl | remains
      · exact absurd named other
      · exact remains
    · have closed (rest : List Nat) : (proxy.descriptors ++ rest).diff proxy.descriptors = rest := by
        simp [LiveProxy.descriptors, List.diff_cons]
      have remaining := split.diff_right proxy.descriptors
      rwa [closed] at remaining
    · intro remaining member
      exact order.valid remaining (List.mem_of_mem_eraseIdx member)

/-- A signal keeps the order. -/
theorem inOrder_disconnectNbd (order : process.InOrder) : process.disconnectNbd.InOrder := by
  refine ⟨?_, ?_, ?_, order.restored, ?_⟩
  · rintro chosen ⟨⟩
  · have same : process.disconnectNbd.proxies.flatMap LiveProxy.descriptors =
        process.proxies.flatMap LiveProxy.descriptors := List.flatMap_map ..
    rw [same]
    exact order.descriptors
  · intro proxy member
    obtain ⟨earlier, -, rfl⟩ := List.mem_map.mp member
    rfl
  · show process.strays ++ _ = []
    rw [order.strays, List.nil_append, List.filter_eq_nil_iff]
    intro chosen named
    simpa using order.target chosen (Option.mem_toList.mp named)

/-- One operation keeps the order exactly when it is careful. -/
theorem inOrder_iff_careful (order : process.InOrder) (distinct : process.opened.Nodup) {event : LifecycleEvent}
    (stepped : process.step event = some next) : next.InOrder ↔ process.Careful event := by
  cases event with
  | construct first second device fails =>
      simp only [Process.step, Option.ite_none_right_eq_some, Option.some.injEq] at stepped
      obtain ⟨-, rfl⟩ := stepped
      cases fails with
      | none => exact inOrder_construct_iff order
      | some call => exact inOrder_failed_iff order call
  | destroy index =>
      obtain ⟨proxy, present, rfl⟩ := Option.map_eq_some_iff.mp stepped
      rw [inOrder_destroy_iff order distinct present, Process.Careful, present]
      simp only [Option.some.injEq, forall_eq']
  | sigint =>
      simp only [Process.step, Option.ite_none_right_eq_some, Option.some.injEq] at stepped
      obtain ⟨-, rfl⟩ := stepped
      exact iff_of_true (inOrder_disconnectNbd order) trivial

/-- Each operation keeps the open descriptors distinct. -/
theorem nodup_of_step (distinct : process.opened.Nodup) {event : LifecycleEvent}
    (stepped : process.step event = some next) : next.opened.Nodup := by
  cases event with
  | construct first second device fails =>
      simp only [Process.step, Option.ite_none_right_eq_some, Option.some.injEq] at stepped
      obtain ⟨fresh, rfl⟩ := stepped
      exact fresh.sublist (construct_opened process first second device fails)
  | destroy index =>
      obtain ⟨proxy, -, rfl⟩ := Option.map_eq_some_iff.mp stepped
      exact distinct.sublist (List.diff_sublist _ _)
  | sigint =>
      simp only [Process.step, Option.ite_none_right_eq_some, Option.some.injEq] at stepped
      obtain ⟨-, rfl⟩ := stepped
      exact distinct

end

theorem inOrder_initial : Process.initial.InOrder :=
  ⟨nofun, List.Perm.refl _, nofun, rfl, rfl⟩

/-- The proxies stay in order throughout a run exactly when each operation of the run is careful. -/
theorem inOrder_iff_meets_careful {events : List LifecycleEvent} {final : Process}
    (reached : run Process.step Process.initial events = some final) :
    Throughout Process.step Process.InOrder Process.initial events ↔
      Meets Process.step Process.Careful Process.initial events := by
  have decided (process : Process) (event : LifecycleEvent) (next : Process)
      (sound : process.InOrder ∧ process.opened.Nodup) (stepped : process.step event = some next) :
      next.InOrder ↔ process.Careful event := inOrder_iff_careful sound.1 sound.2 stepped
  have kept (process : Process) (event : LifecycleEvent) (next : Process)
      (sound : process.InOrder ∧ process.opened.Nodup) (order : next.InOrder)
      (stepped : process.step event = some next) : next.InOrder ∧ next.opened.Nodup :=
    ⟨order, nodup_of_step sound.2 stepped⟩
  exact throughout_iff_meets decided kept ⟨inOrder_initial, List.nodup_nil⟩ reached

/-- Two proxies are constructed, the first one is destroyed, and a signal disconnects the second one. -/
theorem firstDestroyed_iff : Throughout Process.step Process.InOrder Process.initial
    [.construct 3 4 5 none, .construct 6 7 8 none, .destroy 0, .sigint] ↔
      Meets Process.step Process.Careful Process.initial
        [.construct 3 4 5 none, .construct 6 7 8 none, .destroy 0, .sigint] := by
  obtain ⟨final, reached⟩ : ∃ final, run Process.step Process.initial
      [.construct 3 4 5 none, .construct 6 7 8 none, .destroy 0, .sigint] = some final :=
    Option.isSome_iff_exists.mp (by decide)
  exact inOrder_iff_meets_careful reached

/-- The only proxy is destroyed, and then the handler disconnects its closed descriptor. -/
theorem onlyDestroyed_strays : ∃ final, run Process.step Process.initial
    [.construct 3 4 5 none, .destroy 0, .sigint] = some final ∧ final.strays = [5] ∧
      ¬ Throughout Process.step Process.InOrder Process.initial [.construct 3 4 5 none, .destroy 0, .sigint] := by
  refine ⟨⟨none, true, [], [], true, [5]⟩, by decide, rfl, ?_⟩
  intro throughout
  obtain ⟨-, later⟩ := throughout _ rfl
  obtain ⟨destroyed, -⟩ := later _ rfl
  have member := destroyed.target 5 (by decide)
  exact absurd member (by decide)

end DistributedNas.Proxy
