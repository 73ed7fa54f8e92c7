import DistributedNas.Library.OrderedMap
import DistributedNas.Library.Transition

/-
This file models the loop of `RequestEngine::Run` over the registered devices.
-/

namespace DistributedNas.Engine
open Library

/-- A device is registered under its file descriptor. -/
abbrev Resource (Device : Type*) := Int × Device

/-- `AddResource` inserts the device into the map of the engine. -/
def addResources {Device : Type*} (devices : List (Resource Device)) : OrderedMap Int Device :=
  devices.foldl OrderedMap.insert .empty

/-- A descriptor set has room for this many descriptors. -/
def fdSetSize : Nat := 1024

/-- A descriptor set has one bit for each descriptor in its range. -/
abbrev FdSet := Fin fdSetSize → Bool

/-- `FD_ZERO` clears each bit. -/
def FdSet.zero : FdSet := fun _ => false

/-- `FD_SET` is undefined outside the range of the set. -/
def FdSet.set (fds : FdSet) (fd : Int) : Option FdSet :=
  if 0 ≤ fd ∧ fd < fdSetSize then some fun index => fds index || ((index.val : Int) == fd) else none

/-- `FD_ISSET` tests the bit of a descriptor. -/
def FdSet.isSet (fds : FdSet) (fd : Int) : Bool :=
  if range : 0 ≤ fd ∧ fd < fdSetSize then fds ⟨fd.toNat, by omega⟩ else false

/-- One call of `select` succeeds or fails while some descriptors are readable. -/
structure Poll where
  succeeds : Bool
  readable : Int → Bool

/-- A successful call replaces the set by its ready part below `nfds`, and a failed call leaves the set. -/
def select (nfds : Int) (fds : FdSet) (poll : Poll) : FdSet :=
  if poll.succeeds then
    fun index => fds index && decide ((index.val : Int) < nfds) && poll.readable index.val
  else fds

/-- The first loop of `Run` puts one descriptor into the set and overwrites the bound. -/
def register {Device : Type*} (prepared : Int × FdSet) (entry : Resource Device) : Option (Int × FdSet) :=
  (prepared.2.set entry.1).map fun master => (entry.1 + 1, master)

/-- One iteration passes a bound and a set to `select` and then calls `OnSocketReady` on these devices. -/
structure Iteration (Device : Type*) where
  nfds : Int
  passed : FdSet
  called : List (Resource Device)

/-- The second loop of `Run` passes the same set to `select` again and again. -/
def iterations {Device : Type*} (entries : List (Resource Device)) (biggestFd : Int) :
    FdSet → List Poll → List (Iteration Device)
  | _, [] => []
  | master, poll :: later =>
      let selected := select biggestFd master poll
      ⟨biggestFd, master, entries.filter fun entry => selected.isSet entry.1⟩ ::
        iterations entries biggestFd selected later

/-- `Run` prepares the set from the map and loops; it gives nothing where its behaviour is undefined. -/
def engineRun {Device : Type*} (devices : List (Resource Device)) (polls : List Poll) :
    Option (List (Iteration Device)) :=
  let entries := (addResources devices).entries
  (run register (0, FdSet.zero) entries).map fun prepared => iterations entries prepared.1 prepared.2 polls

section
variable {Device : Type*}

/-- An iteration waits for each registered device and calls exactly the readable ones. -/
structure Serves (devices : List (Resource Device)) (poll : Poll) (iteration : Iteration Device) : Prop where
  nfds : ∀ device ∈ devices, device.1 < iteration.nfds
  passed : ∀ device ∈ devices, iteration.passed.isSet device.1
  called : iteration.called.Perm (devices.filter fun device => poll.readable device.1)

/-- `Run` is defined, and each of its iterations serves the registered devices. -/
def ServesThroughout (devices : List (Resource Device)) (polls : List Poll) : Prop :=
  ∃ done, engineRun devices polls = some done ∧ List.Forall₂ (Serves devices) polls done

/-- Each registered device is readable. -/
def AllReadable (devices : List (Resource Device)) (poll : Poll) : Prop :=
  ∀ device ∈ devices, poll.readable device.1

/-- The set keeps its bits only while each device is readable at each call but the last. -/
structure KeepsServing (devices : List (Resource Device)) (polls : List Poll) : Prop where
  range : ∀ device ∈ devices, 0 ≤ device.1 ∧ device.1 < fdSetSize
  failed : ∀ poll ∈ polls, poll.succeeds = false → AllReadable devices poll
  earlier : ∀ poll ∈ polls.dropLast, AllReadable devices poll

theorem FdSet.set_eq_some {fds next : FdSet} {fd : Int} (defined : fds.set fd = some next) :
    (0 ≤ fd ∧ fd < fdSetSize) ∧ next.isSet fd ∧ ∀ other, fds.isSet other → next.isSet other := by
  unfold set at defined
  split at defined
  · next range =>
      obtain rfl := Option.some.inj defined
      refine ⟨range, ?_, fun other known => ?_⟩
      · simp [isSet, range]
      · unfold isSet at known ⊢
        split at known
        · next inside => simp [inside, known]
        · cases known
  · cases defined

theorem FdSet.exists_set (fds : FdSet) {fd : Int} (range : 0 ≤ fd ∧ fd < fdSetSize) :
    ∃ next, fds.set fd = some next :=
  ⟨_, if_pos range⟩

/-- The prepared set has each descriptor, and the bound exceeds each of them. -/
theorem register_spec {entries : List (Resource Device)} {prepared final : Int × FdSet}
    (sorted : entries.Pairwise fun first second => first.1 < second.1)
    (reached : run register prepared entries = some final) :
    ((∀ entry ∈ entries, prepared.1 ≤ entry.1 + 1) → prepared.1 ≤ final.1) ∧
      (∀ fd, prepared.2.isSet fd → final.2.isSet fd) ∧
      ∀ entry ∈ entries, (0 ≤ entry.1 ∧ entry.1 < fdSetSize) ∧ entry.1 < final.1 ∧
        final.2.isSet entry.1 := by
  induction entries generalizing prepared with
  | nil =>
      obtain rfl := Option.some.inj reached
      exact ⟨fun _ => le_rfl, fun _ known => known, by simp⟩
  | cons entry rest ih =>
      obtain ⟨next, stepped, continued⟩ := run_cons_eq_some.mp reached
      obtain ⟨master, defined, rfl⟩ := Option.map_eq_some_iff.mp stepped
      obtain ⟨least, tail⟩ := List.pairwise_cons.mp sorted
      obtain ⟨range, here, kept⟩ := FdSet.set_eq_some defined
      obtain ⟨above, later, all⟩ := ih tail continued
      have bounded : entry.1 + 1 ≤ final.1 :=
        above fun other member => by
          have before := least other member
          simp only
          omega
      refine ⟨fun bound => (bound entry List.mem_cons_self).trans bounded,
        fun fd known => later fd (kept fd known), fun other member => ?_⟩
      rcases List.mem_cons.mp member with rfl | inside
      · exact ⟨range, by omega, later _ here⟩
      · exact all other inside

/-- The preparation is defined when each descriptor is in the range of the set. -/
theorem exists_register {entries : List (Resource Device)}
    (range : ∀ entry ∈ entries, 0 ≤ entry.1 ∧ entry.1 < fdSetSize) (prepared : Int × FdSet) :
    ∃ final, run register prepared entries = some final := by
  induction entries generalizing prepared with
  | nil => exact ⟨prepared, rfl⟩
  | cons entry rest ih =>
      obtain ⟨master, defined⟩ := prepared.2.exists_set (range entry List.mem_cons_self)
      obtain ⟨final, continued⟩ :=
        ih (fun other member => range other (List.mem_cons_of_mem entry member)) (entry.1 + 1, master)
      refine ⟨final, run_cons_eq_some.mpr ⟨_, ?_, continued⟩⟩
      simp [register, defined]

/-- A descriptor in the passed set stays there when the call fails or the descriptor is readable. -/
theorem isSet_select {nfds fd : Int} {fds : FdSet} (poll : Poll) (known : fds.isSet fd) (below : fd < nfds) :
    (select nfds fds poll).isSet fd = (!poll.succeeds || poll.readable fd) := by
  unfold FdSet.isSet at known ⊢
  split at known
  · next range =>
      have same : ((fd.toNat : Nat) : Int) = fd := by omega
      cases succeeds : poll.succeeds <;> simp [select, succeeds, range, known, same, below]
  · cases known

section
variable {devices entries : List (Resource Device)} {nfds : Int} {master : FdSet}

/-- An iteration over the full set calls the readable devices unless `select` fails too early. -/
theorem serves_iff (registered : entries.Perm devices) (bound : ∀ device ∈ devices, device.1 < nfds)
    (full : ∀ device ∈ devices, master.isSet device.1) (poll : Poll) :
    Serves devices poll
        ⟨nfds, master, entries.filter fun entry => (select nfds master poll).isSet entry.1⟩ ↔
      (poll.succeeds = false → AllReadable devices poll) := by
  have selected : (entries.filter fun entry => (select nfds master poll).isSet entry.1).Perm
      (devices.filter fun device => !poll.succeeds || poll.readable device.1) := by
    refine (registered.filter _).trans (List.Perm.of_eq (List.filter_congr fun device member => ?_))
    exact isSet_select poll (full device member) (bound device member)
  constructor
  · rintro ⟨-, -, called⟩ failed
    have same := (selected.symm.trans called).length_eq
    simp only [failed, Bool.not_false, Bool.true_or, List.filter_true] at same
    exact fun device member => List.length_filter_eq_length_iff.mp same.symm device member
  · intro condition
    refine ⟨bound, full, selected.trans (List.Perm.of_eq (List.filter_congr fun device member => ?_))⟩
    cases succeeds : poll.succeeds with
    | true => simp
    | false => simp [condition succeeds device member]

/-- The loop serves the devices exactly while no call drops a device from the set. -/
theorem forall₂_iterations_iff (registered : entries.Perm devices)
    (bound : ∀ device ∈ devices, device.1 < nfds)
    (full : ∀ device ∈ devices, master.isSet device.1) (polls : List Poll) :
    List.Forall₂ (Serves devices) polls (iterations entries nfds master polls) ↔
      (∀ poll ∈ polls, poll.succeeds = false → AllReadable devices poll) ∧
        ∀ poll ∈ polls.dropLast, AllReadable devices poll := by
  induction polls generalizing master with
  | nil => simp [iterations]
  | cons poll later ih =>
      rw [iterations, List.forall₂_cons, serves_iff registered bound full]
      cases later with
      | nil => simp [iterations]
      | cons other rest =>
          by_cases readable : AllReadable devices poll
          · have next := @ih (select nfds master poll) fun device member => by
              rw [isSet_select poll (full device member) (bound device member), readable device member,
                Bool.or_true]
            rw [next]
            simp [readable]
          · refine iff_of_false ?_ fun condition => readable (condition.2 poll (by simp))
            rintro ⟨failed, following⟩
            rw [iterations, List.forall₂_cons] at following
            apply readable
            intro device member
            have passed := following.1.passed device member
            rw [isSet_select poll (full device member) (bound device member)] at passed
            cases succeeds : poll.succeeds with
            | true => simpa [succeeds] using passed
            | false => exact failed succeeds device member

end

/-- The engine serves distinct devices exactly as long as each call but the last finds all of them readable. -/
theorem servesThroughout_iff {devices : List (Resource Device)} (distinct : (devices.map Prod.fst).Nodup)
    (polls : List Poll) :
    ServesThroughout devices polls ↔ KeepsServing devices polls := by
  have registered : (addResources devices).entries.Perm devices :=
    OrderedMap.foldl_insert_perm .empty distinct
  have sorted := (addResources devices).sorted
  constructor
  · rintro ⟨done, completed, served⟩
    obtain ⟨final, reached, rfl⟩ := Option.map_eq_some_iff.mp completed
    have prepared := (register_spec sorted reached).2.2
    have ready := fun device member => prepared device (registered.mem_iff.mpr member)
    obtain ⟨failed, earlier⟩ := (forall₂_iterations_iff registered (fun device member => (ready device member).2.1)
      (fun device member => (ready device member).2.2) polls).mp served
    exact ⟨fun device member => (ready device member).1, failed, earlier⟩
  · rintro ⟨range, failed, earlier⟩
    obtain ⟨final, reached⟩ :=
      exists_register (fun entry member => range entry (registered.mem_iff.mp member)) (0, FdSet.zero)
    have prepared := (register_spec sorted reached).2.2
    have ready := fun device member => prepared device (registered.mem_iff.mpr member)
    refine ⟨_, Option.map_eq_some_iff.mpr ⟨final, reached, rfl⟩, ?_⟩
    exact (forall₂_iterations_iff registered (fun device member => (ready device member).2.1)
      (fun device member => (ready device member).2.2) polls).mpr ⟨failed, earlier⟩

end

/-- Two devices are registered, each under its own descriptor. -/
def twoResources : List (Resource Nat) := [(3, 0), (4, 1)]

/-- The engine serves two devices while both are readable at the first call. -/
theorem servesThroughout_two :
    ServesThroughout twoResources [⟨true, fun _ => true⟩, ⟨true, (· == 3)⟩] := by
  have distinct : (twoResources.map Prod.fst).Nodup := by decide
  refine (servesThroughout_iff distinct _).mpr ⟨?_, ?_, ?_⟩
  · decide
  · simp
  · simp [AllReadable]

/-- Descriptor 3 is readable at both calls, and descriptor 4 becomes readable at the second one. -/
def starvingPolls : List Poll := [⟨true, (· == 3)⟩, ⟨true, fun fd => fd == 3 || fd == 4⟩]

/-- The second call no longer waits for the device that was not readable at the first one. -/
theorem servesThroughout_two_fails :
    (twoResources.map Prod.fst).Nodup ∧ ¬ ServesThroughout twoResources starvingPolls := by
  refine ⟨by decide, ?_⟩
  rintro ⟨done, completed, served⟩
  obtain rfl := Option.some.inj completed
  have second := (List.forall₂_cons.mp (List.forall₂_cons.mp served).2).1.passed (4, 1) (by decide)
  revert second
  decide

end DistributedNas.Engine
