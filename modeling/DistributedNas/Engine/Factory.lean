import DistributedNas.Proxy.Framing

/-
This file models the factory of request handlers and the routing of requests to them.
-/

namespace DistributedNas.Engine
open Library Posix Proxy

/-- The factory maps each key to one creation function. -/
structure Factory (Key Function : Type*) where
  mMap : List (Key × Function)
  unique : (mMap.map Prod.fst).Nodup

section
variable {Key Function : Type*} [DecidableEq Key]

/-- A new factory has no creation function. -/
def Factory.empty : Factory Key Function := ⟨[], List.nodup_nil⟩

/-- The search of the map gives no function when it reaches the past-the-end iterator. -/
def Factory.find (factory : Factory Key Function) (key : Key) : Option Function :=
  factory.mMap.lookup key

/-- The insertion keeps an existing entry and says whether it added a new one. -/
def Factory.add (factory : Factory Key Function) (key : Key) (createFunc : Function) :
    Factory Key Function × Bool :=
  if fresh : factory.find key = none then
    (⟨factory.mMap ++ [(key, createFunc)], by
      have absent := List.lookup_eq_none_iff.mp fresh
      rw [List.map_append, List.nodup_append]
      refine ⟨factory.unique, by simp, fun first inside second last => ?_⟩
      obtain rfl : second = key := by simpa using last
      obtain ⟨entry, member, rfl⟩ := List.mem_map.mp inside
      exact fun same => by simpa [same] using absent entry member⟩, true)
  else (factory, false)

/-- This function makes a sequence of `Add` calls. -/
def Factory.addAll (factory : Factory Key Function) : List (Key × Function) → Factory Key Function
  | [] => factory
  | entry :: later => (factory.add entry.1 entry.2).1.addAll later

/-- An `Add` with a known key returns false and changes nothing. -/
theorem Factory.add_known {factory : Factory Key Function} {key : Key} {first : Function}
    (known : factory.find key = some first) (createFunc : Function) :
    factory.add key createFunc = (factory, false) := by
  rw [add, dif_neg (by simp [known])]

/-- A search after an `Add` finds the old entry or else the added one. -/
theorem Factory.find_add (factory : Factory Key Function) (key other : Key) (createFunc : Function) :
    (factory.add key createFunc).1.find other =
      (factory.find other).or (if other = key then some createFunc else none) := by
  unfold add
  split
  · next fresh =>
      simp only [find, List.lookup_append, List.lookup_cons, List.lookup_nil]
      by_cases same : other = key
      · subst same
        simp
      · have different : (other == key) = false := by simpa using same
        simp [different, same]
  · next known =>
      cases found : factory.find other with
      | some first => rfl
      | none =>
          have different : other ≠ key := fun same => known (same ▸ found)
          simp [different]

/-- A search after a sequence of `Add` calls finds the first entry of its key. -/
theorem Factory.find_addAll (factory : Factory Key Function) (entries : List (Key × Function)) (key : Key) :
    (factory.addAll entries).find key = (factory.find key).or (entries.lookup key) := by
  induction entries generalizing factory with
  | nil => simp [addAll]
  | cons entry later ih =>
      obtain ⟨name, createFunc⟩ := entry
      rw [addAll, ih, find_add, Option.or_assoc, List.lookup_cons]
      congr 1
      by_cases same : key = name
      · simp [same]
      · have different : (key == name) = false := by simpa using same
        simp [different, same]

theorem Factory.find_empty_addAll (entries : List (Key × Function)) (key : Key) :
    ((Factory.empty : Factory Key Function).addAll entries).find key = entries.lookup key := by
  rw [find_addAll]
  rfl

end

/-- A received request ends in the creation function it runs or in one of two undefined accesses. -/
inductive Routing (Function : Type*) where
  | nullRequest
  | pastTheEnd
  | runs (createFunc : Function)
  deriving DecidableEq, Repr

/-- `RETask::operator()` looks up the type of its request and calls what the iterator points at. -/
def create {Function : Type*} (factory : Factory Int32 Function) (request : Request) : Routing Function :=
  match factory.find request.mType with
  | none => .pastTheEnd
  | some createFunc => .runs createFunc

/-- The callback dereferences its argument and its task looks up the handler. -/
def route {Function : Type*} (factory : Factory Int32 Function) : CallbackArgument → Routing Function
  | .null => .nullRequest
  | .plain request => create factory request
  | .readWrite request => create factory request.toRequest

/-- The registrations use the command codes as host-order `int` keys. -/
def keyOf (type : UInt32) : Int32 := Int32.ofInt type.toNat

section
variable {Function : Type*}

/-- A request of a known type runs the first function added for it, and no access is undefined. -/
structure RoutesToFirst (adds : List (Int32 × Function)) (type : UInt32) (outcome : Routing Function) :
    Prop where
  first : type = nbdCmdRead ∨ type = nbdCmdWrite ∨ type = nbdCmdDisc →
    ∀ createFunc, adds.lookup (keyOf type) = some createFunc → outcome = .runs createFunc
  later : ∀ before key createFunc after, adds = before ++ (key, createFunc) :: after →
    (before.lookup key).isSome →
      (Factory.empty.addAll before).add key createFunc = (Factory.empty.addAll before, false)
  notNull : outcome ≠ .nullRequest
  notPastTheEnd : outcome ≠ .pastTheEnd

/-- This is the `int` that the bytes of the disconnect code make on a little-endian host. -/
def swappedDisc : Int32 := 33554432

/-- The lookup succeeds for a registered read or write, or for a disconnect under the swapped key. -/
def RoutesWhen (adds : List (Int32 × Function)) (type : UInt32) : Prop :=
  ((type = nbdCmdRead ∨ type = nbdCmdWrite) ∧ (adds.lookup (keyOf type)).isSome) ∨
    (type = nbdCmdDisc ∧ ∃ createFunc, adds.lookup swappedDisc = some createFunc ∧
      ∀ registered, adds.lookup (keyOf nbdCmdDisc) = some registered → registered = createFunc)

/-- The bytes of a word whose conversion is the disconnect code make the swapped number. -/
theorem type_of_ntohl_disc {value : UInt32} (isDisc : ntohl .littleEndian value = nbdCmdDisc) :
    Int32.ofInt value.toNat = swappedDisc := by
  have swapped := congrArg UInt32.toNat isDisc
  have fits : byteSwap 4 value.toNat < 2 ^ 32 := byteSwap_lt 4 value.toNat
  simp only [ntohl, htonl, UInt32.toNat_ofNat', Nat.mod_eq_of_lt fits] at swapped
  have whole := byteSwap_byteSwap 4 value.toNat_lt
  rw [swapped] at whole
  rw [← whole]
  decide

theorem route_readWrite (adds : List (Int32 × Function)) (nbdr : NbdRequest) (data : Buffer)
    (isReadWrite : ntohl .littleEndian nbdr.type = nbdCmdRead ∨ ntohl .littleEndian nbdr.type = nbdCmdWrite) :
    route (Factory.empty.addAll adds) (makeRequest .littleEndian nbdr data) =
      match adds.lookup (keyOf (ntohl .littleEndian nbdr.type)) with
      | none => .pastTheEnd
      | some createFunc => .runs createFunc := by
  have argument : makeRequest .littleEndian nbdr data = .readWrite (.ofHeader .littleEndian nbdr data) := by
    unfold makeRequest
    rcases isReadWrite with isRead | isWrite
    · rw [if_pos isRead]
    · rw [if_neg (by rw [isWrite]; decide), if_pos isWrite]
  rw [argument, route, create, Factory.find_empty_addAll]
  rfl

theorem route_disc (adds : List (Int32 × Function)) (nbdr : NbdRequest) (data : Buffer)
    (isDisc : ntohl .littleEndian nbdr.type = nbdCmdDisc) :
    route (Factory.empty.addAll adds) (makeRequest .littleEndian nbdr data) =
      match adds.lookup swappedDisc with
      | none => .pastTheEnd
      | some createFunc => .runs createFunc := by
  have argument : makeRequest .littleEndian nbdr data = .plain ⟨Int32.ofInt nbdr.type.toNat⟩ := by
    unfold makeRequest
    rw [if_neg (by rw [isDisc]; decide), if_neg (by rw [isDisc]; decide), if_pos isDisc]
  rw [argument, route, create, Factory.find_empty_addAll, type_of_ntohl_disc isDisc]

theorem route_unknown (adds : List (Int32 × Function)) (nbdr : NbdRequest) (data : Buffer)
    (notRead : ntohl .littleEndian nbdr.type ≠ nbdCmdRead) (notWrite : ntohl .littleEndian nbdr.type ≠ nbdCmdWrite)
    (notDisc : ntohl .littleEndian nbdr.type ≠ nbdCmdDisc) :
    route (Factory.empty.addAll adds) (makeRequest .littleEndian nbdr data) = .nullRequest := by
  rw [makeRequest, if_neg notRead, if_neg notWrite, if_neg notDisc, route]

/-- Later `Add` calls with a known key are refused in each sequence. -/
theorem add_refused {before : List (Int32 × Function)} {key : Int32} (known : (before.lookup key).isSome)
    (createFunc : Function) :
    (Factory.empty.addAll before).add key createFunc = (Factory.empty.addAll before, false) := by
  obtain ⟨first, found⟩ := Option.isSome_iff_exists.mp known
  exact Factory.add_known (by rw [Factory.find_empty_addAll, found]) createFunc

/-- A request is routed as its type asks exactly when the lookup key was registered for it. -/
theorem routesToFirst_iff (adds : List (Int32 × Function)) (nbdr : NbdRequest) (data : Buffer) :
    RoutesToFirst adds (ntohl .littleEndian nbdr.type)
        (route (Factory.empty.addAll adds) (makeRequest .littleEndian nbdr data)) ↔
      RoutesWhen adds (ntohl .littleEndian nbdr.type) := by
  by_cases isReadWrite : ntohl .littleEndian nbdr.type = nbdCmdRead ∨
      ntohl .littleEndian nbdr.type = nbdCmdWrite
  · have routed := route_readWrite adds nbdr data isReadWrite
    have notDisc : ntohl .littleEndian nbdr.type ≠ nbdCmdDisc := by
      rcases isReadWrite with same | same <;> rw [same] <;> decide
    cases found : adds.lookup (keyOf (ntohl .littleEndian nbdr.type)) with
    | none =>
        rw [found] at routed
        refine ⟨fun correct => absurd routed correct.notPastTheEnd, fun condition => ?_⟩
        simp [RoutesWhen, found, notDisc] at condition
    | some createFunc =>
        rw [found] at routed
        refine ⟨fun _ => Or.inl ⟨isReadWrite, by rw [found]; rfl⟩, fun _ => ?_⟩
        rw [routed]
        refine ⟨fun _ other same => ?_, fun _ _ other _ _ known => add_refused known other, by simp, by simp⟩
        rw [found, Option.some.injEq] at same
        rw [same]
  · by_cases isDisc : ntohl .littleEndian nbdr.type = nbdCmdDisc
    · have routed := route_disc adds nbdr data isDisc
      cases found : adds.lookup swappedDisc with
      | none =>
          rw [found] at routed
          refine ⟨fun correct => absurd routed correct.notPastTheEnd, fun condition => ?_⟩
          simp [RoutesWhen, found, isReadWrite] at condition
      | some createFunc =>
          rw [found] at routed
          constructor
          · intro correct
            right
            refine ⟨isDisc, createFunc, found, fun registered same => ?_⟩
            have runs := correct.first (Or.inr (Or.inr isDisc)) registered (by rw [isDisc, same])
            rw [routed, Routing.runs.injEq] at runs
            exact runs.symm
          · intro condition
            obtain ⟨_, other, same, agree⟩ := condition.resolve_left fun readWrite => isReadWrite readWrite.1
            rw [found, Option.some.injEq] at same
            subst same
            rw [routed]
            refine ⟨fun _ registered known => ?_, fun _ _ other _ _ known => add_refused known other,
              by simp, by simp⟩
            rw [isDisc] at known
            rw [agree registered known]
    · have unknown := not_or.mp isReadWrite
      have routed := route_unknown adds nbdr data unknown.1 unknown.2 isDisc
      refine ⟨fun correct => absurd routed correct.notNull, fun condition => ?_⟩
      simp [RoutesWhen, isReadWrite, isDisc] at condition

end

/-- These are the creation functions of the shipped server. -/
inductive Handler where
  | read
  | write
  | disc
  deriving DecidableEq, Repr

/-- These are the registrations of the shipped server. -/
def shippedAdds : List (Int32 × Handler) :=
  [(keyOf nbdCmdWrite, .write), (keyOf nbdCmdDisc, .disc), (keyOf nbdCmdRead, .read)]

/-- This header holds the disconnect code in network order. -/
def discHeader : NbdRequest := ⟨0, htonl .littleEndian nbdCmdDisc, Vector.replicate 8 0, 0, 0⟩

/-- A registered disconnect request dereferences the past-the-end iterator. -/
theorem routesToFirst_disc_fails :
    ntohl .littleEndian discHeader.type = nbdCmdDisc ∧
      shippedAdds.lookup (keyOf nbdCmdDisc) = some .disc ∧
      route (Factory.empty.addAll shippedAdds) (makeRequest .littleEndian discHeader fun _ => 0) = .pastTheEnd ∧
      ¬RoutesToFirst shippedAdds (ntohl .littleEndian discHeader.type)
        (route (Factory.empty.addAll shippedAdds) (makeRequest .littleEndian discHeader fun _ => 0)) := by
  have routed : route (Factory.empty.addAll shippedAdds) (makeRequest .littleEndian discHeader fun _ => 0) =
      .pastTheEnd := by
    rw [route_disc shippedAdds discHeader _ (by decide)]
    rfl
  exact ⟨by decide, rfl, routed, fun correct => correct.notPastTheEnd routed⟩

end DistributedNas.Engine
