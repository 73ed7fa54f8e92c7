import DistributedNas.Buse.Main

/-
This file proves what `buse_main` asks of the device, what its exit code says, and that signals leave its answers alone.
-/

namespace DistributedNas.Buse
open Library Posix Proxy

section
variable {Device : Type*} {platform : Platform} {aop : BuseOperations Device} {sizes : DeviceSizes} {fresh : Buffer}
  {program next : Program Device} {start : Server Device}

/-- The places of the parent say which calls were made, and later parts of the program come after the whole setup. -/
structure Prepared (sizes : DeviceSizes) (start : Server Device) (program : Program Device) : Prop where
  left : ∀ later, program.parent.left sizes = some later →
    Succeeds sizes.setupCalls later (callsOf .setup program.ioctls) ∧ program.child = none ∧ program.handled = [] ∧
      program.server = start
  forked : program.parent.forked → Succeeds sizes.setupCalls [] (callsOf .setup program.ioctls)
  child : program.child ≠ none → Succeeds sizes.setupCalls [] (callsOf .setup program.ioctls)
  handled : program.handled ≠ [] → Succeeds sizes.setupCalls [] (callsOf .setup program.ioctls)
  served : program.server ≠ start → Succeeds sizes.setupCalls [] (callsOf .setup program.ioctls)
  unhandled : program.parent.unhandled → program.handled = []
  follows : Follows sizes.setupCalls (callsOf .setup program.ioctls)

/-- A place without success is none of those that the facts are about. -/
theorem ParentPc.Fails.plain {pc : ParentPc} (fails : pc.Fails) (sizes : DeviceSizes) :
    pc.left sizes = none ∧ pc.forked = false ∧ pc.unhandled = false ∧ pc.succeeded = false := by
  rcases fails with rfl | ⟨status, failed, rfl⟩ | ⟨signal, rfl⟩
  · exact ⟨rfl, rfl, rfl, rfl⟩
  · exact ⟨rfl, rfl, rfl, decide_eq_false failed⟩
  · exact ⟨rfl, rfl, rfl, rfl⟩

/-- The facts stay when only the place of the parent changes to one that they allow. -/
theorem Prepared.move (prepared : Prepared sizes start program) {pc : ParentPc}
    (left : ∀ later, pc.left sizes = some later → program.parent.left sizes = some later)
    (forked : pc.forked → program.parent.forked) (unhandled : pc.unhandled → program.parent.unhandled) :
    Prepared sizes start { program with parent := pc } where
  left later at_left := prepared.left later (left later at_left)
  forked at_fork := prepared.forked (forked at_fork)
  child := prepared.child
  handled := prepared.handled
  served := prepared.served
  unhandled early := prepared.unhandled (unhandled early)
  follows := prepared.follows

/-- A call of the child or of the handler leaves the calls of the setup. -/
theorem Prepared.ioctl (prepared : Prepared sizes start program) {caller : Caller} (other : caller ≠ .setup)
    (request : Ioctl) (succeeded : Bool) : Prepared sizes start (program.ioctl caller request succeeded) := by
  have same := callsOf_ioctl_other program other request succeeded
  constructor
  · intro later at_left
    rw [same]
    exact prepared.left later at_left
  · intro at_fork
    rw [same]
    exact prepared.forked at_fork
  · intro some
    rw [same]
    exact prepared.child some
  · intro some
    rw [same]
    exact prepared.handled some
  · intro moved
    rw [same]
    exact prepared.served moved
  · exact prepared.unhandled
  · rw [same]
    exact prepared.follows

/-- The child changes only after the fork. -/
theorem Prepared.withChild (prepared : Prepared sizes start program) (born : program.child ≠ none)
    (child : Option ChildPc) : Prepared sizes start { program with child := child } where
  left later at_left := absurd (prepared.left later at_left).2.1 born
  forked := prepared.forked
  child _ := prepared.child born
  handled := prepared.handled
  served := prepared.served
  unhandled := prepared.unhandled
  follows := prepared.follows

/-- The facts do not depend on the variable of the handler. -/
theorem Prepared.withDevice (prepared : Prepared sizes start program) (device : Bool) :
    Prepared sizes start { program with nbdDevToDisconnect := device } :=
  ⟨prepared.left, prepared.forked, prepared.child, prepared.handled, prepared.served, prepared.unhandled,
    prepared.follows⟩

/-- A call of the setup is the next one of its plan. -/
theorem Prepared.ask (prepared : Prepared sizes start program) {request : Ioctl} {later : List Ioctl}
    (atSetup : program.parent = .setup (request :: later)) (succeeded : Bool) {pc : ParentPc}
    (after : if succeeded then pc = .setup later else pc = .aborted) :
    Prepared sizes start { program.ioctl .setup request succeeded with parent := pc } := by
  have place : program.parent.left sizes = some (request :: later) := by
    rw [atSetup]
    rfl
  obtain ⟨made, child, handled, served⟩ := prepared.left _ place
  have asked : callsOf .setup (program.ioctl .setup request succeeded).ioctls =
      callsOf .setup program.ioctls ++ [(request, succeeded)] := callsOf_ioctl_same ..
  have early : pc.forked = false ∧ (pc.unhandled → program.handled = []) := by
    cases succeeded with
    | true =>
        obtain rfl : pc = .setup later := after
        exact ⟨rfl, fun _ => handled⟩
    | false =>
        obtain rfl : pc = .aborted := after
        exact ⟨rfl, fun _ => handled⟩
  constructor
  · intro rest at_left
    cases succeeded with
    | true =>
        obtain rfl : pc = .setup later := after
        obtain rfl : later = rest := Option.some.inj at_left
        rw [asked]
        exact ⟨made.next, child, handled, served⟩
    | false =>
        obtain rfl : pc = .aborted := after
        cases at_left
  · intro at_fork
    exact absurd (early.1.symm.trans at_fork) Bool.false_ne_true
  · intro born
    exact absurd child born
  · intro some
    exact absurd handled some
  · intro moved
    exact absurd served moved
  · exact early.2
  · rw [asked]
    cases succeeded with
    | true => exact made.next.follows
    | false => exact made.stop

/-- The fork comes after the whole setup. -/
theorem Prepared.fork (prepared : Prepared sizes start program) (atFork : program.parent = .setup [])
    (child : Option ChildPc) : Prepared sizes start { program with child := child, parent := .choose } := by
  have place : program.parent.left sizes = some [] := by
    rw [atFork]
    rfl
  obtain ⟨made, -, handled, served⟩ := prepared.left _ place
  constructor
  · intro later none
    cases none
  · exact fun _ => made
  · exact fun _ => made
  · exact fun _ => made
  · exact fun _ => made
  · exact fun _ => handled
  · exact made.follows

/-- A handler is registered after the whole setup. -/
theorem Prepared.install (prepared : Prepared sizes start program) {signal : Signal}
    (atHandle : program.parent = .handle signal) :
    Prepared sizes start
      { program with handled := signal :: program.handled, parent := .afterHandle signal } := by
  have made : Succeeds sizes.setupCalls [] (callsOf .setup program.ioctls) := by
    apply prepared.forked
    rw [atHandle]
    rfl
  constructor
  · intro later at_left
    cases signal <;> cases at_left
  · exact fun _ => made
  · exact fun _ => made
  · exact fun _ => made
  · exact fun _ => made
  · intro early
    cases signal <;> cases early
  · exact made.follows

/-- The server moves after the whole setup. -/
theorem Prepared.serve (prepared : Prepared sizes start program) (atServe : program.parent = .serve)
    (server : Server Device) : Prepared sizes start { program with server := server } := by
  have made : Succeeds sizes.setupCalls [] (callsOf .setup program.ioctls) := by
    apply prepared.forked
    rw [atServe]
    rfl
  constructor
  · intro later at_left
    rw [atServe] at at_left
    cases at_left
  · exact fun _ => made
  · exact fun _ => made
  · exact fun _ => made
  · exact fun _ => made
  · exact prepared.unhandled
  · exact made.follows

theorem Prepared.step (prepared : Prepared sizes start program)
    (moves : ProgramMoves platform aop sizes fresh program next) : Prepared sizes start next := by
  cases moves with
  | fail pc fails =>
      obtain ⟨left, forked, unhandled, -⟩ := fails.plain sizes
      apply prepared.move
      · intro later some
        rw [left] at some
        cases some
      · intro at_fork
        exact absurd (forked.symm.trans at_fork) Bool.false_ne_true
      · intro early
        exact absurd (unhandled.symm.trans early) Bool.false_ne_true
  | pair place =>
      apply prepared.move <;> rw [place]
      · exact fun later at_left => at_left
      · exact id
      · exact id
  | openDevice place =>
      apply prepared.move <;> rw [place]
      · exact fun later at_left => at_left
      · exact id
      · exact id
  | setup request later place => exact prepared.ask place true rfl
  | refused request later place => exact prepared.ask place false rfl
  | fork child place _ => exact prepared.fork place child
  | choose place =>
      apply (prepared.withDevice true).move
      · intro later none
        cases none
      · intro _
        rw [place]
        rfl
      · intro _
        rw [place]
        rfl
  | prepare place =>
      apply prepared.move
      · intro later none
        cases none
      · intro _
        rw [place]
        rfl
      · intro _
        rw [place]
        rfl
  | install signal place => exact prepared.install place
  | serve call server place _ => exact prepared.serve place server
  | wait place _ =>
      apply prepared.move
      · intro later none
        cases none
      · intro _
        rw [place]
        rfl
      · intro early
        cases early
  | reap ending place _ _ =>
      apply prepared.move
      · intro later none
        cases none
      · intro none
        cases none
      · intro early
        cases early
  | mask place => exact prepared.withChild (by rw [place]; exact Option.some_ne_none _) _
  | call request later place =>
      have told := prepared.ioctl (by decide : Caller.child ≠ .setup) request true
      exact told.withChild (by rw [Program.ioctl, place]; exact Option.some_ne_none _) _
  | failedCall request later place =>
      have told := prepared.ioctl (by decide : Caller.child ≠ .setup) request false
      exact told.withChild (by rw [Program.ioctl, place]; exact Option.some_ne_none _) _
  | exit place => exact prepared.withChild (by rw [place]; exact Option.some_ne_none _) _
  | stop pc ending place _ _ => exact prepared.withChild (by rw [place]; exact Option.some_ne_none _) _
  | disconnect succeeds _ _ =>
      exact (prepared.ioctl (by decide : Caller.handler ≠ .setup) .disconnect succeeds).withDevice _
  | ignore => exact prepared

/-- The calls of the setup come first, and other calls come only after a fork or a registration. -/
def SetupFirst (program : Program Device) : Prop :=
  ∃ before after, program.ioctls = before ++ after ∧ (∀ call ∈ before, call.caller = .setup) ∧
    (∀ call ∈ after, call.caller ≠ .setup) ∧ (after ≠ [] → program.child ≠ none ∨ program.handled ≠ [])

/-- The calls of the setup stay first when the child and the handlers remain. -/
theorem SetupFirst.keep (ordered : SetupFirst program) (same : next.ioctls = program.ioctls)
    (remains : program.child ≠ none ∨ program.handled ≠ [] → next.child ≠ none ∨ next.handled ≠ []) :
    SetupFirst next := by
  obtain ⟨before, after, split, setup, other, later⟩ := ordered
  exact ⟨before, after, same.trans split, setup, other, fun some => remains (later some)⟩

/-- A call of the child or of the handler comes last. -/
theorem SetupFirst.append (ordered : SetupFirst program) {caller : Caller} (other : caller ≠ .setup)
    {request : Ioctl} {succeeded : Bool} (same : next.ioctls = program.ioctls ++ [⟨caller, request, succeeded⟩])
    (remains : next.child ≠ none ∨ next.handled ≠ []) : SetupFirst next := by
  obtain ⟨before, after, split, setup, others, -⟩ := ordered
  refine ⟨before, after ++ [⟨caller, request, succeeded⟩], ?_, setup, ?_, fun _ => remains⟩
  · rw [same, split, List.append_assoc]
  · intro entry member
    rcases List.mem_append.mp member with earlier | last
    · exact others entry earlier
    · rw [List.mem_singleton.mp last]
      exact other

/-- A call of the setup comes before each fork and each registration. -/
theorem SetupFirst.ask (ordered : SetupFirst program) {call : DeviceCall} (setup : call.caller = .setup)
    (same : next.ioctls = program.ioctls ++ [call]) (child : program.child = none) (handled : program.handled = []) :
    SetupFirst next := by
  obtain ⟨before, after, split, setups, -, later⟩ := ordered
  obtain rfl : after = [] := by
    by_contra some
    rcases later some with born | raised
    · exact born child
    · exact raised handled
  refine ⟨before ++ [call], [], ?_, ?_, ?_, fun some => absurd rfl some⟩
  · rw [same, split, List.append_nil, List.append_nil]
  · intro entry member
    rcases List.mem_append.mp member with earlier | last
    · exact setups entry earlier
    · rw [List.mem_singleton.mp last]
      exact setup
  · intro entry none
    cases none

theorem SetupFirst.step (ordered : SetupFirst program) (prepared : Prepared sizes start program)
    (moves : ProgramMoves platform aop sizes fresh program next) : SetupFirst next := by
  have early {later : List Ioctl} (place : program.parent = .setup later) :
      program.child = none ∧ program.handled = [] := by
    obtain ⟨-, child, handled, -⟩ := prepared.left later (by rw [place]; rfl)
    exact ⟨child, handled⟩
  cases moves with
  | fail pc fails => exact ordered.keep rfl id
  | pair place => exact ordered.keep rfl id
  | openDevice place => exact ordered.keep rfl id
  | setup request later place => exact ordered.ask rfl rfl (early place).1 (early place).2
  | refused request later place => exact ordered.ask rfl rfl (early place).1 (early place).2
  | fork child place forks =>
      refine SetupFirst.keep ordered rfl ?_
      rintro (born | raised)
      · exact absurd (early place).1 born
      · exact .inr raised
  | choose place => exact ordered.keep rfl id
  | prepare place => exact ordered.keep rfl id
  | install signal place => exact ordered.keep rfl fun _ => .inr (List.cons_ne_nil _ _)
  | serve call server place _ => exact ordered.keep rfl id
  | wait place _ => exact ordered.keep rfl id
  | reap ending place _ _ => exact ordered.keep rfl id
  | mask place => exact ordered.keep rfl fun _ => .inl (Option.some_ne_none _)
  | call request later place => exact ordered.append (by decide) rfl (.inl (Option.some_ne_none _))
  | failedCall request later place => exact ordered.append (by decide) rfl (.inl (Option.some_ne_none _))
  | exit place => exact ordered.keep rfl fun _ => .inl (Option.some_ne_none _)
  | stop pc ending place _ _ => exact ordered.keep rfl fun _ => .inl (Option.some_ne_none _)
  | disconnect succeeds handles _ => exact ordered.append (by decide) rfl (.inr handles)
  | ignore => exact ordered

/-- A child that ended without success has followed its plan up to some place. -/
theorem Ending.made_of_follows {ending : Ending} {calls : List (Ioctl × Bool)} (follows : Follows childCalls calls)
    (fails : ending = .exited 1 ∨ ∃ signal core, signal < 128 ∧ ending = .killed signal core) :
    ending.Made calls := by
  rcases fails with rfl | ⟨signal, core, bound, rfl⟩
  · exact .inr ⟨rfl, follows⟩
  · exact ⟨bound, follows⟩

/-- Each place of the child stands in its plan. -/
theorem ChildPc.Made.follows {pc : ChildPc} {calls : List (Ioctl × Bool)} (made : pc.Made calls) :
    Follows childCalls calls := by
  rcases pc with _ | later | code | ⟨signal, core⟩
  · obtain rfl : calls = [] := made
    exact (succeeds_nil childCalls).follows
  · exact Succeeds.follows made
  · rcases made with ⟨-, succeeds⟩ | ⟨-, follows⟩
    · exact succeeds.follows
    · exact follows
  · exact made.2

/-- The child has made the calls up to its place, and no child has made none. -/
def ChildMade (program : Program Device) : Prop :=
  (program.child = none → callsOf .child program.ioctls = []) ∧
    ∀ pc, program.child = some pc → pc.Made (callsOf .child program.ioctls)

/-- Only the child and its calls matter. -/
theorem ChildMade.keep (made : ChildMade program) (child : next.child = program.child)
    (same : callsOf .child next.ioctls = callsOf .child program.ioctls) : ChildMade next := by
  rw [ChildMade, child, same]
  exact made

/-- A place of the child comes with the calls that it needs. -/
theorem childMade_some {pc : ChildPc} (child : next.child = some pc)
    (made : pc.Made (callsOf .child next.ioctls)) : ChildMade next := by
  constructor
  · intro none
    rw [child] at none
    cases none
  · intro other same
    obtain rfl : pc = other := Option.some.inj (child.symm.trans same)
    exact made

theorem ChildMade.step (made : ChildMade program) (prepared : Prepared sizes start program)
    (moves : ProgramMoves platform aop sizes fresh program next) : ChildMade next := by
  cases moves with
  | fail pc fails => exact made.keep rfl rfl
  | pair place => exact made.keep rfl rfl
  | openDevice place => exact made.keep rfl rfl
  | setup request later place => exact made.keep rfl (callsOf_ioctl_other program (by decide) request true)
  | refused request later place => exact made.keep rfl (callsOf_ioctl_other program (by decide) request false)
  | fork child place forks =>
      obtain ⟨-, unborn, -⟩ := prepared.left [] (by rw [place]; rfl)
      rcases forks with rfl | rfl
      · exact childMade_some rfl (made.1 unborn)
      · exact made.keep unborn.symm rfl
  | choose place => exact made.keep rfl rfl
  | prepare place => exact made.keep rfl rfl
  | install signal place => exact made.keep rfl rfl
  | serve call server place _ => exact made.keep rfl rfl
  | wait place _ => exact made.keep rfl rfl
  | reap ending place _ _ => exact made.keep rfl rfl
  | mask place =>
      apply childMade_some rfl
      rw [show callsOf .child program.ioctls = [] from made.2 _ place]
      exact succeeds_nil childCalls
  | call request later place =>
      have before : Succeeds childCalls (request :: later) (callsOf .child program.ioctls) := made.2 _ place
      apply childMade_some rfl
      rw [show callsOf .child _ = _ from callsOf_ioctl_same program .child request true]
      exact before.next
  | failedCall request later place =>
      have before : Succeeds childCalls (request :: later) (callsOf .child program.ioctls) := made.2 _ place
      apply childMade_some rfl
      rw [show callsOf .child _ = _ from callsOf_ioctl_same program .child request false]
      exact Ending.made_of_follows before.stop (.inl rfl)
  | exit place =>
      have before : Succeeds childCalls [] (callsOf .child program.ioctls) := made.2 _ place
      exact childMade_some rfl (.inl ⟨rfl, before⟩)
  | stop pc ending place _ fails => exact childMade_some rfl (Ending.made_of_follows (made.2 pc place).follows fails)
  | disconnect succeeds _ _ => exact made.keep rfl (callsOf_ioctl_other program (by decide) .disconnect succeeds)
  | ignore => exact made

/-- Without a handler there is no call of it, and a device that is still named was never disconnected. -/
structure Raised (program : Program Device) : Prop where
  quiet : program.handled = [] → callsOf .handler program.ioctls = []
  named : program.nbdDevToDisconnect = true → ∃ failures,
    callsOf .handler program.ioctls = List.replicate failures (.disconnect, false)
  once : ∃ failures, callsOf .handler program.ioctls = List.replicate failures (.disconnect, false) ∨
    callsOf .handler program.ioctls = List.replicate failures (.disconnect, false) ++ [(.disconnect, true)]

/-- Only the calls of the handler, the registered handlers, and the named device matter. -/
theorem Raised.keep (raised : Raised program) (same : callsOf .handler next.ioctls = callsOf .handler program.ioctls)
    (handled : next.handled = [] → program.handled = [])
    (named : next.nbdDevToDisconnect = true → program.nbdDevToDisconnect = true ∨ program.handled = []) :
    Raised next := by
  constructor
  · intro none
    rw [same]
    exact raised.quiet (handled none)
  · intro device
    rw [same]
    rcases named device with before | none
    · exact raised.named before
    · exact ⟨0, raised.quiet none⟩
  · rw [same]
    exact raised.once

/-- A successful disconnection takes the name of the device away. -/
theorem Raised.disconnect (raised : Raised program) (handles : program.handled ≠ [])
    (named : program.nbdDevToDisconnect = true) (succeeds : Bool) :
    Raised { program.ioctl .handler .disconnect succeeds with nbdDevToDisconnect := !succeeds } := by
  obtain ⟨failures, calls⟩ := raised.named named
  have asked : callsOf .handler (program.ioctl .handler .disconnect succeeds).ioctls =
      List.replicate failures (.disconnect, false) ++ [(.disconnect, succeeds)] := by
    rw [callsOf_ioctl_same, calls]
  have again : succeeds = false → callsOf .handler (program.ioctl .handler .disconnect succeeds).ioctls =
      List.replicate (failures + 1) (.disconnect, false) := by
    intro failed
    rw [asked, failed, List.replicate_succ']
  constructor
  · intro none
    exact absurd none handles
  · intro device
    exact ⟨failures + 1, again (by simpa using device)⟩
  · cases succeeds with
    | false => exact ⟨failures + 1, .inl (again rfl)⟩
    | true => exact ⟨failures, .inr asked⟩

theorem Raised.step (raised : Raised program) (prepared : Prepared sizes start program)
    (moves : ProgramMoves platform aop sizes fresh program next) : Raised next := by
  cases moves with
  | fail pc fails => exact raised.keep rfl id .inl
  | pair place => exact raised.keep rfl id .inl
  | openDevice place => exact raised.keep rfl id .inl
  | setup request later place => exact raised.keep (callsOf_ioctl_other program (by decide) request true) id .inl
  | refused request later place => exact raised.keep (callsOf_ioctl_other program (by decide) request false) id .inl
  | fork child place forks => exact raised.keep rfl id .inl
  | choose place => exact raised.keep rfl id fun _ => .inr (prepared.unhandled (by rw [place]; rfl))
  | prepare place => exact raised.keep rfl id .inl
  | install signal place => exact raised.keep rfl (fun none => absurd none (List.cons_ne_nil _ _)) .inl
  | serve call server place _ => exact raised.keep rfl id .inl
  | wait place _ => exact raised.keep rfl id .inl
  | reap ending place _ _ => exact raised.keep rfl id .inl
  | mask place => exact raised.keep rfl id .inl
  | call request later place => exact raised.keep (callsOf_ioctl_other program (by decide) request true) id .inl
  | failedCall request later place =>
      exact raised.keep (callsOf_ioctl_other program (by decide) request false) id .inl
  | exit place => exact raised.keep rfl id .inl
  | stop pc ending place _ _ => exact raised.keep rfl id .inl
  | disconnect succeeds handles named => exact raised.disconnect handles named succeeds
  | ignore => exact raised

/-- The parent waits after a successful service, and it succeeds after an ended child without an exit code. -/
structure Reported (program : Program Device) : Prop where
  waiting : program.parent = .waitChild → program.server.pc = .exit 0
  success : program.parent = .returned 0 → program.server.pc = .exit 0 ∧
    ∃ ending, program.child = some (.ended ending) ∧ wexitstatus ending.waitStatus = 0

/-- The report stands while the parent stays where it is, its server stays, and an ended child stays. -/
theorem Reported.keep (reported : Reported program) (parent : next.parent = program.parent)
    (server : next.server = program.server)
    (child : ∀ ending, program.child = some (.ended ending) → next.child = some (.ended ending)) : Reported next := by
  constructor
  · rw [parent, server]
    exact reported.waiting
  · rw [parent, server]
    intro returned
    obtain ⟨served, ending, ended, success⟩ := reported.success returned
    exact ⟨served, ending, child ending ended, success⟩

/-- At other places there is nothing to report. -/
theorem reported_of_not_succeeded (plain : next.parent.succeeded = false) : Reported next := by
  constructor
  · intro waiting
    rw [waiting] at plain
    cases plain
  · intro success
    rw [success] at plain
    cases plain

theorem Reported.step (reported : Reported program)
    (moves : ProgramMoves platform aop sizes fresh program next) : Reported next := by
  have alive {pc : ChildPc} (place : program.child = some pc) (running : ∀ other, pc ≠ .ended other)
      (child : Option ChildPc) : ∀ ending, program.child = some (.ended ending) → child = some (.ended ending) := by
    intro ending ended
    exact absurd (Option.some.inj (place.symm.trans ended)) (running ending)
  cases moves with
  | fail pc fails => exact reported_of_not_succeeded (fails.plain sizes).2.2.2
  | pair place => exact reported_of_not_succeeded rfl
  | openDevice place => exact reported_of_not_succeeded rfl
  | setup request later place => exact reported_of_not_succeeded rfl
  | refused request later place => exact reported_of_not_succeeded rfl
  | fork child place forks => exact reported_of_not_succeeded rfl
  | choose place => exact reported_of_not_succeeded rfl
  | prepare place => exact reported_of_not_succeeded rfl
  | install signal place =>
      apply reported_of_not_succeeded
      cases signal <;> rfl
  | serve call server place _ =>
      apply reported_of_not_succeeded
      rw [place]
      rfl
  | wait place ended =>
      constructor
      · exact fun _ => ended
      · intro same
        cases same
  | reap ending place ended success =>
      constructor
      · intro same
        cases same
      · exact fun _ => ⟨reported.waiting place, ending, ended, success⟩
  | mask place => exact reported.keep rfl rfl (alive place (by intro other same; cases same) _)
  | call request later place => exact reported.keep rfl rfl (alive place (by intro other same; cases same) _)
  | failedCall request later place => exact reported.keep rfl rfl (alive place (by intro other same; cases same) _)
  | exit place => exact reported.keep rfl rfl (alive place (by intro other same; cases same) _)
  | stop pc ending place running _ => exact reported.keep rfl rfl (alive place running _)
  | disconnect succeeds _ _ => exact reported.keep rfl rfl fun _ ended => ended
  | ignore => exact reported

/-- These facts hold throughout the program. -/
structure Directed (sizes : DeviceSizes) (start : Server Device) (program : Program Device) : Prop where
  prepared : Prepared sizes start program
  ordered : SetupFirst program
  child : ChildMade program
  raised : Raised program
  reported : Reported program

theorem directed_initial (sizes : DeviceSizes) (device : Device) (bytes : List UInt8) :
    Directed sizes (.initial device bytes) (.initial device bytes) where
  prepared := by
    constructor
    · intro later at_left
      obtain rfl : sizes.setupCalls = later := Option.some.inj at_left
      exact ⟨succeeds_nil _, rfl, rfl, rfl⟩
    · intro none
      cases none
    · exact fun born => absurd rfl born
    · exact fun some => absurd rfl some
    · exact fun moved => absurd rfl moved
    · exact fun _ => rfl
    · exact (succeeds_nil _).follows
  ordered := ⟨[], [], rfl, List.forall_mem_nil _, List.forall_mem_nil _, fun some => absurd rfl some⟩
  child := by
    constructor
    · exact fun _ => rfl
    · intro pc none
      cases none
  raised := ⟨fun _ => rfl, fun _ => ⟨0, rfl⟩, ⟨0, .inl rfl⟩⟩
  reported := reported_of_not_succeeded rfl

theorem Directed.step (directed : Directed sizes start program)
    (moves : ProgramMoves platform aop sizes fresh program next) : Directed sizes start next where
  prepared := directed.prepared.step moves
  ordered := directed.ordered.step directed.prepared moves
  child := directed.child.step directed.prepared moves
  raised := directed.raised.step directed.prepared moves
  reported := directed.reported.step moves

/-- The facts hold after each run. -/
theorem directed_run {device : Device} {bytes : List UInt8} {events : List ProgramEvent} {final : Program Device}
    (reached : run (programStep platform aop sizes fresh) (.initial device bytes) events = some final) :
    Directed sizes (.initial device bytes) final := by
  apply run_invariant (Directed sizes (.initial device bytes)) _ (directed_initial sizes device bytes) reached
  exact fun state event next directed stepped => directed.step (moves_of_programStep stepped)

/-- The child stands in its plan also before the fork. -/
theorem ChildMade.follows (made : ChildMade program) : Follows childCalls (callsOf .child program.ioctls) := by
  cases child : program.child with
  | none =>
      rw [made.1 child]
      exact (succeeds_nil childCalls).follows
  | some pc => exact (made.2 pc child).follows

/-- In each run the device is asked in the order of the setup, then of the child, and disconnected at most once. -/
theorem orderly_run {device : Device} {bytes : List UInt8} {events : List ProgramEvent} {final : Program Device}
    (reached : run (programStep platform aop sizes fresh) (.initial device bytes) events = some final) :
    Orderly sizes final := by
  have directed := directed_run reached
  obtain ⟨before, after, split, setup, other, later⟩ := directed.ordered
  refine ⟨directed.prepared.follows, ⟨before, after, split, setup, other, ?_⟩, directed.child.follows,
    directed.raised.once⟩
  intro some
  rcases later some with born | handled
  · exact directed.prepared.child born
  · exact directed.prepared.handled handled

/-- The program serves its device, the device got its size first, and an exit code of zero is a true report. -/
structure Truthful (sizes : DeviceSizes) (content : Device → List UInt8) (start : Server Device)
    (requests : List DeviceRequest) (program : Program Device) : Prop where
  serves : Serves content (content start.device) requests program.server
  announced : program.server ≠ start → sizes.size ≠ 0 → (.setSize sizes.size, true) ∈ callsOf .setup program.ioctls
  success : program.parent = .returned 0 →
    program.server.sent = blockDevice.transcript (content start.device) (untilDisc requests) ∧
      content program.server.device = blockDevice.states (content start.device) (untilDisc requests) ∧
      ((program.child = some (.ended (.exited 0)) ∧
          callsOf .child program.ioctls = childCalls.map fun request => (request, true)) ∨
        ∃ signal core, program.child = some (.ended (.killed signal core)))

/-- A step of the program moves its server by a step of `serve_nbd` or leaves it. -/
theorem server_of_moves (moves : ProgramMoves platform aop sizes fresh program next) :
    next.server = program.server ∨ ∃ call, serveStep platform aop fresh program.server call = some next.server := by
  cases moves with
  | serve call server place served => exact .inr ⟨call, served⟩
  | _ => exact .inl rfl

/-- The size stands among the calls of the setup. -/
theorem mem_setupCalls (sized : sizes.size ≠ 0) : .setSize sizes.size ∈ sizes.setupCalls := by
  rw [DeviceSizes.setupCalls, if_pos sized]
  exact List.mem_append_right _ (List.mem_append_left _ List.mem_cons_self)

/-- An exit code of zero is that of a child with success, or a signal killed the child. -/
theorem Ending.Made.of_success {ending : Ending} {calls : List (Ioctl × Bool)} (made : ending.Made calls)
    (success : wexitstatus ending.waitStatus = 0) :
    (ending = .exited 0 ∧ calls = childCalls.map fun request => (request, true)) ∨
      ∃ signal core, ending = .killed signal core := by
  cases ending with
  | killed signal core => exact .inr ⟨signal, core, rfl⟩
  | exited code =>
      rcases made with ⟨rfl, succeeds⟩ | ⟨rfl, -⟩
      · exact .inl ⟨rfl, succeeds.complete⟩
      · cases success

end

/-- Each run of the program on requests inside its memory is truthful. -/
theorem truthful_run {platform : Platform} (agrees : platform.Agrees) {fresh : Buffer} {sizes : DeviceSizes} {data : Xmp}
    {requests : List DeviceRequest} (ranges : ∀ request ∈ requests, request.InRange data.length)
    {events : List ProgramEvent} {final : Program Xmp}
    (reached : run (programStep platform xmpOperations sizes fresh)
      (.initial data (requests.flatMap DeviceRequest.bytes)) events = some final) :
    Truthful sizes id (.initial data (requests.flatMap DeviceRequest.bytes)) requests final := by
  have stands : Stands memoryDevice id platform data requests final.server := by
    apply run_invariant
      (fun state : Program Xmp => Stands memoryDevice id platform data requests state.server) _ _ reached
    · intro state event next stands stepped
      rcases server_of_moves (moves_of_programStep stepped) with same | ⟨call, served⟩
      · rw [same]
        exact stands
      · exact stands.step agrees xmp_implements (moves_of_serveStep served)
    · exact stands_initial rfl
  obtain ⟨_, _, _, stage⟩ := stands.stage
  have serves := stage.serves ranges
  have directed := directed_run reached
  constructor
  · exact serves
  · intro moved sized
    rw [(directed.prepared.served moved).complete]
    exact List.mem_map_of_mem (mem_setupCalls sized)
  · intro returned
    obtain ⟨served, ending, ended, success⟩ := directed.reported.success returned
    obtain ⟨sent, stored⟩ := serves.success served
    refine ⟨sent, stored, ?_⟩
    have made : ending.Made (callsOf .child final.ioctls) := directed.child.2 _ ended
    rcases made.of_success success with ⟨rfl, calls⟩ | ⟨signal, core, rfl⟩
    · exact .inl ⟨ended, calls⟩
    · exact .inr ⟨signal, core, ended⟩

/-- The parent forks and serves a small session, a disconnection fails and another succeeds, and the child ends. -/
def smallProgram : List ProgramEvent :=
  List.replicate 5 (.parent true) ++ [.child true, .parent true, .child true, .parent true, .child true] ++
    List.replicate 2 (.parent true) ++ smallSessionCalls.map .serve ++
    [.signal .int false, .parent true, .signal .term true, .child true, .signal .int true, .child true, .child true,
      .child true, .parent true]

theorem orderly_smallProgram : ∃ final,
    run (programStep ⟨.littleEndian, false⟩ xmpOperations ⟨4, 0, 0⟩ fun _ => 7)
      (.initial [1, 2, 3, 4] (smallSession.flatMap DeviceRequest.bytes)) smallProgram = some final ∧
      Orderly ⟨4, 0, 0⟩ final := by
  obtain ⟨final, reached⟩ : ∃ final, run (programStep ⟨.littleEndian, false⟩ xmpOperations ⟨4, 0, 0⟩ fun _ => 7)
      (.initial [1, 2, 3, 4] (smallSession.flatMap DeviceRequest.bytes)) smallProgram = some final :=
    Option.isSome_iff_exists.mp (by decide +kernel)
  exact ⟨final, reached, orderly_run reached⟩

/-- From its command line to its exit code, `busexmp` is a truthful block device of the size that it announces. -/
theorem xmpMain_truthful {platform : Platform} (agrees : platform.Agrees) {fresh : Buffer} {line : List (List Char)}
    {malloc : UInt64 → Option Xmp} (allocates : ∀ size data, malloc size = some data → data.length = size.toNat)
    {requests : List DeviceRequest} {sizes : DeviceSizes} {start final : Program Xmp}
    (started : xmpMain line malloc (requests.flatMap DeviceRequest.bytes) = some (.ok (sizes, start)))
    (ranges : ∀ request ∈ requests, request.InRange sizes.size.toNat) {events : List ProgramEvent}
    (reached : run (programStep platform xmpOperations sizes fresh) start events = some final) :
    Truthful sizes id start.server requests final := by
  obtain ⟨words, -, started⟩ := Option.map_eq_some_iff.mp started
  cases parsed : mainArguments words with
  | error rejection =>
      rw [parsed] at started
      cases started
  | ok arguments =>
      rw [parsed] at started
      cases allocated : malloc arguments.size with
      | none =>
          simp only [bind, Except.bind, allocated] at started
          cases started
      | some data =>
          simp only [bind, Except.bind, allocated] at started
          cases started
          have length := allocates arguments.size data allocated
          rw [← length] at ranges
          exact truthful_run agrees ranges reached

/-- The command line asks for four bytes, and the program exits with zero. -/
theorem truthful_smallProgram : ∃ sizes start final,
    xmpMain [['4'], ['-', 'v'], ['n']] (fun size => some (List.replicate size.toNat 0))
      (smallSession.flatMap DeviceRequest.bytes) = some (.ok (sizes, start)) ∧
    run (programStep ⟨.littleEndian, false⟩ xmpOperations sizes fun _ => 7) start smallProgram = some final ∧
    final.parent = .returned 0 ∧ Truthful sizes id start.server smallSession final := by
  have agrees : Platform.Agrees ⟨.littleEndian, false⟩ := rfl
  have allocates : ∀ (size : UInt64) (data : Xmp), some (List.replicate size.toNat 0) = some data →
      data.length = size.toNat := by
    rintro size data ⟨⟩
    exact List.length_replicate
  have started : xmpMain [['4'], ['-', 'v'], ['n']] (fun size => some (List.replicate size.toNat 0))
      (smallSession.flatMap DeviceRequest.bytes) =
        some (.ok (⟨4, 0, 0⟩, .initial [0, 0, 0, 0] (smallSession.flatMap DeviceRequest.bytes))) := rfl
  obtain ⟨final, reached, returned⟩ : ∃ final,
      run (programStep ⟨.littleEndian, false⟩ xmpOperations ⟨4, 0, 0⟩ fun _ => 7)
        (.initial [0, 0, 0, 0] (smallSession.flatMap DeviceRequest.bytes)) smallProgram = some final ∧
        final.parent = .returned 0 := by decide +kernel
  exact ⟨_, _, final, started, reached, returned,
    xmpMain_truthful agrees allocates started (by decide) reached⟩

end DistributedNas.Buse
