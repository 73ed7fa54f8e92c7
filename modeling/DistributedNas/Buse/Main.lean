import DistributedNas.Buse.Arguments
import DistributedNas.Buse.Refinement
import DistributedNas.Library.Plan

/-
This file models `buse_main` with its child process and its signals, from the command line of `busexmp` on.
-/

namespace DistributedNas.Buse
open Library Posix Proxy

/-- These fields of `struct buse_operations` describe the size of the device. -/
structure DeviceSizes where
  size : UInt64
  blksize : UInt32
  sizeBlocks : UInt64
  deriving DecidableEq, Repr

/-- The device file is asked for these requests. -/
inductive Ioctl where
  | setBlksize (blksize : UInt32)
  | setSize (size : UInt64)
  | setSizeBlocks (sizeBlocks : UInt64)
  | clearSock
  | setSock
  | setFlags
  | doIt
  | clearQue
  | disconnect
  deriving DecidableEq, Repr

/-- The process before its fork, its child, and the handler of signals call `ioctl`. -/
inductive Caller where
  | setup
  | child
  | handler
  deriving DecidableEq, Repr

/-- A call of `ioctl` either succeeds or returns -1. -/
structure DeviceCall where
  caller : Caller
  request : Ioctl
  succeeded : Bool
  deriving DecidableEq, Repr

/-- A size of zero is not sent to the device. -/
def DeviceSizes.setupCalls (sizes : DeviceSizes) : List Ioctl :=
  (if sizes.blksize ≠ 0 then [.setBlksize sizes.blksize] else []) ++
    ((if sizes.size ≠ 0 then [.setSize sizes.size] else []) ++
      ((if sizes.sizeBlocks ≠ 0 then [.setSizeBlocks sizes.sizeBlocks] else []) ++ [.clearSock]))

/-- The child exits with a failure at the first of these calls that fails. -/
def childCalls : List Ioctl := [.setSock, .setFlags, .doIt, .clearQue, .clearSock]

/-- These signals have a handler. -/
inductive Signal where
  | int
  | term
  deriving DecidableEq, Repr

/-- A process exits with a code, or a signal kills it. -/
inductive Ending where
  | exited (code : Nat)
  | killed (signal : Nat) (core : Bool)
  deriving DecidableEq, Repr

/-- The exit code is in the second byte of the status, and the signal is in the first one. -/
def Ending.waitStatus : Ending → Nat
  | .exited code => code % 256 * 256
  | .killed signal core => signal + if core then 128 else 0

/-- This is the macro `WEXITSTATUS`. -/
def wexitstatus (status : Nat) : Nat := status / 256 % 256

/-- These are the places of the parent between its calls. -/
inductive ParentPc where
  | socketpair
  | openDevice
  | setup (later : List Ioctl)
  | choose
  | prepareMask
  | handle (signal : Signal)
  | serve
  | waitChild
  | returned (status : Nat)
  | aborted
  | killed (signal : Signal)
  deriving DecidableEq, Repr

/-- These are the places of the child between its calls. -/
inductive ChildPc where
  | maskSignals
  | call (later : List Ioctl)
  | ended (ending : Ending)
  deriving DecidableEq, Repr

/-- The variable `nbd_dev_to_disconnect` either is -1 or names the device, and the calls of the device are history. -/
structure Program (Device : Type*) where
  parent : ParentPc
  child : Option ChildPc
  server : Server Device
  nbdDevToDisconnect : Bool
  handled : List Signal
  ioctls : List DeviceCall

/-- Either process makes its next call, or a signal arrives at one of them. -/
inductive ProgramEvent where
  | parent (succeeds : Bool)
  | serve (call : ServeCall)
  | child (succeeds : Bool)
  | killChild (signal : Nat) (core : Bool)
  | signal (signal : Signal) (succeeds : Bool)
  deriving DecidableEq, Repr

/-- `buse_main` begins with a client that will send these bytes. -/
def Program.initial {Device : Type*} (device : Device) (bytes : List UInt8) : Program Device :=
  ⟨.socketpair, none, .initial device bytes, false, [], []⟩

/-- The parent still goes on. -/
def ParentPc.alive : ParentPc → Bool
  | .returned _ | .aborted | .killed _ => false
  | _ => true

section
variable {Device : Type*} (program : Program Device)

/-- A call of the device is added to the history. -/
def Program.ioctl (caller : Caller) (request : Ioctl) (succeeded : Bool) : Program Device :=
  { program with ioctls := program.ioctls ++ [⟨caller, request, succeeded⟩] }

/-- The parent sets the device up, forks, registers its handler, serves, and waits for the child. -/
def Program.parentStep (sizes : DeviceSizes) (succeeds : Bool) : Option (Program Device) :=
  match program.parent with
  | .socketpair => some { program with parent := if succeeds then .openDevice else .aborted }
  | .openDevice => some { program with parent := if succeeds then .setup sizes.setupCalls else .returned 1 }
  | .setup (request :: later) =>
      some { program.ioctl .setup request succeeds with parent := if succeeds then .setup later else .aborted }
  | .setup [] =>
      -- a failed fork returns -1, which is not zero either
      some { program with child := if succeeds then some .maskSignals else none, parent := .choose }
  | .choose =>
      some (if program.nbdDevToDisconnect then { program with parent := .aborted }
        else { program with nbdDevToDisconnect := true, parent := .prepareMask })
  | .prepareMask => some { program with parent := if succeeds then .handle .int else .returned 1 }
  | .handle signal =>
      some (if succeeds then
        { program with
          handled := signal :: program.handled
          parent := match signal with
            | .int => .handle .term
            | .term => .serve }
      else { program with parent := .returned 1 })
  | .serve =>
      match program.server.pc with
      | .exit status => some { program with parent := if status ≠ 0 then .returned status else .waitChild }
      | .aborted => some { program with parent := .aborted }
      | _ => none
  | .waitChild =>
      if succeeds then
        match program.child with
        | some (.ended ending) =>
            let status := wexitstatus ending.waitStatus
            some { program with parent := if status ≠ 0 then .returned status else .returned 0 }
        | _ => none
      else some { program with parent := .returned 1 }
  | .returned _ | .aborted | .killed _ => none

/-- The child masks its signals and makes its calls. -/
def Program.childStep (succeeds : Bool) : Option (Program Device) :=
  match program.child with
  | some .maskSignals =>
      some { program with child := some (if succeeds then .call childCalls else .ended (.exited 1)) }
  | some (.call (request :: later)) =>
      some { program.ioctl .child request succeeds with
        child := some (if succeeds then .call later else .ended (.exited 1)) }
  | some (.call []) => some { program with child := some (.ended (.exited 0)) }
  | some (.ended _) | none => none

/-- `disconnect_nbd` forgets the device only after a successful request. -/
def Program.disconnectNbd (succeeds : Bool) : Program Device :=
  if program.nbdDevToDisconnect then
    { program.ioctl .handler .disconnect succeeds with nbdDevToDisconnect := !succeeds }
  else program

end

/-- The parent serves its socket between its other calls, and a signal without the handler kills it. -/
def programStep {Device : Type*} (platform : Platform) (aop : BuseOperations Device) (sizes : DeviceSizes)
    (fresh : Buffer) (program : Program Device) : ProgramEvent → Option (Program Device)
  | .parent succeeds => program.parentStep sizes succeeds
  | .serve call =>
      if program.parent = .serve then
        (serveStep platform aop fresh program.server call).map fun server => { program with server := server }
      else none
  | .child succeeds => program.childStep succeeds
  | .killChild signal core =>
      match program.child with
      | none | some (.ended _) => none
      | some _ =>
          if 0 < signal ∧ signal < 128 then some { program with child := some (.ended (.killed signal core)) } else none
  | .signal signal succeeds =>
      if program.parent.alive then
        some (if signal ∈ program.handled then program.disconnectNbd succeeds
          else { program with parent := .killed signal })
      else none

/-- `busexmp` reads its arguments, allocates its memory, and calls `buse_main`. -/
def xmpMain (line : List (List Char)) (malloc : UInt64 → Option Xmp) (bytes : List UInt8) :
    Option (Except Rejection (DeviceSizes × Program Xmp)) :=
  (commandWords line).map fun words => do
    let arguments ← mainArguments words
    match malloc arguments.size with
    | none => .error .failedToAlloc
    | some data => .ok (⟨arguments.size, 0, 0⟩, .initial data bytes)

/-- These calls of one caller were made in this order. -/
def callsOf (caller : Caller) (ioctls : List DeviceCall) : List (Ioctl × Bool) :=
  (ioctls.filter fun call => call.caller = caller).map fun call => (call.request, call.succeeded)

theorem callsOf_append (caller : Caller) (first last : List DeviceCall) :
    callsOf caller (first ++ last) = callsOf caller first ++ callsOf caller last := by
  rw [callsOf, List.filter_append, List.map_append]
  rfl

@[simp] theorem callsOf_ioctl_same {Device : Type*} (program : Program Device) (caller : Caller) (request : Ioctl)
    (succeeded : Bool) : callsOf caller (program.ioctl caller request succeeded).ioctls =
      callsOf caller program.ioctls ++ [(request, succeeded)] := by
  rw [Program.ioctl, callsOf_append]
  simp [callsOf]

theorem callsOf_ioctl_other {Device : Type*} (program : Program Device) {caller other : Caller} (differs : other ≠ caller)
    (request : Ioctl) (succeeded : Bool) :
    callsOf caller (program.ioctl other request succeeded).ioctls = callsOf caller program.ioctls := by
  rw [Program.ioctl, callsOf_append]
  simp [callsOf, differs]

/-- Before its fork the parent still has these calls to make. -/
def ParentPc.left (sizes : DeviceSizes) : ParentPc → Option (List Ioctl)
  | .socketpair | .openDevice => some sizes.setupCalls
  | .setup later => some later
  | _ => none

/-- The parent has forked at these places. -/
def ParentPc.forked : ParentPc → Bool
  | .choose | .prepareMask | .handle _ | .serve | .waitChild => true
  | _ => false

/-- The parent has no handler yet at these places. -/
def ParentPc.unhandled : ParentPc → Bool
  | .socketpair | .openDevice | .setup _ | .choose | .prepareMask | .handle .int => true
  | _ => false

/-- The service has succeeded at these places. -/
def ParentPc.succeeded : ParentPc → Bool
  | .waitChild => true
  | .returned status => status = 0
  | _ => false

/-- A child that exits with success has made all its calls, and any other one has followed its plan up to some place. -/
def Ending.Made : Ending → List (Ioctl × Bool) → Prop
  | .exited code, calls => code = 0 ∧ Succeeds childCalls [] calls ∨ code = 1 ∧ Follows childCalls calls
  | .killed signal _, calls => signal < 128 ∧ Follows childCalls calls

/-- The place of the child says which of its calls it has made. -/
def ChildPc.Made : ChildPc → List (Ioctl × Bool) → Prop
  | .maskSignals, calls => calls = []
  | .call later, calls => Succeeds childCalls later calls
  | .ended ending, calls => ending.Made calls

/-- The device is asked by the setup first, then by the child in its order and by the handler until one success. -/
structure Orderly (sizes : DeviceSizes) {Device : Type*} (program : Program Device) : Prop where
  setup : Follows sizes.setupCalls (callsOf .setup program.ioctls)
  first : ∃ before after, program.ioctls = before ++ after ∧ (∀ call ∈ before, call.caller = .setup) ∧
    (∀ call ∈ after, call.caller ≠ .setup) ∧ (after ≠ [] → Succeeds sizes.setupCalls [] (callsOf .setup program.ioctls))
  child : Follows childCalls (callsOf .child program.ioctls)
  handler : ∃ failures, callsOf .handler program.ioctls = List.replicate failures (.disconnect, false) ∨
    callsOf .handler program.ioctls = List.replicate failures (.disconnect, false) ++ [(.disconnect, true)]

/-- The parent stops without success at these places. -/
def ParentPc.Fails (pc : ParentPc) : Prop :=
  pc = .aborted ∨ (∃ status, status ≠ 0 ∧ pc = .returned status) ∨ ∃ signal, pc = .killed signal

/-- After a handler the parent registers the next one or serves. -/
def ParentPc.afterHandle : Signal → ParentPc
  | .int => .handle .term
  | .term => .serve

section
variable {Device : Type*} {platform : Platform} {aop : BuseOperations Device} {sizes : DeviceSizes} {fresh : Buffer}
  {program next : Program Device}

/-- This relation lists what a step of the program can do. -/
inductive ProgramMoves (platform : Platform) (aop : BuseOperations Device) (sizes : DeviceSizes) (fresh : Buffer)
    (program : Program Device) : Program Device → Prop
  | fail (pc : ParentPc) (fails : pc.Fails) : ProgramMoves platform aop sizes fresh program { program with parent := pc }
  | pair (atPair : program.parent = .socketpair) :
      ProgramMoves platform aop sizes fresh program { program with parent := .openDevice }
  | openDevice (atOpen : program.parent = .openDevice) :
      ProgramMoves platform aop sizes fresh program { program with parent := .setup sizes.setupCalls }
  | setup (request : Ioctl) (later : List Ioctl) (atSetup : program.parent = .setup (request :: later)) :
      ProgramMoves platform aop sizes fresh program
        { program.ioctl .setup request true with parent := .setup later }
  | refused (request : Ioctl) (later : List Ioctl) (atSetup : program.parent = .setup (request :: later)) :
      ProgramMoves platform aop sizes fresh program { program.ioctl .setup request false with parent := .aborted }
  | fork (child : Option ChildPc) (atFork : program.parent = .setup [])
      (forks : child = some .maskSignals ∨ child = none) :
      ProgramMoves platform aop sizes fresh program { program with child := child, parent := .choose }
  | choose (atChoose : program.parent = .choose) :
      ProgramMoves platform aop sizes fresh program
        { program with nbdDevToDisconnect := true, parent := .prepareMask }
  | prepare (atPrepare : program.parent = .prepareMask) :
      ProgramMoves platform aop sizes fresh program { program with parent := .handle .int }
  | install (signal : Signal) (atHandle : program.parent = .handle signal) :
      ProgramMoves platform aop sizes fresh program
        { program with handled := signal :: program.handled, parent := .afterHandle signal }
  | serve (call : ServeCall) (server : Server Device) (atServe : program.parent = .serve)
      (served : serveStep platform aop fresh program.server call = some server) :
      ProgramMoves platform aop sizes fresh program { program with server := server }
  | wait (atServe : program.parent = .serve) (ended : program.server.pc = .exit 0) :
      ProgramMoves platform aop sizes fresh program { program with parent := .waitChild }
  | reap (ending : Ending) (atWait : program.parent = .waitChild) (ended : program.child = some (.ended ending))
      (success : wexitstatus ending.waitStatus = 0) :
      ProgramMoves platform aop sizes fresh program { program with parent := .returned 0 }
  | mask (atMask : program.child = some .maskSignals) :
      ProgramMoves platform aop sizes fresh program { program with child := some (.call childCalls) }
  | call (request : Ioctl) (later : List Ioctl) (atCall : program.child = some (.call (request :: later))) :
      ProgramMoves platform aop sizes fresh program
        { program.ioctl .child request true with child := some (.call later) }
  | failedCall (request : Ioctl) (later : List Ioctl) (atCall : program.child = some (.call (request :: later))) :
      ProgramMoves platform aop sizes fresh program
        { program.ioctl .child request false with child := some (.ended (.exited 1)) }
  | exit (atEnd : program.child = some (.call [])) :
      ProgramMoves platform aop sizes fresh program { program with child := some (.ended (.exited 0)) }
  | stop (pc : ChildPc) (ending : Ending) (atChild : program.child = some pc) (alive : ∀ other, pc ≠ .ended other)
      (fails : ending = .exited 1 ∨ ∃ signal core, signal < 128 ∧ ending = .killed signal core) :
      ProgramMoves platform aop sizes fresh program { program with child := some (.ended ending) }
  | disconnect (succeeds : Bool) (handles : program.handled ≠ []) (named : program.nbdDevToDisconnect = true) :
      ProgramMoves platform aop sizes fresh program
        { program.ioctl .handler .disconnect succeeds with nbdDevToDisconnect := !succeeds }
  | ignore : ProgramMoves platform aop sizes fresh program program

/-- Each step of the parent is one of the listed moves. -/
theorem moves_of_parentStep {succeeds : Bool} (stepped : program.parentStep sizes succeeds = some next) :
    ProgramMoves platform aop sizes fresh program next := by
  have one : (1 : Nat) ≠ 0 := one_ne_zero
  unfold Program.parentStep at stepped
  split at stepped
  · next place =>
      obtain rfl := Option.some.inj stepped
      cases succeeds with
      | false => exact .fail .aborted (.inl rfl)
      | true => exact .pair place
  · next place =>
      obtain rfl := Option.some.inj stepped
      cases succeeds with
      | false => exact .fail (.returned 1) (.inr (.inl ⟨1, one, rfl⟩))
      | true => exact .openDevice place
  · next request later place =>
      obtain rfl := Option.some.inj stepped
      cases succeeds with
      | false => exact .refused request later place
      | true => exact .setup request later place
  · next place =>
      obtain rfl := Option.some.inj stepped
      cases succeeds with
      | false => exact .fork none place (.inr rfl)
      | true => exact .fork (some .maskSignals) place (.inl rfl)
  · next place =>
      obtain rfl := Option.some.inj stepped
      split
      · exact .fail .aborted (.inl rfl)
      · exact .choose place
  · next place =>
      obtain rfl := Option.some.inj stepped
      cases succeeds with
      | false => exact .fail (.returned 1) (.inr (.inl ⟨1, one, rfl⟩))
      | true => exact .prepare place
  · next signal place =>
      obtain rfl := Option.some.inj stepped
      cases succeeds with
      | false => exact .fail (.returned 1) (.inr (.inl ⟨1, one, rfl⟩))
      | true => exact .install signal place
  · next place =>
      split at stepped
      · next status ended =>
          obtain rfl := Option.some.inj stepped
          split
          · next failed => exact .fail (.returned status) (.inr (.inl ⟨status, failed, rfl⟩))
          · next success =>
              obtain rfl := not_not.mp success
              exact .wait place ended
      · obtain rfl := Option.some.inj stepped
        exact .fail .aborted (.inl rfl)
      · cases stepped
  · next place =>
      split at stepped
      · split at stepped
        · next ending ended =>
            obtain rfl := Option.some.inj stepped
            split
            · next failed => exact .fail (.returned _) (.inr (.inl ⟨_, failed, rfl⟩))
            · next success => exact .reap ending place ended (not_not.mp success)
        · cases stepped
      · obtain rfl := Option.some.inj stepped
        exact .fail (.returned 1) (.inr (.inl ⟨1, one, rfl⟩))
  · cases stepped
  · cases stepped
  · cases stepped

/-- Each step of the child is one of the listed moves. -/
theorem moves_of_childStep {succeeds : Bool} (stepped : program.childStep succeeds = some next) :
    ProgramMoves platform aop sizes fresh program next := by
  unfold Program.childStep at stepped
  split at stepped
  · next place =>
      obtain rfl := Option.some.inj stepped
      cases succeeds with
      | false => exact .stop .maskSignals (.exited 1) place (by intro other same; cases same) (.inl rfl)
      | true => exact .mask place
  · next request later place =>
      obtain rfl := Option.some.inj stepped
      cases succeeds with
      | false => exact .failedCall request later place
      | true => exact .call request later place
  · next place =>
      obtain rfl := Option.some.inj stepped
      exact .exit place
  · cases stepped
  · cases stepped

/-- Each step is one of the listed moves. -/
theorem moves_of_programStep {event : ProgramEvent}
    (stepped : programStep platform aop sizes fresh program event = some next) :
    ProgramMoves platform aop sizes fresh program next := by
  cases event with
  | parent succeeds => exact moves_of_parentStep stepped
  | serve call =>
      simp only [programStep] at stepped
      split at stepped
      · next place =>
          obtain ⟨server, served, rfl⟩ := Option.map_eq_some_iff.mp stepped
          exact .serve call server place served
      · cases stepped
  | child succeeds => exact moves_of_childStep stepped
  | killChild signal core =>
      simp only [programStep] at stepped
      split at stepped
      · cases stepped
      · cases stepped
      · next pc alive place =>
          split at stepped
          · next bounds =>
              obtain rfl := Option.some.inj stepped
              apply ProgramMoves.stop pc (.killed signal core) place _ (.inr ⟨signal, core, bounds.2, rfl⟩)
              intro ending same
              exact alive ending same
          · cases stepped
  | signal signal succeeds =>
      simp only [programStep] at stepped
      split at stepped
      · obtain rfl := Option.some.inj stepped
        split
        · next member =>
            unfold Program.disconnectNbd
            split
            · next named => exact .disconnect succeeds (List.ne_nil_of_mem member) named
            · exact .ignore
        · exact .fail (.killed signal) (.inr (.inr ⟨signal, rfl⟩))
      · cases stepped

end

end DistributedNas.Buse
