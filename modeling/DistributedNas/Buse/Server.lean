import DistributedNas.Buse.Operations
import DistributedNas.Library.Transition
import DistributedNas.Proxy.Done

/-
This file models `serve_nbd` with its loops `read_all` and `write_all` at the granularity of single system calls.
-/

namespace DistributedNas.Buse
open Library Posix Proxy

/-- These are the command codes that `nbdproxy` does not know. -/
def nbdCmdFlush : UInt32 := 3
def nbdCmdTrim : UInt32 := 4

/-- This number starts each request. -/
def nbdRequestMagic : UInt32 := 0x25609513

/-- The reply holds the converted magic number, the error field as it was assigned, and the handle. -/
def nbdReply (host : Endian) (error : UInt32) (handle : Handle) : List UInt8 :=
  host.toMemory 4 (htonl host nbdReplyMagic).toNat ++ host.toMemory 4 error.toNat ++ handle.toList

/-- A call of `write_all` is given a block of memory, and a window of the block is still to be written. -/
structure Part where
  memory : Buffer
  size : Nat
  window : Window

/-- A call of `write_all` starts with the whole block. -/
def Part.whole (memory : Buffer) (size : Nat) : Part := ⟨memory, size, .whole size⟩

/-- These are the places between the system calls of `serve_nbd`. -/
inductive ServePc where
  | request
  | payload (request : NbdRequest) (chunk : Buffer) (window : Window)
  | operate (request : NbdRequest) (chunk : Buffer)
  | send (part : Part) (later : List Part)
  | exit (status : Nat)
  | aborted
  | undefined

/-- The client has sent bytes that are not read yet, and the server has sent bytes and serves its device. -/
structure Server (Device : Type*) where
  pending : List UInt8
  sent : List UInt8
  device : Device
  pc : ServePc

/-- The server starts with a client that sends these bytes and then closes its end. -/
def Server.initial {Device : Type*} (device : Device) (bytes : List UInt8) : Server Device :=
  ⟨bytes, [], device, .request⟩

/-- The server calls `read` or `write` on its socket, or an operation that makes calls of its own. -/
inductive ServeCall where
  | read (result : Int)
  | write (result : Int)
  | operate (results : List Int)
  deriving DecidableEq, Repr

/-- The loop of `read_all` ends when its window is empty. -/
def ServePc.inPayload (request : NbdRequest) (chunk : Buffer) (window : Window) : ServePc :=
  if window.count = 0 then .operate request chunk else .payload request chunk window

/-- The loops of `write_all` end one after the other, and then the next request is read. -/
def ServePc.sending : List Part → ServePc
  | [] => .request
  | part :: later => if part.window.count = 0 then sending later else .send part later

/-- The loop over the requests ends at an error or at the end of the stream, and it asserts a whole header. -/
def ServePc.received (platform : Platform) (fresh memory : Buffer) (result : Int) : ServePc :=
  if result = -1 then .exit 1
  else if result = 0 then .exit 0
  else if result ≠ sizeofNbdRequest then .aborted
  else
    let request := NbdRequest.ofMemory platform.host memory
    if request.magic ≠ htonl platform.host nbdRequestMagic then .aborted
    else if ntohl platform.host request.type = nbdCmdWrite then
      .inPayload request fresh (.whole (ntohl platform.host request.len).toNat)
    else .operate request fresh

section
variable {Device : Type*}

/-- The request of a finished operation is answered with its reply and then with these parts. -/
def Server.answer (server : Server Device) (host : Endian) (request : NbdRequest) (error : UInt32) (device : Device)
    (parts : List Part) : Server Device :=
  { server with
    device := device
    pc := .sending (.whole (.ofBytes (nbdReply host error request.handle)) sizeofNbdReply :: parts) }

/-- The reply to a read comes before the block that its operation filled. -/
def Server.afterRead (server : Server Device) (host : Endian) (request : NbdRequest) :
    Completion (Int32 × Buffer) Device → Server Device
  | .returned (_, filled) device =>
      server.answer host request (htonl host 0) device [.whole filled (ntohl host request.len).toNat]
  | .aborted device => { server with device := device, pc := .aborted }
  | .undefined => { server with pc := .undefined }

/-- A write is answered with its reply alone. -/
def Server.afterWrite (server : Server Device) (host : Endian) (request : NbdRequest) :
    Completion Int32 Device → Server Device
  | .returned _ device => server.answer host request (htonl host 0) device []
  | .aborted device => { server with device := device, pc := .aborted }
  | .undefined => { server with pc := .undefined }

/-- The switch on the type calls an operation, ignores what a read or a write returns, and asserts a known type. -/
def Server.operate (server : Server Device) (platform : Platform) (aop : BuseOperations Device)
    (request : NbdRequest) (chunk : Buffer) (results : List Int) : Option (Server Device) :=
  let host := platform.host
  let len := ntohl host request.len
  let offset := platform.ntohll request.fromOffset
  if ntohl host request.type = nbdCmdRead then
    (aop.read server.device chunk len offset results).map (server.afterRead host request)
  else if ntohl host request.type = nbdCmdWrite then
    (aop.write server.device chunk len offset results).map (server.afterWrite host request)
  else if results ≠ [] then none
  else if ntohl host request.type = nbdCmdDisc then
    some { server with device := aop.disc.elim server.device fun disc => disc server.device, pc := .exit 0 }
  else if ntohl host request.type = nbdCmdFlush then
    match aop.flush with
    | none => some (server.answer host request (htonl host 0) server.device [])
    | some flush =>
        let flushed := flush server.device
        some (server.answer host request flushed.1.toUInt32 flushed.2 [])
  else if ntohl host request.type = nbdCmdTrim then
    match aop.trim with
    | none => some (server.answer host request (htonl host 0) server.device [])
    | some trim =>
        let trimmed := trim offset len server.device
        some (server.answer host request trimmed.1.toUInt32 trimmed.2 [])
  else some { server with pc := .aborted }

/-- This is one step of `serve_nbd`; memory that the program allocates has the fresh contents. -/
def serveStep (platform : Platform) (aop : BuseOperations Device) (fresh : Buffer) (server : Server Device)
    (call : ServeCall) : Option (Server Device) :=
  match server.pc, call with
  | .request, .read result =>
      if ReadResult server.pending.length sizeofNbdRequest result then
        some { server with
          pending := server.pending.drop result.toNat
          pc := .received platform fresh (fresh.store 0 (server.pending.take result.toNat)) result }
      else none
  | .payload request chunk window, .read result =>
      if window.count ≠ 0 ∧ ReadResult server.pending.length window.count result then
        some { server with
          pending := server.pending.drop result.toNat
          pc := (assertedAdvance window result).elim .aborted
            (.inPayload request (chunk.store window.buf (server.pending.take result.toNat))) }
      else none
  | .operate request chunk, .operate results => server.operate platform aop request chunk results
  | .send part later, .write result =>
      if part.window.count ≠ 0 ∧ WriteResult part.window.count result then
        some { server with
          sent := server.sent ++ part.memory.load part.window.buf result.toNat
          pc := (assertedAdvance part.window result).elim .aborted fun rest =>
            .sending ({ part with window := rest } :: later) }
      else none
  | _, _ => none

variable {platform : Platform} {aop : BuseOperations Device} {fresh : Buffer} {server next : Server Device}
  {call : ServeCall}

/-- This relation lists what a step of `serve_nbd` can do. -/
inductive Moves (platform : Platform) (aop : BuseOperations Device) (fresh : Buffer) (server : Server Device) :
    ServeCall → Server Device → Prop
  | request (result : Int) (atRequest : server.pc = .request)
      (outcome : ReadResult server.pending.length sizeofNbdRequest result) :
      Moves platform aop fresh server (.read result)
        { server with
          pending := server.pending.drop result.toNat
          pc := .received platform fresh (fresh.store 0 (server.pending.take result.toNat)) result }
  | payload (request : NbdRequest) (chunk : Buffer) (window : Window) (result : Int)
      (atPayload : server.pc = .payload request chunk window) (remains : window.count ≠ 0)
      (outcome : ReadResult server.pending.length window.count result) :
      Moves platform aop fresh server (.read result)
        { server with
          pending := server.pending.drop result.toNat
          pc := (assertedAdvance window result).elim .aborted
            (.inPayload request (chunk.store window.buf (server.pending.take result.toNat))) }
  | operate (request : NbdRequest) (chunk : Buffer) (results : List Int) (after : Server Device)
      (atOperate : server.pc = .operate request chunk)
      (operated : server.operate platform aop request chunk results = some after) :
      Moves platform aop fresh server (.operate results) after
  | send (part : Part) (later : List Part) (result : Int) (atSend : server.pc = .send part later)
      (remains : part.window.count ≠ 0) (outcome : WriteResult part.window.count result) :
      Moves platform aop fresh server (.write result)
        { server with
          sent := server.sent ++ part.memory.load part.window.buf result.toNat
          pc := (assertedAdvance part.window result).elim .aborted fun rest =>
            .sending ({ part with window := rest } :: later) }

/-- Each step is one of the listed moves. -/
theorem moves_of_serveStep (stepped : serveStep platform aop fresh server call = some next) :
    Moves platform aop fresh server call next := by
  unfold serveStep at stepped
  split at stepped
  · next result atRequest =>
      split at stepped
      · next outcome =>
          obtain rfl := Option.some.inj stepped
          exact .request result atRequest outcome
      · cases stepped
  · next request chunk window result atPayload =>
      split at stepped
      · next enabled =>
          obtain rfl := Option.some.inj stepped
          exact .payload request chunk window result atPayload enabled.1 enabled.2
      · cases stepped
  · next request chunk results atOperate => exact .operate request chunk results next atOperate stepped
  · next part later result atSend =>
      split at stepped
      · next enabled =>
          obtain rfl := Option.some.inj stepped
          exact .send part later result atSend enabled.1 enabled.2
      · cases stepped
  · cases stepped

/-- Each listed move is a step. -/
theorem Moves.serveStep (moves : Moves platform aop fresh server call next) :
    serveStep platform aop fresh server call = some next := by
  unfold Buse.serveStep
  cases moves with
  | request result atRequest outcome =>
      rw [atRequest]
      exact if_pos outcome
  | payload request chunk window result atPayload remains outcome =>
      rw [atPayload]
      exact if_pos ⟨remains, outcome⟩
  | operate request chunk results after atOperate operated =>
      rw [atOperate]
      exact operated
  | send part later result atSend remains outcome =>
      rw [atSend]
      exact if_pos ⟨remains, outcome⟩

/-- This relation lists what the switch on the type can do. -/
inductive Operates (platform : Platform) (aop : BuseOperations Device) (server : Server Device)
    (request : NbdRequest) (chunk : Buffer) : List Int → Server Device → Prop
  | read (results : List Int) (completion : Completion (Int32 × Buffer) Device)
      (type : ntohl platform.host request.type = nbdCmdRead)
      (called : aop.read server.device chunk (ntohl platform.host request.len) (platform.ntohll request.fromOffset)
        results = some completion) :
      Operates platform aop server request chunk results (server.afterRead platform.host request completion)
  | write (results : List Int) (completion : Completion Int32 Device)
      (type : ntohl platform.host request.type = nbdCmdWrite)
      (called : aop.write server.device chunk (ntohl platform.host request.len) (platform.ntohll request.fromOffset)
        results = some completion) :
      Operates platform aop server request chunk results (server.afterWrite platform.host request completion)
  | disc (type : ntohl platform.host request.type = nbdCmdDisc) :
      Operates platform aop server request chunk []
        { server with device := aop.disc.elim server.device fun disc => disc server.device, pc := .exit 0 }
  | ignored
      (type : ntohl platform.host request.type = nbdCmdFlush ∧ aop.flush = none ∨
        ntohl platform.host request.type = nbdCmdTrim ∧ aop.trim = none) :
      Operates platform aop server request chunk []
        (server.answer platform.host request (htonl platform.host 0) server.device [])
  | flush (flush : Device → Int32 × Device) (type : ntohl platform.host request.type = nbdCmdFlush)
      (given : aop.flush = some flush) :
      Operates platform aop server request chunk []
        (server.answer platform.host request (flush server.device).1.toUInt32 (flush server.device).2 [])
  | trim (trim : UInt64 → UInt32 → Device → Int32 × Device)
      (type : ntohl platform.host request.type = nbdCmdTrim) (given : aop.trim = some trim) :
      Operates platform aop server request chunk []
        (let trimmed := trim (platform.ntohll request.fromOffset) (ntohl platform.host request.len) server.device
         server.answer platform.host request trimmed.1.toUInt32 trimmed.2 [])
  | unknown
      (other : ∀ type ∈ [nbdCmdRead, nbdCmdWrite, nbdCmdDisc, nbdCmdFlush, nbdCmdTrim],
        ntohl platform.host request.type ≠ type) :
      Operates platform aop server request chunk [] { server with pc := .aborted }

/-- Each operation is one of the listed cases. -/
theorem operates_of_operate {request : NbdRequest} {chunk : Buffer} {results : List Int}
    (operated : server.operate platform aop request chunk results = some next) :
    Operates platform aop server request chunk results next := by
  unfold Server.operate at operated
  dsimp only at operated
  split at operated
  · next reads =>
      obtain ⟨completion, called, rfl⟩ := Option.map_eq_some_iff.mp operated
      exact .read results completion reads called
  · next notRead =>
      split at operated
      · next writes =>
          obtain ⟨completion, called, rfl⟩ := Option.map_eq_some_iff.mp operated
          exact .write results completion writes called
      · next notWrite =>
          split at operated
          · cases operated
          · next nothing =>
              obtain rfl := not_not.mp nothing
              split at operated
              · next disconnects =>
                  obtain rfl := Option.some.inj operated
                  exact .disc disconnects
              · next notDisc =>
                  split at operated
                  · next flushes =>
                      cases given : aop.flush with
                      | none =>
                          obtain rfl := Option.some.inj (given ▸ operated)
                          exact .ignored (.inl ⟨flushes, given⟩)
                      | some flush =>
                          obtain rfl := Option.some.inj (given ▸ operated)
                          exact .flush flush flushes given
                  · next notFlush =>
                      split at operated
                      · next trims =>
                          cases given : aop.trim with
                          | none =>
                              obtain rfl := Option.some.inj (given ▸ operated)
                              exact .ignored (.inr ⟨trims, given⟩)
                          | some trim =>
                              obtain rfl := Option.some.inj (given ▸ operated)
                              exact .trim trim trims given
                      · next notTrim =>
                          obtain rfl := Option.some.inj operated
                          exact .unknown (by simp [notRead, notWrite, notDisc, notFlush, notTrim])

/-- Each listed case is one of the operations. -/
theorem Operates.operate {request : NbdRequest} {chunk : Buffer} {results : List Int}
    (operates : Operates platform aop server request chunk results next) :
    server.operate platform aop request chunk results = some next := by
  have write : nbdCmdWrite ≠ nbdCmdRead := by decide
  have disc : nbdCmdDisc ≠ nbdCmdRead ∧ nbdCmdDisc ≠ nbdCmdWrite := by decide
  have flush : nbdCmdFlush ≠ nbdCmdRead ∧ nbdCmdFlush ≠ nbdCmdWrite ∧ nbdCmdFlush ≠ nbdCmdDisc := by decide
  have trim : nbdCmdTrim ≠ nbdCmdRead ∧ nbdCmdTrim ≠ nbdCmdWrite ∧ nbdCmdTrim ≠ nbdCmdDisc ∧
      nbdCmdTrim ≠ nbdCmdFlush := by decide
  cases operates with
  | read results completion type called => simp [Server.operate, type, called]
  | write results completion type called => simp [Server.operate, type, called, write]
  | disc type => simp [Server.operate, type, disc]
  | ignored type =>
      rcases type with ⟨type, given⟩ | ⟨type, given⟩
      · simp [Server.operate, type, given, flush]
      · simp [Server.operate, type, given, trim]
  | flush operation type given => simp [Server.operate, type, given, flush]
  | trim operation type given => simp [Server.operate, type, given, trim]
  | unknown other => simp [Server.operate, other]

end

end DistributedNas.Buse
