import DistributedNas.Engine.Factory
import DistributedNas.Library.Interleaving
import DistributedNas.Library.PriorityQueue
import DistributedNas.Storage.MemoryFile

/-
This file models the server: the select thread, the task queue, and the workers that execute its tasks.
-/

namespace DistributedNas.Engine
open Library Posix Proxy Storage
open scoped List

/-- A task of the pool has one of three priorities. -/
inductive Priority where
  | low
  | medium
  | high
  deriving DecidableEq, Repr

/-- These are the numbers of the enumeration. -/
def Priority.toNat : Priority → Nat
  | .low => 0
  | .medium => 1
  | .high => 2

/-- A task refers to one request; its identity and the request as it was received are kept for the statements. -/
structure Task where
  id : Nat
  priority : Priority
  received : NBDRWReq
  request : NBDRWReq

/-- `CompareFunctor` puts the lowest priority on top. -/
def compareFunctor (lhs rhs : Task) : Bool := decide (lhs.priority.toNat > rhs.priority.toNat)

/-- A worker waits for a task, looks up its handler, runs the file operation, or answers the request. -/
inductive Worker where
  | dequeue
  | create (task : Task)
  | access (access : Access) (task : Task) (pc : AccessPc)
  | done (task : Task) (pc : DonePc)

/-- The history of a request has these stages. -/
inductive Stage where
  | received
  | enqueued
  | transferred
  | replied
  deriving DecidableEq, Repr

/-- The threads share the file, the socket, and the queue; the history and the sent parts are kept too. -/
structure Server (count : Nat) where
  file : OpenFile
  channel : Channel (Fin count)
  mWq : List Task
  selectThread : Option Task
  workers : Fin count → Worker
  history : List (Stage × Task)
  sent : List (Nat × List UInt8)

/-- The server starts with waiting workers and no request. -/
def Server.initial (count : Nat) (file : OpenFile) : Server count :=
  ⟨file, ⟨[], none⟩, [], none, fun _ => .dequeue, [], []⟩

/-- These are the steps of one worker. -/
inductive WorkerCall where
  | dequeue (place : Nat)
  | create
  | access (call : AccessCall)
  | finish
  | done (call : DoneCall)
  deriving DecidableEq, Repr

/-- A step of the server is a step of the select thread or of one worker. -/
inductive Label (count : Nat) where
  | receive (request : NBDRWReq)
  | enqueue
  | work (worker : Fin count) (call : WorkerCall)

/-- The created handler starts its file operation, and the handler of a disconnect returns at once. -/
def Handler.start (task : Task) : Handler → Worker
  | .read => .access .read task .seek
  | .write => .access .write task .seek
  | .disc => .dequeue

/-- After `Done` the worker waits for its next task. -/
def Worker.answering (task : Task) (pc : DonePc) : Worker :=
  if pc = .returned then .dequeue else .done task pc

/-- The request is replied to when the last byte of its reply was written. -/
def repliedAt (task : Task) (pc : DonePc) : List (Stage × Task) :=
  if pc = .leave then [(.replied, task)] else []

/-- This is one step of one worker. -/
def workerStep (host : Endian) (factory : Factory Int32 Handler) {count : Nat} (server : Server count)
    (worker : Fin count) (call : WorkerCall) : Option (Server count) :=
  match server.workers worker, call with
  | .dequeue, .dequeue place =>
      (popTop compareFunctor server.mWq place).map fun popped =>
        { server with mWq := popped.2, workers := Function.update server.workers worker (.create popped.1) }
  | .create task, .create =>
      match create factory task.request.toRequest with
      | .runs handler =>
          some { server with workers := Function.update server.workers worker (handler.start task) }
      | _ => none
  | .access access task pc, .access call =>
      (accessStep access ⟨server.file, task.request, pc⟩ call).map fun next =>
        { server with
          file := next.file
          workers := Function.update server.workers worker
            (.access access { task with request := next.request } next.pc) }
  | .access _ task pc, .finish =>
      if pc.returned then
        some { server with
          workers := Function.update server.workers worker (.done task .enter)
          history := server.history ++ [(.transferred, task)] }
      else none
  | .done task pc, .done call =>
      (doneStep host worker task.request server.channel pc call).map fun next =>
        { server with
          channel := next.1
          workers := Function.update server.workers worker (.answering task next.2)
          history := server.history ++ repliedAt task next.2
          sent := server.sent ++ [(task.id, next.1.stream.drop server.channel.stream.length)] }
  | _, _ => none

/-- The select thread receives a read or a write and then enqueues its task. -/
def serverStep (host : Endian) (factory : Factory Int32 Handler) {count : Nat} (server : Server count) :
    Label count → Option (Server count)
  | .receive request =>
      if server.selectThread.isNone ∧
          (request.mType = keyOf nbdCmdRead ∨ request.mType = keyOf nbdCmdWrite) then
        let task : Task := ⟨server.history.length, .low, request, request⟩
        some { server with selectThread := some task, history := server.history ++ [(.received, task)] }
      else none
  | .enqueue =>
      server.selectThread.map fun task =>
        { server with
          mWq := task :: server.mWq
          selectThread := none
          history := server.history ++ [(.enqueued, task)] }
  | .work worker call => workerStep host factory server worker call

section
variable {host : Endian} {factory : Factory Int32 Handler} {count : Nat}

/-- This relation lists what a step of the server can do. -/
inductive Moves (host : Endian) (factory : Factory Int32 Handler) (server : Server count) :
    Label count → Server count → Prop
  | receive (request : NBDRWReq) (idle : server.selectThread = none)
      (type : request.mType = keyOf nbdCmdRead ∨ request.mType = keyOf nbdCmdWrite) :
      Moves host factory server (.receive request)
        { server with
          selectThread := some ⟨server.history.length, .low, request, request⟩
          history := server.history ++ [(.received, ⟨server.history.length, .low, request, request⟩)] }
  | enqueue (task : Task) (received : server.selectThread = some task) :
      Moves host factory server .enqueue
        { server with
          mWq := task :: server.mWq
          selectThread := none
          history := server.history ++ [(.enqueued, task)] }
  | dequeue (worker : Fin count) (place : Nat) (task : Task) (rest : List Task)
      (waiting : server.workers worker = .dequeue) (queued : server.mWq.Perm (task :: rest)) :
      Moves host factory server (.work worker (.dequeue place))
        { server with mWq := rest, workers := Function.update server.workers worker (.create task) }
  | create (worker : Fin count) (task : Task) (handler : Handler)
      (creating : server.workers worker = .create task)
      (found : factory.find task.request.mType = some handler) :
      Moves host factory server (.work worker .create)
        { server with workers := Function.update server.workers worker (handler.start task) }
  | access (worker : Fin count) (access : Access) (task : Task) (pc : AccessPc) (call : AccessCall)
      (next : AccessState) (running : server.workers worker = .access access task pc)
      (stepped : accessStep access ⟨server.file, task.request, pc⟩ call = some next) :
      Moves host factory server (.work worker (.access call))
        { server with
          file := next.file
          workers := Function.update server.workers worker
            (.access access { task with request := next.request } next.pc) }
  | finish (worker : Fin count) (access : Access) (task : Task) (pc : AccessPc)
      (running : server.workers worker = .access access task pc) (returned : pc.returned) :
      Moves host factory server (.work worker .finish)
        { server with
          workers := Function.update server.workers worker (.done task .enter)
          history := server.history ++ [(.transferred, task)] }
  | done (worker : Fin count) (task : Task) (pc : DonePc) (call : DoneCall) (channel : Channel (Fin count))
      (next : DonePc) (answering : server.workers worker = .done task pc)
      (stepped : doneStep host worker task.request server.channel pc call = some (channel, next)) :
      Moves host factory server (.work worker (.done call))
        { server with
          channel := channel
          workers := Function.update server.workers worker (.answering task next)
          history := server.history ++ repliedAt task next
          sent := server.sent ++ [(task.id, channel.stream.drop server.channel.stream.length)] }

/-- Each step of the server is one of the listed moves. -/
theorem moves_of_serverStep {server next : Server count} {label : Label count}
    (stepped : serverStep host factory server label = some next) : Moves host factory server label next := by
  cases label with
  | receive request =>
      simp only [serverStep] at stepped
      split at stepped
      · next enabled =>
          obtain rfl := Option.some.inj stepped
          exact .receive request (Option.isNone_iff_eq_none.mp enabled.1) enabled.2
      · cases stepped
  | enqueue =>
      obtain ⟨task, received, rfl⟩ := Option.map_eq_some_iff.mp stepped
      exact .enqueue task received
  | work worker call =>
      simp only [serverStep, workerStep] at stepped
      split at stepped
      · next place waiting =>
          obtain ⟨⟨task, rest⟩, popped, rfl⟩ := Option.map_eq_some_iff.mp stepped
          exact .dequeue worker place task rest waiting (popTop_eq_some popped).2
      · next task creating =>
          split at stepped
          · next handler runs =>
              obtain rfl := Option.some.inj stepped
              apply Moves.create worker task handler creating
              unfold create at runs
              split at runs
              · cases runs
              · next other found => rw [found, ← Routing.runs.inj runs]
          · cases stepped
      · next access task pc call running =>
          obtain ⟨next, accessed, rfl⟩ := Option.map_eq_some_iff.mp stepped
          exact .access worker access task pc call next running accessed
      · next access task pc running =>
          split at stepped
          · next returned =>
              obtain rfl := Option.some.inj stepped
              exact .finish worker access task pc running returned
          · cases stepped
      · next task pc call answering =>
          obtain ⟨⟨channel, next⟩, wrote, rfl⟩ := Option.map_eq_some_iff.mp stepped
          exact .done worker task pc call channel next answering wrote
      · cases stepped

end

end DistributedNas.Engine
