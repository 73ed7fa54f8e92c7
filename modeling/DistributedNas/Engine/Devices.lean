import DistributedNas.Engine.Isolation

/-
This file models the engine with any number of devices, each with its own socket, over one pool and one file.
-/

namespace DistributedNas.Engine
open Library Posix Proxy Storage

/-- A task of the engine refers to the device from which its request came. -/
structure RETask (Device : Type*) where
  mDev : Device
  task : Task

/-- The devices share the file, the queue, and the workers; the histories are kept for each device. -/
structure RequestEngine (Device : Type*) (count : Nat) where
  file : OpenFile
  channels : Device → Channel (Fin count)
  mWq : List (RETask Device)
  selectThread : Option (RETask Device)
  workers : Fin count → Worker
  mDev : Fin count → Option Device
  history : Device → List (Stage × Task)
  sent : Device → List (Nat × List UInt8)

/-- A step of the engine receives a request from one device, enqueues it, or is a step of one worker. -/
inductive EngineLabel (Device : Type*) (count : Nat) where
  | receive (device : Device) (request : NBDRWReq)
  | enqueue
  | work (worker : Fin count) (call : WorkerCall)

/-- Each write to a socket transfers at least one byte. -/
def EngineLabel.Sends {Device : Type*} {count : Nat} : EngineLabel Device count → Prop
  | .work _ (.done call) => call.Positive
  | _ => True

namespace RequestEngine
section
variable {Device : Type*} [DecidableEq Device] {count : Nat}

/-- The engine starts with waiting workers and no request. -/
def initial (count : Nat) (file : OpenFile) : RequestEngine Device count :=
  ⟨file, fun _ => ⟨[], none⟩, [], none, fun _ => .dequeue, fun _ => none, fun _ => [], fun _ => []⟩

/-- `CompareFunctor` compares the priorities of two tasks. -/
def compareTasks (lhs rhs : RETask Device) : Bool := compareFunctor lhs.task rhs.task

variable (engine : RequestEngine Device count)

/-- This function adds an event to the history of one device. -/
def note (device : Device) (events : List (Stage × Task)) : Device → List (Stage × Task) :=
  Function.update engine.history device (engine.history device ++ events)

/-- A busy worker runs the handler of its task, which answers on the socket of the device of the task. -/
def taskStep (host : Endian) (factory : Factory Int32 Handler) (worker : Fin count) (device : Device)
    (call : WorkerCall) : Option (RequestEngine Device count) :=
  match engine.workers worker, call with
  | .create task, .create =>
      match create factory task.request.toRequest with
      | .runs handler =>
          some { engine with workers := Function.update engine.workers worker (handler.start task) }
      | _ => none
  | .access access task pc, .access call =>
      (accessStep access ⟨engine.file, task.request, pc⟩ call).map fun next =>
        { engine with
          file := next.file
          workers := Function.update engine.workers worker
            (.access access { task with request := next.request } next.pc) }
  | .access _ task pc, .finish =>
      if pc.returned then
        some { engine with
          workers := Function.update engine.workers worker (.done task .enter)
          history := engine.note device [(.transferred, task)] }
      else none
  | .done task pc, .done call =>
      (doneStep host worker task.request (engine.channels device) pc call).map fun next =>
        { engine with
          channels := Function.update engine.channels device next.1
          workers := Function.update engine.workers worker (.answering task next.2)
          history := engine.note device (repliedAt task next.2)
          sent := Function.update engine.sent device (engine.sent device ++
            [(task.id, next.1.stream.drop (engine.channels device).stream.length)]) }
  | _, _ => none

/-- A waiting worker takes a task of any device. -/
def takeStep (worker : Fin count) (place : Nat) : Option (RequestEngine Device count) :=
  match engine.workers worker with
  | .dequeue =>
      (popTop compareTasks engine.mWq place).map fun popped =>
        { engine with
          mWq := popped.2
          workers := Function.update engine.workers worker (.create popped.1.task)
          mDev := Function.update engine.mDev worker (some popped.1.mDev) }
  | _ => none

/-- These are the steps of the engine. -/
def engineStep (host : Endian) (factory : Factory Int32 Handler) (engine : RequestEngine Device count) :
    EngineLabel Device count → Option (RequestEngine Device count)
  | .receive device request =>
      if engine.selectThread.isNone ∧
          (request.mType = keyOf nbdCmdRead ∨ request.mType = keyOf nbdCmdWrite) then
        let task : Task := ⟨(engine.history device).length, .low, request, request⟩
        some { engine with
          selectThread := some ⟨device, task⟩
          history := engine.note device [(.received, task)] }
      else none
  | .enqueue =>
      engine.selectThread.map fun selected =>
        { engine with
          mWq := selected :: engine.mWq
          selectThread := none
          history := engine.note selected.mDev [(.enqueued, selected.task)] }
  | .work worker (.dequeue place) => engine.takeStep worker place
  | .work worker call => (engine.mDev worker).bind fun device => engine.taskStep host factory worker device call

/-- This test says whether a task came from a device. -/
def isFrom (device : Device) (selected : RETask Device) : Bool := selected.mDev = device

/-- One device sees its own socket, its own tasks, and the workers that run them. -/
def view (device : Device) : Server count where
  file := engine.file
  channel := engine.channels device
  mWq := (engine.mWq.filter (isFrom device)).map RETask.task
  selectThread := (engine.selectThread.filter (isFrom device)).map RETask.task
  workers := fun worker => if engine.mDev worker = some device then engine.workers worker else .dequeue
  history := engine.history device
  sent := engine.sent device

variable {engine} {next : RequestEngine Device count} {host : Endian} {factory : Factory Int32 Handler}
  {device other : Device} {worker : Fin count}

theorem note_self (events : List (Stage × Task)) :
    engine.note device events device = engine.history device ++ events := Function.update_self _ _ _

theorem note_of_ne (different : other ≠ device) (events : List (Stage × Task)) :
    engine.note device events other = engine.history other := Function.update_of_ne different _ _

/-- The device of a worker sees the change of this worker. -/
theorem view_workers_self (assigned : engine.mDev worker = some device) (after : Worker) :
    (fun place => if engine.mDev place = some device then Function.update engine.workers worker after place
      else .dequeue) = Function.update (engine.view device).workers worker after := by
  funext place
  by_cases same : place = worker
  · subst same
    rw [if_pos assigned, Function.update_self, Function.update_self]
  · rw [Function.update_of_ne same, Function.update_of_ne same]
    rfl

/-- Another device does not see the change of a worker. -/
theorem view_workers_of_ne (assigned : engine.mDev worker = some device) (different : other ≠ device)
    (after : Worker) :
    (fun place => if engine.mDev place = some other then Function.update engine.workers worker after place
      else .dequeue) = (engine.view other).workers := by
  funext place
  by_cases same : place = worker
  · subst same
    have elsewhere : ¬ engine.mDev place = some other := by
      rw [assigned]
      exact fun equal => different (Option.some.inj equal).symm
    simp only [view, if_neg elsewhere]
  · rw [Function.update_of_ne same]
    rfl

/-- The device of a busy worker sees its state. -/
theorem view_worker (assigned : engine.mDev worker = some device) :
    (engine.view device).workers worker = engine.workers worker := if_pos assigned

/-- This relation says that a step is one of the server of a device, while the others see at most the file change. -/
def StepsAt (host : Endian) (factory : Factory Int32 Handler) (engine next : RequestEngine Device count)
    (sends : Prop) : Prop :=
  ∃ device label, Moves host factory (engine.view device) label (next.view device) ∧ (sends → label.Sends) ∧
    ∀ other, other ≠ device → next.view other = { engine.view other with file := next.file }

/-- A step of a busy worker is a step of the server of its device. -/
theorem stepsAt_of_taskStep (assigned : engine.mDev worker = some device) {call : WorkerCall}
    (stepped : engine.taskStep host factory worker device call = some next) :
    StepsAt host factory engine next (EngineLabel.Sends (.work worker call : EngineLabel Device count)) := by
  have seen := view_worker assigned
  unfold taskStep at stepped
  refine ⟨device, .work worker call, ?_⟩
  split at stepped
  · next task creating =>
      split at stepped
      · next handler runs =>
          obtain rfl := Option.some.inj stepped
          have found : factory.find task.request.mType = some handler := by
            unfold create at runs
            split at runs
            · cases runs
            · next registered known => rw [← Routing.runs.inj runs]; exact known
          refine ⟨?_, fun _ => trivial, fun other different => ?_⟩
          · have moved : Moves host factory (engine.view device) (.work worker .create) _ :=
              .create worker task handler (seen.trans creating) found
            rwa [← view_workers_self assigned] at moved
          · simp only [view, view_workers_of_ne assigned different]
      · cases stepped
  · next access task pc call running =>
      obtain ⟨after, accessed, rfl⟩ := Option.map_eq_some_iff.mp stepped
      refine ⟨?_, fun _ => trivial, fun other different => ?_⟩
      · have moved : Moves host factory (engine.view device) (.work worker (.access call)) _ :=
          .access worker access task pc call after (seen.trans running) accessed
        rwa [← view_workers_self assigned] at moved
      · simp only [view, view_workers_of_ne assigned different]
  · next access task pc running =>
      split at stepped
      · next returned =>
          obtain rfl := Option.some.inj stepped
          refine ⟨?_, fun _ => trivial, fun other different => ?_⟩
          · have moved : Moves host factory (engine.view device) (.work worker .finish) _ :=
              .finish worker access task pc (seen.trans running) returned
            rw [← view_workers_self assigned] at moved
            simpa only [view, note_self] using moved
          · simp only [view, view_workers_of_ne assigned different, note_of_ne different]
      · cases stepped
  · next task pc call answering =>
      obtain ⟨⟨channel, after⟩, wrote, rfl⟩ := Option.map_eq_some_iff.mp stepped
      refine ⟨?_, fun sends => sends, fun other different => ?_⟩
      · have moved : Moves host factory (engine.view device) (.work worker (.done call)) _ :=
          .done worker task pc call channel after (seen.trans answering) wrote
        rw [← view_workers_self assigned] at moved
        simpa only [view, note_self, Function.update_self] using moved
      · simp only [view, view_workers_of_ne assigned different, note_of_ne different,
          Function.update_of_ne different]
  · cases stepped

/-- A worker that takes a task appears at the device of this task. -/
theorem stepsAt_of_takeStep {place : Nat} (taken : engine.takeStep worker place = some next) :
    StepsAt host factory engine next True := by
  unfold takeStep at taken
  split at taken
  · next waiting =>
      obtain ⟨⟨selected, rest⟩, popped, rfl⟩ := Option.map_eq_some_iff.mp taken
      have idle : ∀ device, (engine.view device).workers worker = .dequeue := by
        intro device
        simp only [view, waiting, ite_self]
      refine ⟨selected.mDev, .work worker (.dequeue place), ?_, fun _ => trivial, fun other different => ?_⟩
      · have queued : (engine.view selected.mDev).mWq.Perm
            (selected.task :: (rest.filter (isFrom selected.mDev)).map RETask.task) := by
          have perm := ((popTop_eq_some popped).2.filter (isFrom selected.mDev)).map RETask.task
          rwa [List.filter_cons_of_pos (by simp [isFrom]), List.map_cons] at perm
        have moved : Moves host factory (engine.view selected.mDev) (.work worker (.dequeue place)) _ :=
          .dequeue worker place selected.task _ (idle selected.mDev) queued
        have workers : (fun spot => if Function.update engine.mDev worker (some selected.mDev) spot =
            some selected.mDev then Function.update engine.workers worker (.create selected.task) spot
              else .dequeue) =
            Function.update (engine.view selected.mDev).workers worker (.create selected.task) := by
          funext spot
          by_cases same : spot = worker
          · subst same
            rw [Function.update_self, Function.update_self, Function.update_self, if_pos rfl]
          · simp only [Function.update_of_ne same, view]
        rwa [← workers] at moved
      · have kept : rest.filter (isFrom other) = engine.mWq.filter (isFrom other) :=
          filter_of_popTop popped (by simpa [isFrom] using Ne.symm different)
        have workers : (fun spot => if Function.update engine.mDev worker (some selected.mDev) spot = some other
            then Function.update engine.workers worker (.create selected.task) spot else .dequeue) =
            (engine.view other).workers := by
          funext spot
          by_cases same : spot = worker
          · subst same
            have elsewhere : ¬ some selected.mDev = some other :=
              fun equal => different (Option.some.inj equal).symm
            rw [Function.update_self, if_neg elsewhere, idle other]
          · simp only [Function.update_of_ne same, view]
        simp only [view, kept, workers]
  · cases taken

/-- Each step of the engine is a step of the server of one device, and the others see at most a change of the file. -/
theorem stepsAt_of_engineStep {label : EngineLabel Device count}
    (stepped : engine.engineStep host factory label = some next) :
    StepsAt host factory engine next label.Sends := by
  cases label with
  | receive device request =>
      simp only [engineStep] at stepped
      split at stepped
      · next enabled =>
          obtain rfl := Option.some.inj stepped
          have free : engine.selectThread = none := Option.isNone_iff_eq_none.mp enabled.1
          have idle : ∀ device, (engine.view device).selectThread = none := by
            intro device
            simp only [view, free, Option.filter_none, Option.map_none]
          refine ⟨device, .receive request, ?_, fun _ => trivial, fun other different => ?_⟩
          · have moved : Moves host factory (engine.view device) (.receive request) _ :=
              .receive request (idle device) enabled.2
            convert moved using 1
            simp [view, note_self, isFrom]
          · have apart : isFrom other ⟨device, ⟨(engine.history device).length, .low, request, request⟩⟩ = false := by
              simpa [isFrom] using Ne.symm different
            simp [view, note_of_ne different, free, apart]
      · cases stepped
  | enqueue =>
      obtain ⟨selected, received, rfl⟩ := Option.map_eq_some_iff.mp stepped
      refine ⟨selected.mDev, .enqueue, ?_, fun _ => trivial, fun other different => ?_⟩
      · have waiting : (engine.view selected.mDev).selectThread = some selected.task := by
          simp [view, received, isFrom]
        have moved : Moves host factory (engine.view selected.mDev) .enqueue _ := .enqueue selected.task waiting
        simpa [view, note_self, isFrom] using moved
      · have apart : isFrom other selected = false := by simpa [isFrom] using Ne.symm different
        simp [view, note_of_ne different, received, apart]
  | work worker call =>
      have busy : (engine.mDev worker).bind (fun device => engine.taskStep host factory worker device call) =
          some next →
          StepsAt host factory engine next (EngineLabel.Sends (.work worker call : EngineLabel Device count)) := by
        intro bound
        obtain ⟨device, assigned, ran⟩ := Option.bind_eq_some_iff.mp bound
        exact stepsAt_of_taskStep assigned ran
      cases call with
      | dequeue place => exact stepsAt_of_takeStep stepped
      | _ => exact busy stepped

/-- These facts about the server of one device do not depend on the file. -/
structure Kept (host : Endian) (server : Server count) : Prop where
  valid : Valid server
  conserved : Conserved server
  headed : Headed host server

/-- The file may change without the device. -/
theorem Kept.withFile {server : Server count} (kept : Kept host server) (file : OpenFile) :
    Kept host { server with file := file } where
  valid := ⟨kept.valid.selected, kept.valid.queued, kept.valid.workers, kept.valid.replied, kept.valid.stream,
    kept.valid.sent⟩
  conserved := ⟨kept.conserved.received, kept.conserved.enqueued, kept.conserved.fresh, kept.conserved.distinct⟩
  headed := ⟨kept.headed.parts, kept.headed.answering, kept.headed.left, kept.headed.replied⟩

theorem kept_initial (host : Endian) (file : OpenFile) (device : Device) :
    Kept host ((initial count file : RequestEngine Device count).view device) where
  valid := valid_initial count file
  conserved := conserved_initial count file
  headed := headed_initial host count file

/-- A step of the engine keeps these facts for each device. -/
theorem kept_step (registered : Registered factory) {label : EngineLabel Device count} (sends : label.Sends)
    (kept : ∀ device, Kept host (engine.view device)) (stepped : engine.engineStep host factory label = some next)
    (device : Device) : Kept host (next.view device) := by
  obtain ⟨moved, action, moves, sent, others⟩ := stepsAt_of_engineStep stepped
  by_cases same : device = moved
  · subst same
    have before := kept device
    constructor
    · exact before.valid.step registered moves
    · exact before.conserved.step registered before.valid moves
    · exact before.headed.step before.conserved (sent sends) moves
  · rw [others device same]
    exact (kept device).withFile next.file

/-- One device gets on its socket replies to its own requests only, at most one each, and all of them in the end. -/
structure Separate (host : Endian) (engine : RequestEngine Device count) (device : Device) : Prop where
  stream : (engine.sent device).flatMap Prod.snd = (engine.channels device).stream
  owners : ∀ part ∈ engine.sent device, ∃ task ∈ tasksAt .received (engine.history device), task.id = part.1
  headers : ∀ task ∈ tasksAt .replied (engine.history device),
    replyHeader host task.request <+: sentBy task.id (engine.sent device)
  replied : ∀ task ∈ tasksAt .replied (engine.history device),
    ∃ original ∈ tasksAt .received (engine.history device), original.tag = task.tag
  once : ((tasksAt .replied (engine.history device)).map Task.id).Nodup
  answered : (engine.view device).Quiescent →
    tags (tasksAt .received (engine.history device)) = tags (tasksAt .replied (engine.history device))

/-- The facts about the server of one device keep its socket apart from the others. -/
theorem Kept.separate (kept : Kept host (engine.view device)) : Separate host engine device where
  stream := kept.valid.stream
  owners := by
    intro part member
    have named : ∀ task : Task, (∃ original ∈ tasksAt .received (engine.history device), original.tag = task.tag) →
        task.id = part.1 → ∃ task ∈ tasksAt .received (engine.history device), task.id = part.1 := by
      rintro task ⟨original, received, same⟩ identity
      exact ⟨original, received, (congrArg Prod.fst same).trans identity⟩
    rcases kept.headed.parts part member with ⟨worker, task, pc, answering, inside, identity⟩ | finished
    · apply named task (kept.conserved.received_of_executing _) identity
      · exact worker
      · rw [answering, Worker.executing_done inside]
    · obtain ⟨task, replied, identity⟩ := List.mem_map.mp finished
      exact named task (kept.conserved.received_of_replied replied) identity
  headers := kept.headed.replied
  replied := fun task member => kept.conserved.received_of_replied member
  once := by
    apply List.nodup_iff_count_le_one.mpr
    intro id
    exact (Nat.le_add_left _ _).trans (kept.conserved.count_le_one id)
  answered := fun quiescent => kept.conserved.replied_of_quiescent quiescent

/-- In each run of the engine the sockets of all devices stay separate, for any number of devices and workers. -/
theorem separate_run (registered : Registered factory) {file : OpenFile} {labels : List (EngineLabel Device count)}
    {final : RequestEngine Device count} (sends : ∀ label ∈ labels, label.Sends)
    (reached : run (engineStep host factory) (initial count file) labels = some final) (device : Device) :
    Separate host final device := by
  have kept : ∀ device, Kept host (final.view device) := by
    apply run_invariant_of_meets
      (fun engine : RequestEngine Device count => ∀ device, Kept host (engine.view device)) _
      (kept_initial host file) (meets_of_forall sends (initial count file)) reached
    exact fun engine label next before condition stepped => kept_step registered condition before stepped
  exact (kept device).separate

end
end RequestEngine

/-- Two devices have one request each, and two workers answer them side by side. -/
def twoDevices : List (EngineLabel Bool 2) :=
  [.receive true firstByteWrite, .enqueue, .receive false firstByteWrite, .enqueue,
    .work firstWorker (.dequeue 0), .work secondWorker (.dequeue 0), .work firstWorker .create,
    .work secondWorker .create, .work firstWorker (.access (.lseek true)),
    .work firstWorker (.access (.transfer 1)), .work secondWorker (.access (.lseek true)),
    .work secondWorker (.access (.transfer 1)), .work firstWorker .finish, .work secondWorker .finish,
    .work firstWorker (.done .lock), .work secondWorker (.done .lock), .work firstWorker (.done (.write 16)),
    .work secondWorker (.done (.write 16)), .work secondWorker (.done .unlock), .work firstWorker (.done .unlock)]

/-- Each device gets one reply on its own socket. -/
theorem separate_twoDevices :
    ∃ final, run (RequestEngine.engineStep .littleEndian (Factory.empty.addAll shippedAdds))
        (.initial 2 ⟨[5], 0⟩) twoDevices = some final ∧
      ∀ device, RequestEngine.Separate .littleEndian final device := by
  obtain ⟨final, reached⟩ := Option.isSome_iff_exists.mp
    (by decide : (run (RequestEngine.engineStep .littleEndian (Factory.empty.addAll shippedAdds))
      (.initial 2 ⟨[5], 0⟩) twoDevices).isSome)
  have sends : ∀ label ∈ twoDevices, label.Sends := by simp [twoDevices, EngineLabel.Sends, DoneCall.Positive]
  exact ⟨final, reached, RequestEngine.separate_run registered_shipped sends reached⟩

end DistributedNas.Engine
