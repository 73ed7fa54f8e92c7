import DistributedNas.Engine.Isolation
import DistributedNas.Library.Conversation

/-
This file proves that a server with one worker answers its requests one by one, as a device on the file does.
-/

namespace DistributedNas.Engine
open Library Posix Proxy Storage

/-- A device on a file answers a read with the bytes of its range, and a write replaces the bytes of its range. -/
def fileDevice : Responder (List UInt8) NBDRWReq UInt8 where
  answer content request :=
    Library.bigEndian 4 nbdReplyMagic.toNat ++ Library.bigEndian 4 0 ++ request.mHandle.toList ++
      if request.sendsData then slice content request.start request.length else []
  next content request := request.access.perform content request

/-- A client sends no negative size and no negative offset. -/
def Label.Nonnegative {count : Nat} : Label count → Prop
  | .receive request => 0 ≤ request.mSize.toInt ∧ 0 ≤ request.mOffset.toInt
  | _ => True

/-- These requests were replied to, in the order of their replies. -/
def answeredRequests (history : List (Stage × Task)) : List NBDRWReq := (tasksAt .replied history).map Task.received

/-- The one worker is before its seek, in its transfer, in its reply, or behind its reply. -/
inductive Follows (host : Endian) (start : List UInt8) (server : Server 1) : Prop
  | before (idle : (server.workers 0).seeked = none) (notDone : ∀ task pc, server.workers 0 ≠ .done task pc)
      (answered : fileDevice.Answered start (answeredRequests server.history) server.channel.stream []
        server.file.bytes)
  | transfers (task : Task) (pc : AccessPc) (content : List UInt8) (moved : Nat)
      (running : server.workers 0 = .access task.received.access task pc)
      (progress : Progress task.received.access content ⟨server.file, task.request, pc⟩ moved)
      (answered : fileDevice.Answered start (answeredRequests server.history) server.channel.stream [] content)
  | replies (task : Task) (pc : DonePc) (answering : server.workers 0 = .done task pc) (unfinished : pc ≠ .leave)
      (small : pc.Small)
      (answered : fileDevice.Answered start (answeredRequests server.history ++ [task.received]) server.channel.stream
        (pc.rest host task.request) server.file.bytes)
  | leaves (task : Task) (leaving : server.workers 0 = .done task .leave)
      (answered : fileDevice.Answered start (answeredRequests server.history) server.channel.stream []
        server.file.bytes)

section
variable {host : Endian} {factory : Factory Int32 Handler} {server next : Server 1} {label : Label 1}
  {start : List UInt8}

theorem worker_update (server : Server 1) (after : Worker) : Function.update server.workers 0 after 0 = after :=
  Function.update_self 0 after server.workers

/-- A request that read the bytes of its range is answered as the device answers it. -/
theorem Task.Carried.reply_eq {task : Task} (carried : task.Carried) {content : List UInt8}
    (answers : task.received.access.Answers content task.request) :
    task.request.reply = fileDevice.answer content task.received := by
  obtain ⟨memory, same⟩ := carried.fields
  have payload : task.request.payload =
      if task.received.sendsData then slice content task.received.start task.received.length else [] := by
    unfold NBDRWReq.access at answers
    split
    · next reads =>
        rw [if_pos reads] at answers
        have data : task.request.data = slice content task.request.start task.request.length := answers
        rw [same] at data ⊢
        exact (if_pos reads).trans data
    · next writes =>
        rw [same]
        exact if_neg writes
  rw [NBDRWReq.reply, payload, same]
  rfl

/-- A transfer that returned has the effect of the device. -/
theorem Task.Carried.next_eq {task : Task} (carried : task.Carried) (content : List UInt8) :
    task.received.access.perform content task.request = fileDevice.next content task.received :=
  carried.perform_eq content

theorem answeredRequests_append (first second : List (Stage × Task)) :
    answeredRequests (first ++ second) = answeredRequests first ++ answeredRequests second := by
  simp [answeredRequests]

/-- The request of a busy worker has the size and the offset that were received. -/
theorem Conserved.nonnegative {count : Nat} {server : Server count} (conserved : Conserved server)
    (nonnegative : ∀ task ∈ tasksAt .received server.history,
      0 ≤ task.received.mSize.toInt ∧ 0 ≤ task.received.mOffset.toInt)
    {worker : Fin count} {task : Task} (carried : task.Carried)
    (executing : (server.workers worker).executing = some task) :
    0 ≤ task.request.mSize.toInt ∧ 0 ≤ task.request.mOffset.toInt := by
  obtain ⟨original, received, same⟩ := conserved.received_of_executing executing
  have request : original.received = task.received := congrArg Prod.snd same
  obtain ⟨memory, fields⟩ := carried.fields
  rw [fields]
  exact request ▸ nonnegative original received

/-- A step of the select thread leaves the worker where it follows the device. -/
theorem Follows.keep (follows : Follows host start server) (workers : next.workers = server.workers)
    (file : next.file = server.file) (channel : next.channel = server.channel)
    (history : answeredRequests next.history = answeredRequests server.history) : Follows host start next := by
  cases follows with
  | before idle notDone answered =>
      exact .before (workers ▸ idle) (workers ▸ notDone) (by rwa [history, channel, file])
  | transfers task pc content moved running progress answered =>
      exact .transfers task pc content moved (workers ▸ running) (file ▸ progress) (by rwa [history, channel])
  | replies task pc answering unfinished small answered =>
      exact .replies task pc (workers ▸ answering) unfinished small (by rwa [history, channel, file])
  | leaves task leaving answered => exact .leaves task (workers ▸ leaving) (by rwa [history, channel, file])

/-- A worker before its seek has sent whole answers only. -/
theorem Follows.answered (follows : Follows host start server) (idle : (server.workers 0).seeked = none)
    (notDone : ∀ task pc, server.workers 0 ≠ .done task pc) :
    fileDevice.Answered start (answeredRequests server.history) server.channel.stream [] server.file.bytes := by
  cases follows with
  | before _ _ answered => exact answered
  | transfers task pc content moved running progress answered =>
      have place : pc = .loop _ := progress.pc
      rw [running, place] at idle
      cases idle
  | replies task pc answering unfinished small answered => exact absurd answering (notDone task pc)
  | leaves task leaving answered => exact absurd leaving (notDone task .leave)

/-- A worker that stays before its seek follows the device. -/
theorem Follows.wait (follows : Follows host start server) {after : Worker}
    (idle : (server.workers 0).seeked = none) (notDone : ∀ task pc, server.workers 0 ≠ .done task pc)
    (still : after.seeked = none) (notYet : ∀ task pc, after ≠ .done task pc)
    (workers : next.workers = Function.update server.workers 0 after) (file : next.file = server.file)
    (channel : next.channel = server.channel) (history : next.history = server.history) :
    Follows host start next := by
  have place : next.workers 0 = after := by rw [workers, Function.update_self]
  apply Follows.before
  · rw [place, still]
  · rw [place]
    exact notYet
  · rw [history, channel, file]
    exact follows.answered idle notDone

/-- A step of a reply leads to the rest of the reply or behind it. -/
theorem follows_reply {task : Task} {pc : DonePc} {channel : Channel (Fin 1)} (small : pc.Small)
    (goes : pc ≠ .returned)
    (answered : fileDevice.Answered start (answeredRequests server.history ++ [task.received]) channel.stream
      (pc.rest host task.request) server.file.bytes) (sent : List (Nat × List UInt8)) :
    Follows host start
      { server with
        channel := channel
        workers := Function.update server.workers 0 (.answering task pc)
        history := server.history ++ repliedAt task pc
        sent := sent } := by
  have stays : Worker.answering task pc = .done task pc := if_neg goes
  have place : Function.update server.workers 0 (Worker.answering task pc) 0 = .done task pc := by
    rw [Function.update_self, stays]
  by_cases leaving : pc = .leave
  · subst leaving
    refine .leaves task place ?_
    have last : answeredRequests (server.history ++ repliedAt task .leave) =
        answeredRequests server.history ++ [task.received] := by
      rw [answeredRequests_append]
      rfl
    rw [last]
    exact answered
  · refine .replies task pc place leaving small ?_
    have none : repliedAt task pc = [] := if_neg leaving
    rwa [none, List.append_nil]

/-- Each positive step keeps the worker where it follows the device. -/
theorem Follows.step (registered : Registered factory) (valid : Valid server) (conserved : Conserved server)
    (nonnegative : ∀ task ∈ tasksAt .received server.history,
      0 ≤ task.received.mSize.toInt ∧ 0 ≤ task.received.mOffset.toInt)
    (follows : Follows host start server) (positive : label.Positive)
    (moves : Moves host factory server label next) : Follows host start next := by
  cases moves with
  | receive request idle type => exact follows.keep rfl rfl rfl (by simp [answeredRequests])
  | enqueue task selected => exact follows.keep rfl rfl rfl (by simp [answeredRequests])
  | dequeue worker place task rest waiting perm =>
      obtain rfl := Subsingleton.elim worker 0
      have workers : Function.update server.workers 0 (.create task) = _ := rfl
      exact follows.wait (by rw [waiting]; rfl) (by simp [waiting]) rfl (by simp) workers rfl rfl rfl
  | create worker task handler creating found =>
      obtain rfl := Subsingleton.elim worker 0
      rw [(valid.creating creating).start registered found]
      exact follows.wait (by rw [creating]; rfl) (by simp [creating]) rfl (by simp) rfl rfl rfl rfl
  | access worker operation task pc call after running stepped =>
      obtain rfl := Subsingleton.elim worker 0
      obtain ⟨carried, rfl⟩ := valid.running running
      cases pc with
      | seek =>
          cases call with
          | transfer result => cases stepped
          | lseek succeeds =>
              obtain rfl : succeeds = true := positive
              have executing : (server.workers 0).executing = some task := by rw [running]; rfl
              obtain ⟨size, offset⟩ := conserved.nonnegative nonnegative carried executing
              obtain ⟨unchanged, progress⟩ := progress_seek stepped rfl size offset rfl
              have answered := follows.answered (by rw [running]; rfl) (by simp [running])
              exact .transfers { task with request := after.request } after.pc server.file.bytes 0
                (worker_update server _) progress answered
      | loop window =>
          cases call with
          | lseek succeeds => cases stepped
          | transfer result =>
              cases follows with
              | transfers other pc content moved atLoop progress answered =>
                  obtain ⟨-, rfl, rfl⟩ := Worker.access.inj (running.symm.trans atLoop)
                  obtain ⟨count, -, -, later⟩ := progress.transfer positive stepped
                  exact .transfers { task with request := after.request } after.pc content (moved + count)
                    (worker_update server _) later answered
              | before idle notDone answered =>
                  rw [running] at idle
                  cases idle
              | replies other pc answering unfinished small answered => cases running.symm.trans answering
              | leaves other leaving answered => cases running.symm.trans leaving
  | finish worker operation task pc running returned =>
      obtain rfl := Subsingleton.elim worker 0
      obtain ⟨carried, rfl⟩ := valid.running running
      cases follows with
      | transfers other place content moved atLoop progress answered =>
          obtain ⟨-, rfl, rfl⟩ := Worker.access.inj (running.symm.trans atLoop)
          obtain ⟨bytes, answers⟩ := progress.returned returned
          refine .replies task .enter (worker_update server _) (by simp) trivial ?_
          have more := answered.answer task.received
          rw [← carried.reply_eq answers, ← carried.next_eq, ← bytes, List.nil_append] at more
          have history : answeredRequests (server.history ++ [(.transferred, task)]) =
              answeredRequests server.history := by
            simp [answeredRequests]
          rw [history]
          exact more
      | before idle notDone answered =>
          rw [running] at idle
          cases pc with
          | seek => cases returned
          | loop window => cases idle
      | replies other place answering unfinished small answered => cases running.symm.trans answering
      | leaves other leaving answered => cases running.symm.trans leaving
  | done worker task pc call channel after answering stepped =>
      obtain rfl := Subsingleton.elim worker 0
      obtain ⟨carried, -, -⟩ := valid.answering answering
      cases follows with
      | replies other place atDone unfinished small answered =>
          obtain ⟨rfl, rfl⟩ := Worker.done.inj (answering.symm.trans atDone)
          have executing : (server.workers 0).executing = some task := by
            rw [answering, Worker.executing_done unfinished]
          obtain ⟨size, -⟩ := conserved.nonnegative nonnegative carried executing
          have goes : after ≠ .returned := fun returned => unfinished ((doneStep_returned_iff stepped).mp returned)
          obtain ⟨fits, cases⟩ := doneStep_cases size small positive stepped
          rcases cases with ⟨rfl, -, rfl, -, rest⟩ | ⟨-, -, -, chunk, rfl, rest⟩ | ⟨leaving, -, -⟩
          · apply follows_reply fits goes
            rw [rest]
            exact answered
          · apply follows_reply fits goes
            rw [rest] at answered
            exact answered.send
          · exact absurd leaving unfinished
      | leaves other leaving answered =>
          obtain ⟨rfl, rfl⟩ := Worker.done.inj (answering.symm.trans leaving)
          cases doneMoves_of_doneStep stepped with
          | unlock =>
              have free : Function.update server.workers 0 (Worker.answering task .returned) 0 = .dequeue :=
                worker_update server _
              refine .before (congrArg Worker.seeked free) (fun other place => ?_) ?_
              · show Function.update server.workers 0 (Worker.answering task .returned) 0 ≠ _
                rw [free]
                nofun
              · have none : repliedAt task .returned = [] := rfl
                rw [none, List.append_nil]
                exact answered
      | before idle notDone answered => exact absurd answering (notDone task pc)
      | transfers other place content moved running progress answered => cases answering.symm.trans running

/-- Only a reception adds to the received tasks, and it adds no negative number. -/
theorem nonnegative_step {count : Nat} {server next : Server count} {label : Label count}
    (nonnegative : label.Nonnegative) (moves : Moves host factory server label next)
    (before : ∀ task ∈ tasksAt .received server.history,
      0 ≤ task.received.mSize.toInt ∧ 0 ≤ task.received.mOffset.toInt) :
    ∀ task ∈ tasksAt .received next.history, 0 ≤ task.received.mSize.toInt ∧ 0 ≤ task.received.mOffset.toInt := by
  cases moves with
  | receive request idle type =>
      simp only [tasksAt_append, tasksAt_singleton, if_true, List.forall_mem_append, List.forall_mem_singleton]
      exact ⟨before, nonnegative⟩
  | enqueue task selected => simpa using before
  | dequeue worker place task rest waiting perm => exact before
  | create worker task handler creating found => exact before
  | access worker operation task pc call after running stepped => exact before
  | finish worker operation task pc running returned => simpa using before
  | done worker task pc call channel after answering stepped => simpa using before

/-- In each state of a positive run the worker follows the device. -/
theorem follows_run (registered : Registered factory) {file : OpenFile} {labels : List (Label 1)}
    (positive : ∀ label ∈ labels, label.Positive) (nonnegative : ∀ label ∈ labels, label.Nonnegative)
    (reached : run (serverStep host factory) (.initial 1 file) labels = some server) :
    Conserved server ∧ Follows host file.bytes server := by
  have conditions : Meets (serverStep host factory) (fun _ label => label.Positive ∧ label.Nonnegative)
      (.initial 1 file) labels := (meets_of_forall positive _).and (meets_of_forall nonnegative _)
  have holds := run_invariant_of_meets (fun state => (Valid state ∧ Conserved state) ∧
      (∀ task ∈ tasksAt .received state.history,
        0 ≤ task.received.mSize.toInt ∧ 0 ≤ task.received.mOffset.toInt) ∧ Follows host file.bytes state)
    (fun state label later holds condition stepped => ?_) ?_ conditions reached
  · exact ⟨holds.1.2, holds.2.2⟩
  · obtain ⟨⟨valid, conserved⟩, sizes, follows⟩ := holds
    have moves := moves_of_serverStep stepped
    exact ⟨⟨valid.step registered moves, conserved.step registered valid moves⟩,
      nonnegative_step condition.2 moves sizes, follows.step registered valid conserved sizes condition.1 moves⟩
  · refine ⟨⟨valid_initial 1 file, conserved_initial 1 file⟩, by simp [Server.initial, tasksAt], ?_⟩
    exact .before rfl (by simp [Server.initial]) ⟨rfl, rfl⟩

end

/-- The client sees the answers of a device that takes the requests one by one. -/
structure OneByOne (start : List UInt8) (server : Server 1) : Prop where
  sent : server.channel.stream <+: fileDevice.transcript start
    (answeredRequests server.history ++ (server.workers 0).executing.toList.map Task.received)
  waiting : server.workers 0 = .dequeue →
    server.channel.stream = fileDevice.transcript start (answeredRequests server.history) ∧
      server.file.bytes = fileDevice.states start (answeredRequests server.history)
  quiescent : server.Quiescent →
    (answeredRequests server.history).Perm ((tasksAt .received server.history).map Task.received)

/-- A worker that follows the device shows its answers. -/
theorem Follows.oneByOne {host : Endian} {start : List UInt8} {server : Server 1} (conserved : Conserved server)
    (follows : Follows host start server) : OneByOne start server where
  sent := by
    cases follows with
    | before idle notDone answered => exact answered.isPrefix _
    | transfers task pc content moved running progress answered => exact answered.isPrefix _
    | replies task pc answering unfinished small answered =>
        have executing : (server.workers 0).executing = some task := by
          rw [answering, Worker.executing_done unfinished]
        have sent := answered.isPrefix []
        rw [List.append_nil] at sent
        rw [executing]
        exact sent
    | leaves task leaving answered => exact answered.isPrefix _
  waiting := by
    intro waits
    have answered := follows.answered (by rw [waits]; rfl) (by simp [waits])
    exact ⟨(List.append_nil _).symm.trans answered.symbols, answered.state⟩
  quiescent := by
    intro quiescent
    have total := congrArg (Multiset.map Prod.snd) (conserved.replied_of_quiescent quiescent)
    simpa [tags, Task.tag, answeredRequests, Function.comp_def] using total.symm

/-- A server with one worker serves each positive run of nonnegative requests as the device on its file does. -/
theorem oneWorker_serves {host : Endian} {factory : Factory Int32 Handler} (registered : Registered factory)
    {file : OpenFile} {labels : List (Label 1)} {server : Server 1} (positive : ∀ label ∈ labels, label.Positive)
    (nonnegative : ∀ label ∈ labels, label.Nonnegative)
    (reached : run (serverStep host factory) (.initial 1 file) labels = some server) :
    OneByOne file.bytes server := by
  obtain ⟨conserved, follows⟩ := follows_run registered positive nonnegative reached
  exact follows.oneByOne conserved

/-- A client reads one byte at the start of the file. -/
def firstByteRead : NBDRWReq := { firstByteWrite with mType := keyOf nbdCmdRead }

/-- A pool of one worker has this worker. -/
def soleWorker : Fin 1 := ⟨0, Nat.one_pos⟩

/-- The worker takes the later request first. -/
def writeAndRead : List (Label 1) :=
  [.receive firstByteWrite, .enqueue, .receive firstByteRead, .enqueue] ++ List.map (.work soleWorker)
    [.dequeue 0, .create, .access (.lseek true), .access (.transfer 1), .finish, .done .lock, .done (.write 10),
      .done (.write 6), .done (.write 1), .done .unlock, .dequeue 0, .create, .access (.lseek true),
      .access (.transfer 1)]

theorem oneWorker_serves_writeAndRead : ∃ server,
    run (serverStep .littleEndian (Factory.empty.addAll shippedAdds)) (.initial 1 ⟨[5], 0⟩) writeAndRead =
      some server ∧ OneByOne [5] server := by
  obtain ⟨server, reached⟩ := Option.isSome_iff_exists.mp
    (by decide : (run (serverStep .littleEndian (Factory.empty.addAll shippedAdds)) (.initial 1 ⟨[5], 0⟩)
      writeAndRead).isSome)
  have positive : ∀ label ∈ writeAndRead, label.Positive := by
    simp [writeAndRead, Label.Positive, AccessCall.Positive, DoneCall.Positive]
  have nonnegative : ∀ label ∈ writeAndRead, label.Nonnegative := by
    simp [writeAndRead, Label.Nonnegative, firstByteWrite, firstByteRead]
  exact ⟨server, reached, oneWorker_serves registered_shipped positive nonnegative reached⟩

end DistributedNas.Engine
