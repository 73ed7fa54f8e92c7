import DistributedNas.Engine.Conservation

/-
This file follows the bytes of each reply from its worker to the socket.
-/

namespace DistributedNas.Engine
open Library Posix Proxy Storage

/-- These bytes were sent under one identity. -/
def sentBy (id : Nat) (sent : List (Nat × List UInt8)) : List UInt8 :=
  (sent.filter fun part => part.1 = id).flatMap Prod.snd

theorem sentBy_snoc (id : Nat) (sent : List (Nat × List UInt8)) (part : Nat × List UInt8) :
    sentBy id (sent ++ [part]) = sentBy id sent ++ if part.1 = id then part.2 else [] := by
  unfold sentBy
  split <;> simp_all

theorem prefix_sentBy_snoc (id : Nat) (sent : List (Nat × List UInt8)) (part : Nat × List UInt8) :
    sentBy id sent <+: sentBy id (sent ++ [part]) := by
  rw [sentBy_snoc]
  exact List.prefix_append _ _

/-- Nothing was sent under an identity that no part has. -/
theorem sentBy_eq_nil {id : Nat} {sent : List (Nat × List UInt8)} (absent : ∀ part ∈ sent, part.1 ≠ id) :
    sentBy id sent = [] := by
  unfold sentBy
  rw [List.filter_eq_nil_iff.mpr (by simpa using absent), List.flatMap_nil]

/-- Each write to the socket transfers at least one byte. -/
def Label.Sends {count : Nat} : Label count → Prop
  | .work _ (.done call) => call.Positive
  | _ => True

/-- The bytes that were sent under the name of a request begin with its reply header. -/
structure Headed (host : Endian) {count : Nat} (server : Server count) : Prop where
  parts : ∀ part ∈ server.sent,
    (∃ worker task pc, server.workers worker = .done task pc ∧ pc ≠ .leave ∧ task.id = part.1) ∨
      part.1 ∈ (tasksAt .replied server.history).map Task.id
  answering : ∀ worker task pc, server.workers worker = .done task pc →
    pc.Heads host task.request (sentBy task.id server.sent)
  left : ∀ worker task, server.workers worker = .done task .leave → task ∈ tasksAt .replied server.history
  replied : ∀ task ∈ tasksAt .replied server.history, replyHeader host task.request <+: sentBy task.id server.sent

section
variable {host : Endian} {factory : Factory Int32 Handler} {count : Nat} {server next : Server count}
  {label : Label count}

theorem headed_initial (host : Endian) (count : Nat) (file : OpenFile) : Headed host (.initial count file) := by
  refine ⟨?_, ?_, ?_, ?_⟩ <;> simp [Server.initial, tasksAt]

theorem Worker.executing_done {task : Task} {pc : DonePc} (running : pc ≠ .leave) :
    (Worker.done task pc).executing = some task :=
  if_neg running

/-- A state with the same answers and the same workers in `Done` is headed as before. -/
theorem Headed.keep (headed : Headed host server) (sent : next.sent = server.sent)
    (replied : tasksAt .replied next.history = tasksAt .replied server.history)
    (same : ∀ worker task pc, next.workers worker = .done task pc ↔ server.workers worker = .done task pc) :
    Headed host next := by
  obtain ⟨parts, answering, left, heads⟩ := headed
  refine ⟨?_, ?_, ?_, ?_⟩ <;> simpa only [sent, replied, same]

/-- A step of a worker outside `Done` leaves the workers in `Done` alone. -/
theorem done_update_iff {workers : Fin count → Worker} {worker : Fin count} {after : Worker}
    (before : ∀ task pc, workers worker ≠ .done task pc) (afterwards : ∀ task pc, after ≠ .done task pc)
    (other : Fin count) (task : Task) (pc : DonePc) :
    Function.update workers worker after other = .done task pc ↔ workers other = .done task pc := by
  rcases eq_or_ne other worker with rfl | different
  · rw [Function.update_self]
    exact iff_of_false (afterwards task pc) (before task pc)
  · rw [Function.update_of_ne different]

theorem Handler.start_ne_done (handler : Handler) (task other : Task) (pc : DonePc) :
    handler.start task ≠ .done other pc := by
  cases handler <;> simp [start]

/-- A worker that enters `Done` has sent nothing yet. -/
theorem Headed.finish (conserved : Conserved server) (headed : Headed host server) {worker : Fin count}
    {operation : Access} {task : Task} {pc : AccessPc} (running : server.workers worker = .access operation task pc)
    (workers : next.workers = Function.update server.workers worker (.done task .enter))
    (sent : next.sent = server.sent)
    (replied : tasksAt .replied next.history = tasksAt .replied server.history) : Headed host next := by
  have executing : (server.workers worker).executing = some task := by rw [running]; rfl
  have elsewhere : ∀ {other : Fin count} {busy : Task} {place : DonePc},
      server.workers other = .done busy place → other ≠ worker := by
    rintro other busy place answering rfl
    rw [running] at answering
    cases answering
  refine ⟨fun part member => ?_, fun other busy place answering => ?_, fun other busy answering => ?_, ?_⟩
  · rw [replied]
    refine (headed.parts part (sent ▸ member)).imp_left ?_
    rintro ⟨other, busy, place, answering, rest⟩
    refine ⟨other, busy, place, ?_, rest⟩
    rw [workers, Function.update_of_ne (elsewhere answering), answering]
  · rw [sent]
    rw [workers] at answering
    rcases eq_or_ne other worker with rfl | different
    · rw [Function.update_self] at answering
      obtain ⟨rfl, rfl⟩ := Worker.done.inj answering
      apply sentBy_eq_nil
      intro part member same
      rcases headed.parts part member with ⟨second, busy, place, inDone, notLeft, name⟩ | done
      · have busyExecuting : (server.workers second).executing = some busy := by
          rw [inDone, Worker.executing_done notLeft]
        exact elsewhere inDone (conserved.same_worker busyExecuting executing (name.trans same))
      · obtain ⟨earlier, member, name⟩ := List.mem_map.mp done
        exact conserved.not_replied executing member (name.trans same)
    · rw [Function.update_of_ne different] at answering
      exact headed.answering other busy place answering
  · rw [replied]
    rw [workers] at answering
    rcases eq_or_ne other worker with rfl | different
    · rw [Function.update_self] at answering
      cases answering
    · rw [Function.update_of_ne different] at answering
      exact headed.left other busy answering
  · simpa only [sent, replied] using headed.replied

theorem Worker.answering_eq_done {task other : Task} {pc place : DonePc}
    (same : Worker.answering task pc = .done other place) : other = task ∧ place = pc := by
  unfold answering at same
  split at same
  · cases same
  · obtain ⟨rfl, rfl⟩ := Worker.done.inj same
    exact ⟨rfl, rfl⟩

/-- Two workers in `Done` with one identity have both sent their headers. -/
theorem Headed.shared (conserved : Conserved server) (headed : Headed host server) {worker other : Fin count}
    {task busy : Task} {pc place : DonePc} (answering : server.workers worker = .done task pc)
    (elsewhere : server.workers other = .done busy place) (same : busy.id = task.id) (different : other ≠ worker) :
    place = .leave := by
  by_contra running
  have executing : (server.workers other).executing = some busy := by
    rw [elsewhere, Worker.executing_done running]
  by_cases leaving : pc = .leave
  · exact conserved.not_replied executing (headed.left worker task (leaving ▸ answering)) same.symm
  · have also : (server.workers worker).executing = some task := by
      rw [answering, Worker.executing_done leaving]
    exact different (conserved.same_worker executing also same)

/-- A step of a worker in `Done` sends the next bytes of its reply. -/
theorem Headed.done (conserved : Conserved server) (headed : Headed host server) {worker : Fin count} {task : Task}
    {pc after : DonePc} {call : DoneCall} {channel : Channel (Fin count)}
    (answering : server.workers worker = .done task pc) (positive : call.Positive)
    (stepped : doneStep host worker task.request server.channel pc call = some (channel, after)) :
    Headed host
      { server with
        channel := channel
        workers := Function.update server.workers worker (.answering task after)
        history := server.history ++ repliedAt task after
        sent := server.sent ++ [(task.id, channel.stream.drop server.channel.stream.length)] } := by
  have heads := (headed.answering worker task pc answering).step positive stepped
  have replied : tasksAt .replied (server.history ++ repliedAt task after) =
      tasksAt .replied server.history ++ if after = .leave then [task] else [] := by
    simp
  have own : (∃ second busy place, Function.update server.workers worker (.answering task after) second =
        .done busy place ∧ place ≠ .leave ∧ busy.id = task.id) ∨
      task.id ∈ (tasksAt .replied (server.history ++ repliedAt task after)).map Task.id := by
    rw [replied]
    by_cases leaving : pc = .leave
    · have member := headed.left worker task (leaving ▸ answering)
      right
      exact List.mem_map_of_mem (List.mem_append_left _ member)
    · by_cases last : after = .leave
      · right
        simp [last]
      · left
        refine ⟨worker, task, after, ?_, last, rfl⟩
        have running : after ≠ .returned := fun ended => leaving ((doneStep_returned_iff stepped).mp ended)
        rw [Function.update_self, Worker.answering, if_neg running]
  refine ⟨fun part member => ?_, fun other busy place inDone => ?_, fun other busy inDone => ?_,
    fun earlier member => ?_⟩
  · rcases List.mem_append.mp member with before | now
    · rcases headed.parts part before with ⟨second, busy, place, inDone, notLeft, name⟩ | done
      · rcases eq_or_ne second worker with rfl | different
        · obtain ⟨rfl, -⟩ := Worker.done.inj (answering.symm.trans inDone)
          exact name ▸ own
        · left
          exact ⟨second, busy, place, by simp only [Function.update_of_ne different, inDone], notLeft, name⟩
      · right
        rw [replied, List.map_append]
        exact List.mem_append_left _ done
    · rw [List.mem_singleton.mp now]
      exact own
  · simp only at inDone ⊢
    rcases eq_or_ne other worker with rfl | different
    · rw [Function.update_self] at inDone
      obtain ⟨rfl, rfl⟩ := Worker.answering_eq_done inDone
      rw [sentBy_snoc, if_pos rfl]
      exact heads
    · rw [Function.update_of_ne different] at inDone
      have before := headed.answering other busy place inDone
      by_cases same : busy.id = task.id
      · obtain rfl := headed.shared conserved answering inDone same different
        exact List.IsPrefix.trans before (prefix_sentBy_snoc _ _ _)
      · rwa [sentBy_snoc, if_neg (Ne.symm same), List.append_nil]
  · simp only at inDone
    rw [replied, List.mem_append]
    rcases eq_or_ne other worker with rfl | different
    · rw [Function.update_self] at inDone
      obtain ⟨rfl, last⟩ := Worker.answering_eq_done inDone
      right
      simp [← last]
    · rw [Function.update_of_ne different] at inDone
      left
      exact headed.left other busy inDone
  · simp only [replied, List.mem_append] at member ⊢
    rcases member with before | now
    · exact (headed.replied earlier before).trans (prefix_sentBy_snoc _ _ _)
    · split at now
      · next last =>
          obtain rfl := List.mem_singleton.mp now
          rw [sentBy_snoc, if_pos rfl]
          rw [last] at heads
          exact heads
      · cases now

/-- Each move keeps the sent replies headed. -/
theorem Headed.step (conserved : Conserved server) (headed : Headed host server) (sends : label.Sends)
    (moves : Moves host factory server label next) :
    Headed host next := by
  cases moves with
  | receive request idle type => exact headed.keep rfl (by simp) fun _ _ _ => Iff.rfl
  | enqueue task received => exact headed.keep rfl (by simp) fun _ _ _ => Iff.rfl
  | dequeue worker place task rest waiting queued =>
      exact headed.keep rfl rfl (done_update_iff (by simp [waiting]) (by simp))
  | create worker task handler creating found =>
      exact headed.keep rfl rfl (done_update_iff (by simp [creating]) (handler.start_ne_done task))
  | access worker operation task pc call after running stepped =>
      exact headed.keep rfl rfl (done_update_iff (by simp [running]) (by simp))
  | finish worker operation task pc running returned =>
      exact headed.finish conserved running rfl rfl (by simp)
  | done worker task pc call channel after answering stepped => exact headed.done conserved answering sends stepped

/-- Each state of a run whose writes transfer bytes is valid, conserved, and headed. -/
theorem headed_run (registered : Registered factory) {file : OpenFile} {labels : List (Label count)}
    (sends : ∀ label ∈ labels, label.Sends)
    (reached : run (serverStep host factory) (.initial count file) labels = some server) :
    Valid server ∧ Conserved server ∧ Headed host server := by
  refine run_invariant_of_meets (fun state => Valid state ∧ Conserved state ∧ Headed host state)
    (fun state label later holds condition stepped => ?_)
    ⟨valid_initial count file, conserved_initial count file, headed_initial host count file⟩
    (meets_of_forall sends _) reached
  obtain ⟨valid, conserved, headed⟩ := holds
  have moves := moves_of_serverStep stepped
  exact ⟨valid.step registered moves, conserved.step registered valid moves,
    headed.step conserved condition moves⟩

end

/-- Each enqueued request is in one place, its reply follows its transfer, and no reply is lost. -/
structure RepliedOnce (host : Endian) {count : Nat} (server : Server count) : Prop where
  place : ∀ task ∈ tasksAt .enqueued server.history,
    (server.mWq.map Task.id).count task.id +
      (Finset.univ.filter fun worker => (server.workers worker).executing.map Task.id = some task.id).card +
      ((tasksAt .replied server.history).map Task.id).count task.id = 1
  owners : server.sent.flatMap Prod.snd = server.channel.stream
  transferred : ∀ part ∈ server.sent, part.1 ∈ (tasksAt .transferred server.history).map Task.id
  headers : ∀ task ∈ tasksAt .replied server.history,
    replyHeader host task.request <+: sentBy task.id server.sent
  quiescent : server.mWq = [] → (∀ worker, server.workers worker = .dequeue) →
    ((tasksAt .replied server.history).map fun task => task.request.mHandle).Perm
      ((tasksAt .enqueued server.history).map fun task => task.received.mHandle)

/-- Each reachable state of the server replies once to each request, and only after its transfer. -/
theorem repliedOnce {host : Endian} {factory : Factory Int32 Handler} (registered : Registered factory)
    {count : Nat} {file : OpenFile} {labels : List (Label count)} {server : Server count}
    (sends : ∀ label ∈ labels, label.Sends)
    (reached : run (serverStep host factory) (.initial count file) labels = some server) :
    RepliedOnce host server := by
  obtain ⟨valid, conserved, headed⟩ := headed_run registered sends reached
  refine ⟨fun task member => ?_, valid.stream, valid.sent, headed.replied, fun empty waiting => ?_⟩
  · rw [← conserved.count_enqueued]
    exact List.count_eq_one_of_mem conserved.nodup_enqueued (List.mem_map_of_mem member)
  · have total := conserved.enqueued
    simp only [empty, waiting, Worker.executing, tags_nil, Option.toList_none, Finset.sum_const_zero, zero_add]
      at total
    have handles := congrArg (Multiset.map fun tag : Nat × NBDRWReq => tag.2.mHandle) total
    simp only [tags, Multiset.map_coe, List.map_map, Multiset.coe_eq_coe] at handles
    refine List.Perm.trans (List.Perm.of_eq (List.map_congr_left fun task member => ?_)) handles.symm
    obtain ⟨memory, same⟩ := (valid.replied task member).fields
    rw [same]
    rfl

/-- The factory of the shipped server has both handlers. -/
theorem registered_shipped : Registered (Factory.empty.addAll shippedAdds) := ⟨rfl, rfl⟩

/-- A client writes one byte at the start of the file. -/
def firstByteWrite : NBDRWReq where
  mType := keyOf nbdCmdWrite
  mSize := 1
  mOffset := 0
  mHandle := Vector.replicate 8 1
  mData := fun _ => 9

/-- A pool of two workers has these workers. -/
def firstWorker : Fin 2 := ⟨0, Nat.two_pos⟩
def secondWorker : Fin 2 := ⟨1, Nat.one_lt_two⟩

/-- A client reads two bytes from the start of the file. -/
def twoByteRead : NBDRWReq where
  mType := keyOf nbdCmdRead
  mSize := 2
  mOffset := 0
  mHandle := Vector.replicate 8 2
  mData := fun _ => 0

/-- Two workers execute a write and a read side by side, and the read is made in two parts after the write. -/
def writeBesideRead : List (Label 2) :=
  [.receive firstByteWrite, .enqueue, .receive twoByteRead, .enqueue,
    .work firstWorker (.dequeue 1), .work secondWorker (.dequeue 0), .work firstWorker .create,
    .work firstWorker (.access (.lseek true)), .work secondWorker .create,
    .work firstWorker (.access (.transfer 1)), .work secondWorker (.access (.lseek true)),
    .work secondWorker (.access (.transfer 1)), .work firstWorker .finish, .work firstWorker (.done .lock),
    .work secondWorker (.access (.transfer 1)), .work secondWorker .finish, .work firstWorker (.done (.write 16)),
    .work firstWorker (.done .unlock), .work secondWorker (.done .lock), .work secondWorker (.done (.write 10)),
    .work secondWorker (.done (.write 6)), .work secondWorker (.done (.write 2)), .work secondWorker (.done .unlock)]

/-- Both requests are replied to once. -/
theorem repliedOnce_writeBesideRead :
    ∃ server, run (serverStep .littleEndian (Factory.empty.addAll shippedAdds)) (.initial 2 ⟨[5, 6], 0⟩)
      writeBesideRead = some server ∧ server.channel.stream.length = 34 ∧ RepliedOnce .littleEndian server := by
  obtain ⟨server, reached, sent⟩ : ∃ server,
      run (serverStep .littleEndian (Factory.empty.addAll shippedAdds)) (.initial 2 ⟨[5, 6], 0⟩) writeBesideRead =
        some server ∧ server.channel.stream.length = 34 := by decide
  have sends : ∀ label ∈ writeBesideRead, label.Sends := by simp [writeBesideRead, Label.Sends, DoneCall.Positive]
  exact ⟨server, reached, sent, repliedOnce registered_shipped sends reached⟩

end DistributedNas.Engine
