import DistributedNas.Engine.Server

/-
This file proves that each enqueued request is queued, executed, or replied to exactly once.
-/

namespace DistributedNas.Engine
open Library Posix Proxy Storage
open scoped BigOperators

/-- These tasks reached a stage, in the order of their events. -/
def tasksAt (stage : Stage) (history : List (Stage × Task)) : List Task :=
  (history.filter fun event => event.1 = stage).map Prod.snd

@[simp] theorem tasksAt_append (stage : Stage) (first second : List (Stage × Task)) :
    tasksAt stage (first ++ second) = tasksAt stage first ++ tasksAt stage second := by
  simp [tasksAt]

@[simp] theorem tasksAt_singleton (stage other : Stage) (task : Task) :
    tasksAt stage [(other, task)] = if other = stage then [task] else [] := by
  unfold tasksAt
  split <;> simp_all

theorem mem_tasksAt {stage : Stage} {history : List (Stage × Task)} {task : Task} :
    task ∈ tasksAt stage history ↔ (stage, task) ∈ history := by
  simp [tasksAt]

@[simp] theorem tasksAt_repliedAt (stage : Stage) (task : Task) (pc : DonePc) :
    tasksAt stage (repliedAt task pc) = if pc = .leave ∧ .replied = stage then [task] else [] := by
  unfold repliedAt
  by_cases leaving : pc = .leave
  · simp only [leaving, if_true, tasksAt_singleton, true_and]
  · simp [leaving, tasksAt]

/-- A request keeps this name while its task moves through the server. -/
def Task.tag (task : Task) : Nat × NBDRWReq := (task.id, task.received)

/-- This is the multiset of the names of some tasks. -/
def tags (tasks : List Task) : Multiset (Nat × NBDRWReq) := (tasks.map Task.tag : List (Nat × NBDRWReq))

@[simp] theorem tags_nil : tags [] = 0 := rfl

@[simp] theorem tags_cons (task : Task) (tasks : List Task) : tags (task :: tasks) = {task.tag} + tags tasks := by
  simp [tags, Multiset.singleton_add]

@[simp] theorem tags_append (first second : List Task) : tags (first ++ second) = tags first + tags second := by
  simp [tags]

theorem tags_perm {first second : List Task} (perm : first.Perm second) : tags first = tags second :=
  Multiset.coe_eq_coe.mpr (perm.map Task.tag)

/-- A worker executes its task until the whole reply was written. -/
def Worker.executing : Worker → Option Task
  | .dequeue => none
  | .create task => some task
  | .access _ task _ => some task
  | .done task pc => if pc = .leave then none else some task

/-- A request object keeps the received fields, and the object of a write keeps its payload too. -/
structure Task.Carried (task : Task) : Prop where
  type : task.received.mType = keyOf nbdCmdRead ∨ task.received.mType = keyOf nbdCmdWrite
  fields : ∃ memory, task.request = { task.received with mData := memory }
  payload : task.received.access = .write → task.request = task.received

/-- A worker runs the operation of its request, and it answers only after the transfer. -/
def Worker.Valid (history : List (Stage × Task)) : Worker → Prop
  | .dequeue => True
  | .create task => task.Carried
  | .access operation task _ => task.Carried ∧ operation = task.received.access
  | .done task pc => task.Carried ∧ (.transferred, task) ∈ history ∧ pc ≠ .returned

/-- The received requests are in the select thread, in the queue, at a worker, or replied to. -/
structure Conserved {count : Nat} (server : Server count) : Prop where
  received : tags (tasksAt .received server.history) =
    tags (tasksAt .enqueued server.history) + tags server.selectThread.toList
  enqueued : tags (tasksAt .enqueued server.history) =
    tags server.mWq + (∑ worker, tags (server.workers worker).executing.toList) +
      tags (tasksAt .replied server.history)
  fresh : ∀ task ∈ tasksAt .received server.history, task.id < server.history.length
  distinct : ((tasksAt .received server.history).map Task.id).Nodup

/-- Each place holds only tasks that carry their request. -/
structure Valid {count : Nat} (server : Server count) : Prop where
  selected : ∀ task ∈ server.selectThread, task.Carried
  queued : ∀ task ∈ server.mWq, task.Carried
  workers : ∀ worker, (server.workers worker).Valid server.history
  replied : ∀ task ∈ tasksAt .replied server.history, task.Carried
  stream : server.sent.flatMap Prod.snd = server.channel.stream
  sent : ∀ part ∈ server.sent, part.1 ∈ (tasksAt .transferred server.history).map Task.id

/-- The factory has the handlers of reads and writes. -/
structure Registered (factory : Factory Int32 Handler) : Prop where
  read : factory.find (keyOf nbdCmdRead) = some .read
  write : factory.find (keyOf nbdCmdWrite) = some .write

section
variable {host : Endian} {factory : Factory Int32 Handler} {count : Nat} {server next : Server count}
  {label : Label count}

theorem conserved_initial (count : Nat) (file : OpenFile) : Conserved (.initial count file) := by
  refine ⟨rfl, ?_, by simp [Server.initial, tasksAt], List.nodup_nil⟩
  simp [Server.initial, tasksAt, Worker.executing]

theorem valid_initial (count : Nat) (file : OpenFile) : Valid (.initial count file) := by
  refine ⟨?_, ?_, fun _ => trivial, ?_, rfl, ?_⟩ <;> simp [Server.initial, tasksAt]

/-- A longer history keeps a worker valid. -/
theorem Worker.Valid.more {history later : List (Stage × Task)} {worker : Worker} (valid : worker.Valid history)
    (grown : history ⊆ later) : worker.Valid later := by
  cases worker with
  | dequeue => trivial
  | create task => exact valid
  | access operation task pc => exact valid
  | done task pc => exact ⟨valid.1, grown valid.2.1, valid.2.2⟩

/-- The registered handler runs the operation of the request's type. -/
theorem Task.Carried.start (registered : Registered factory) {task : Task} (carried : task.Carried)
    {handler : Handler} (found : factory.find task.request.mType = some handler) :
    handler.start task = .access task.received.access task .seek := by
  obtain ⟨memory, same⟩ := carried.fields
  have type : task.request.mType = task.received.mType := by rw [same]
  rw [type] at found
  rcases carried.type with isRead | isWrite
  · rw [isRead, registered.read] at found
    obtain rfl := Option.some.inj found
    have reads : task.received.sendsData := by rw [NBDRWReq.sendsData, isRead]; decide
    rw [NBDRWReq.access, if_pos reads, Handler.start]
  · rw [isWrite, registered.write] at found
    obtain rfl := Option.some.inj found
    have writes : ¬ task.received.sendsData := by rw [NBDRWReq.sendsData, isWrite]; decide
    rw [NBDRWReq.access, if_neg writes, Handler.start]

/-- A system call of the operation changes at most the buffer of a read. -/
theorem Task.Carried.access {task : Task} (carried : task.Carried) {file : OpenFile} {pc : AccessPc}
    {call : AccessCall} {after : AccessState}
    (stepped : accessStep task.received.access ⟨file, task.request, pc⟩ call = some after) :
    ({ task with request := after.request } : Task).Carried := by
  obtain ⟨memory, same⟩ := carried.fields
  obtain ⟨stored, renewed⟩ := accessStep_request stepped
  refine ⟨carried.type, ⟨stored, by simp only [renewed, same]⟩, fun writes => ?_⟩
  simp only at writes ⊢
  rw [writes] at stepped
  exact (accessStep_write_request stepped).trans (carried.payload writes)

/-- A worker that looks up a handler carries its task. -/
theorem Valid.creating (valid : Valid server) {worker : Fin count} {task : Task}
    (creating : server.workers worker = .create task) : task.Carried := by
  simpa [Worker.Valid, creating] using valid.workers worker

/-- A worker at its file operation runs the operation of its task. -/
theorem Valid.running (valid : Valid server) {worker : Fin count} {operation : Access} {task : Task} {pc : AccessPc}
    (running : server.workers worker = .access operation task pc) :
    task.Carried ∧ operation = task.received.access := by
  simpa [Worker.Valid, running] using valid.workers worker

/-- A worker in `Done` answers a task whose transfer has ended. -/
theorem Valid.answering (valid : Valid server) {worker : Fin count} {task : Task} {pc : DonePc}
    (answering : server.workers worker = .done task pc) :
    task.Carried ∧ (.transferred, task) ∈ server.history ∧ pc ≠ .returned := by
  simpa [Worker.Valid, answering] using valid.workers worker

/-- A change of one worker keeps all workers valid. -/
theorem Valid.update (valid : Valid server) {worker : Fin count} {after : Worker} {later : List (Stage × Task)}
    (grown : server.history ⊆ later) (changed : after.Valid later) :
    ∀ other, (Function.update server.workers worker after other).Valid later := by
  intro other
  rcases eq_or_ne other worker with rfl | different
  · rwa [Function.update_self]
  · rw [Function.update_of_ne different]
    exact (valid.workers other).more grown

/-- Each move keeps the places valid. -/
theorem Valid.step (registered : Registered factory) (valid : Valid server)
    (moves : Moves host factory server label next) : Valid next := by
  have ⟨selected, queued, workers, replied, stream, sent⟩ := valid
  cases moves with
  | receive request idle type =>
      have grown := List.subset_append_left server.history
        [(Stage.received, ⟨server.history.length, .low, request, request⟩)]
      refine ⟨?_, queued, fun worker => (workers worker).more grown, by simpa using replied, stream,
        by simpa using sent⟩
      rintro task ⟨⟩
      exact ⟨type, ⟨request.mData, rfl⟩, fun _ => rfl⟩
  | enqueue task received =>
      have grown := List.subset_append_left server.history [(Stage.enqueued, task)]
      refine ⟨by simp, ?_, fun worker => (workers worker).more grown, by simpa using replied, stream,
        by simpa using sent⟩
      exact List.forall_mem_cons.mpr ⟨selected task received, queued⟩
  | dequeue worker place task rest waiting perm =>
      have all := fun other => (perm.mem_iff (a := other)).mpr
      exact ⟨selected, fun other member => queued other (all other (List.mem_cons_of_mem task member)),
        valid.update (List.Subset.refl _) (queued task (all task List.mem_cons_self)), replied, stream, sent⟩
  | create worker task handler creating found =>
      have carried := valid.creating creating
      refine ⟨selected, queued, valid.update (List.Subset.refl _) ?_, replied, stream, sent⟩
      rw [carried.start registered found]
      exact ⟨carried, rfl⟩
  | access worker operation task pc call after running stepped =>
      obtain ⟨carried, rfl⟩ := valid.running running
      exact ⟨selected, queued, valid.update (List.Subset.refl _) ⟨carried.access stepped, rfl⟩, replied, stream,
        sent⟩
  | finish worker operation task pc running returned =>
      obtain ⟨carried, -⟩ := valid.running running
      refine ⟨selected, queued, valid.update (List.subset_append_left _ _) ⟨carried, by simp, by simp⟩,
        by simpa using replied, stream, fun part member => ?_⟩
      simpa using Or.inl (sent part member)
  | done worker task pc call channel after answering stepped =>
      obtain ⟨carried, transferred, -⟩ := valid.answering answering
      refine ⟨selected, queued, valid.update (List.subset_append_left _ _) ?_, fun other member => ?_, ?_,
        fun part member => ?_⟩
      · unfold Worker.answering
        split
        · trivial
        · next running => exact ⟨carried, List.mem_append_left _ transferred, running⟩
      · rw [tasksAt_append, tasksAt_repliedAt, List.mem_append] at member
        rcases member with before | now
        · exact replied other before
        · split at now
          · exact List.mem_singleton.mp now ▸ carried
          · cases now
      · rw [List.flatMap_append, stream, List.flatMap_singleton]
        exact (List.prefix_iff_eq_append.mp (doneStep_stream stepped))
      · rw [tasksAt_append, List.map_append]
        apply List.mem_append_left
        rcases List.mem_append.mp member with before | now
        · exact sent part before
        · rw [List.mem_singleton.mp now]
          exact List.mem_map_of_mem (mem_tasksAt.mpr transferred)

/-- The tasks of a worker make a new sum when the worker changes. -/
theorem executing_update (server : Server count) (worker : Fin count) (after : Worker)
    (released taken : Multiset (Nat × NBDRWReq))
    (exchanged : tags after.executing.toList + released =
      tags (server.workers worker).executing.toList + taken) :
    (∑ other, tags (Function.update server.workers worker after other).executing.toList) + released =
      (∑ other, tags (server.workers other).executing.toList) + taken := by
  have changed := sum_update (fun state : Worker => tags state.executing.toList) server.workers worker after
  apply add_right_cancel (b := tags (server.workers worker).executing.toList)
  calc
    _ = (∑ other, tags (Function.update server.workers worker after other).executing.toList) +
        tags (server.workers worker).executing.toList + released := by abel
    _ = (∑ other, tags (server.workers other).executing.toList) + (tags after.executing.toList + released) := by
        rw [changed, add_assoc]
    _ = _ := by rw [exchanged]; abel

/-- A step that adds no received event keeps the received requests fresh and distinct. -/
theorem Conserved.grow (conserved : Conserved server) (more : List (Stage × Task))
    (noReceived : tasksAt .received more = []) :
    (∀ task ∈ tasksAt .received (server.history ++ more), task.id < (server.history ++ more).length) ∧
      ((tasksAt .received (server.history ++ more)).map Task.id).Nodup := by
  rw [tasksAt_append, noReceived, List.append_nil]
  refine ⟨fun task member => ?_, conserved.distinct⟩
  have before := conserved.fresh task member
  rw [List.length_append]
  omega

/-- Each move keeps the requests conserved. -/
theorem Conserved.step (registered : Registered factory) (valid : Valid server) (conserved : Conserved server)
    (moves : Moves host factory server label next) : Conserved next := by
  have ⟨received, enqueued, fresh, distinct⟩ := conserved
  cases moves with
  | receive request idle type =>
      refine ⟨?_, by simpa using enqueued, ?_, ?_⟩
      · simp only [tasksAt_append, tasksAt_singleton, tags_append, received, idle]
        simp
      · intro task member
        simp only [tasksAt_append, tasksAt_singleton, if_true, List.mem_append, List.mem_singleton] at member
        rw [List.length_append, List.length_singleton]
        rcases member with before | rfl
        · exact Nat.lt_succ_of_lt (fresh task before)
        · exact Nat.lt_succ_self _
      · simp only [tasksAt_append, tasksAt_singleton, if_true, List.map_append, List.map_cons, List.map_nil]
        apply distinct.append (List.nodup_singleton _)
        rw [List.disjoint_singleton]
        intro member
        obtain ⟨task, known, same⟩ := List.mem_map.mp member
        exact absurd (fresh task known) (by omega)
  | enqueue task selected =>
      obtain ⟨least, apart⟩ := conserved.grow [(.enqueued, task)] (by simp)
      refine ⟨?_, ?_, least, apart⟩
      · simp [received, selected]
      · simp only [tasksAt_append, tasksAt_singleton, if_true, tags_append, tags_cons, tags_nil, enqueued,
          reduceCtorEq, if_false, List.append_nil]
        abel
  | dequeue worker place task rest waiting perm =>
      refine ⟨received, ?_, fresh, distinct⟩
      have moved := executing_update server worker (.create task) 0 {task.tag}
        (by simp [Worker.executing, waiting])
      rw [add_zero] at moved
      rw [enqueued, tags_perm perm, tags_cons]
      simp only [moved]
      abel
  | create worker task handler creating found =>
      refine ⟨received, ?_, fresh, distinct⟩
      have carried := valid.creating creating
      have moved := executing_update server worker (handler.start task) 0 0
        (by simp [Worker.executing, creating, carried.start registered found])
      rw [add_zero, add_zero] at moved
      simp only [enqueued, moved]
  | access worker operation task pc call after running stepped =>
      refine ⟨received, ?_, fresh, distinct⟩
      have moved := executing_update server worker
        (.access operation { task with request := after.request } after.pc) 0 0
        (by simp [Worker.executing, running, Task.tag])
      rw [add_zero, add_zero] at moved
      simp only [enqueued, moved]
  | finish worker operation task pc running returned =>
      obtain ⟨least, apart⟩ := conserved.grow [(.transferred, task)] (by simp)
      refine ⟨by simpa using received, ?_, least, apart⟩
      have moved := executing_update server worker (.done task .enter) 0 0
        (by simp [Worker.executing, running])
      rw [add_zero, add_zero] at moved
      simpa [moved] using enqueued
  | done worker task pc call channel after answering stepped =>
      obtain ⟨least, apart⟩ := conserved.grow (repliedAt task after) (by simp)
      refine ⟨by simpa using received, ?_, least, apart⟩
      have moved := executing_update server worker (.answering task after)
        (tags (if after = .leave then [task] else [])) 0 (by
          have ends := doneStep_returned_iff stepped
          by_cases leaving : pc = .leave
          · obtain rfl := ends.mpr leaving
            simp [Worker.answering, Worker.executing, answering, leaving]
          · have running : after ≠ .returned := fun returned => leaving (ends.mp returned)
            by_cases replied : after = .leave <;>
              simp [Worker.answering, Worker.executing, answering, leaving, running, replied])
      rw [add_zero] at moved
      simp only [tasksAt_append, tasksAt_repliedAt, reduceCtorEq, and_false, if_false, List.append_nil, and_true,
        tags_append, enqueued, ← moved]
      abel

/-- Each state that the server reaches is valid and conserves the requests. -/
theorem conserved_run (registered : Registered factory) {file : OpenFile} {labels : List (Label count)}
    (reached : run (serverStep host factory) (.initial count file) labels = some server) :
    Valid server ∧ Conserved server := by
  refine run_invariant (fun state => Valid state ∧ Conserved state)
    (fun state label next holds stepped => ?_) ⟨valid_initial count file, conserved_initial count file⟩ reached
  have moves := moves_of_serverStep stepped
  exact ⟨holds.1.step registered moves, holds.2.step registered holds.1 moves⟩

theorem map_fst_tags (tasks : List Task) : (tags tasks).map Prod.fst = (tasks.map Task.id : List Nat) := by
  simp [tags, Task.tag, Function.comp_def]

/-- The enqueued requests have distinct identities. -/
theorem Conserved.nodup_enqueued (conserved : Conserved server) :
    ((tasksAt .enqueued server.history).map Task.id).Nodup := by
  have total := congrArg (Multiset.map Prod.fst) conserved.received
  rw [Multiset.map_add, map_fst_tags, map_fst_tags] at total
  have nodup := Multiset.coe_nodup.mpr conserved.distinct
  rw [total] at nodup
  exact Multiset.coe_nodup.mp (Multiset.nodup_add.mp nodup).1

/-- Each identity is enqueued as often as it is queued, executed, or replied to. -/
theorem Conserved.count_enqueued (conserved : Conserved server) (id : Nat) :
    ((tasksAt .enqueued server.history).map Task.id).count id =
      (server.mWq.map Task.id).count id +
        (Finset.univ.filter fun worker => (server.workers worker).executing.map Task.id = some id).card +
        ((tasksAt .replied server.history).map Task.id).count id := by
  have total := congrArg (fun names => (names.map Prod.fst).count id) conserved.enqueued
  have running : ∀ worker, ((server.workers worker).executing.toList.map Task.id).count id =
      if (server.workers worker).executing.map Task.id = some id then 1 else 0 := by
    intro worker
    cases (server.workers worker).executing with
    | none => simp
    | some task => simp [List.count_singleton]
  have sum := map_sum (Multiset.mapAddMonoidHom (Prod.fst : Nat × NBDRWReq → Nat))
    (fun worker => tags (server.workers worker).executing.toList) Finset.univ
  simp only [Multiset.coe_mapAddMonoidHom] at sum
  simp only [Multiset.map_add, Multiset.count_add, map_fst_tags, Multiset.coe_count, sum, Multiset.count_sum',
    running] at total
  rw [total, Finset.card_filter]

/-- One identity is in at most one place. -/
theorem Conserved.count_le_one (conserved : Conserved server) (id : Nat) :
    (Finset.univ.filter fun worker => (server.workers worker).executing.map Task.id = some id).card +
      ((tasksAt .replied server.history).map Task.id).count id ≤ 1 := by
  have total := conserved.count_enqueued id
  have single := List.nodup_iff_count_le_one.mp conserved.nodup_enqueued id
  omega

/-- Two workers never execute one task. -/
theorem Conserved.same_worker (conserved : Conserved server) {first second : Fin count} {task other : Task}
    (executing : (server.workers first).executing = some task)
    (elsewhere : (server.workers second).executing = some other) (same : task.id = other.id) : first = second := by
  have single : (Finset.univ.filter fun worker =>
      (server.workers worker).executing.map Task.id = some task.id).card ≤ 1 :=
    (Nat.le_add_right _ _).trans (conserved.count_le_one task.id)
  refine Finset.card_le_one.mp single first ?_ second ?_
  · simp [executing]
  · simp [elsewhere, same]

/-- A task that is executed was not replied to. -/
theorem Conserved.not_replied (conserved : Conserved server) {worker : Fin count} {task other : Task}
    (executing : (server.workers worker).executing = some task)
    (replied : other ∈ tasksAt .replied server.history) : other.id ≠ task.id := by
  intro same
  have single := conserved.count_le_one task.id
  have running : 0 < (Finset.univ.filter fun worker =>
      (server.workers worker).executing.map Task.id = some task.id).card :=
    Finset.card_pos.mpr ⟨worker, by simp [executing]⟩
  have counted : 0 < ((tasksAt .replied server.history).map Task.id).count task.id :=
    List.count_pos_iff.mpr (List.mem_map.mpr ⟨other, replied, same⟩)
  omega

end

end DistributedNas.Engine
