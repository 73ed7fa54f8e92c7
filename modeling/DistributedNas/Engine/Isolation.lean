import DistributedNas.Engine.Replies

/-
This file compares concurrent file operations on the one descriptor with operations performed one by one.
-/

namespace DistributedNas.Engine
open Library Posix Proxy Storage
open scoped List

/-- A task that was performed atomically reads or replaces its range of the content. -/
def Task.perform (task : Task) (content : List UInt8) : List UInt8 :=
  task.received.access.perform content task.received

/-- The buffer of a read holds the bytes of its range. -/
def Task.Answers (task : Task) (content : List UInt8) : Prop :=
  task.received.access.Answers content task.request

/-- The outcome of the tasks is that of performing them atomically in this order. -/
structure Isolated {count : Nat} (start : List UInt8) (server : Server count) (order : List Task) : Prop where
  all : order.Perm (tasksAt .replied server.history)
  received : ((order.map Task.tag).Perm ((tasksAt .received server.history).map Task.tag))
  explains : Explains Task.perform Task.Answers start order server.file.bytes
  precedence : ∀ first second, [(Stage.replied, first), (.received, second)] <+ server.history →
    [first.id, second.id] <+ order.map Task.id

/-- No request waits, and no worker is busy. -/
structure Server.Quiescent {count : Nat} (server : Server count) : Prop where
  selected : server.selectThread = none
  queue : server.mWq = []
  workers : ∀ worker, server.workers worker = .dequeue

/-- A worker waits for its next task. -/
def Worker.waiting : Worker → Bool
  | .dequeue => true
  | _ => false

theorem Worker.waiting_iff {worker : Worker} : worker.waiting ↔ worker = .dequeue := by
  cases worker <;> simp [waiting]

instance {count : Nat} (server : Server count) : Decidable server.Quiescent :=
  decidable_of_iff
    (server.selectThread.isNone ∧ server.mWq.isEmpty ∧ ∀ worker, (server.workers worker).waiting) <| by
    simp only [Option.isNone_iff_eq_none, List.isEmpty_iff, Worker.waiting_iff]
    exact ⟨fun parts => ⟨parts.1, parts.2.1, parts.2.2⟩,
      fun quiescent => ⟨quiescent.selected, quiescent.queue, quiescent.workers⟩⟩

/-- This task of a worker has made its seek and waits for the end of its reply. -/
def Worker.seeked : Worker → Option Task
  | .access _ task (.loop _) => some task
  | .done task pc => if pc = .leave then none else some task
  | _ => none

/-- A worker is in the middle of a transfer loop. -/
def Worker.transferring : Worker → Bool
  | .access _ _ (.loop window) => window.count != 0
  | _ => false

/-- A seek is made only while no other worker is in the middle of its transfer. -/
def SeeksAlone {count : Nat} (server : Server count) : Label count → Prop
  | .work worker (.access (.lseek _)) =>
      ∀ other, other ≠ worker → (server.workers other).transferring = false
  | _ => True

instance {count : Nat} (server : Server count) (label : Label count) : Decidable (SeeksAlone server label) :=
  match label with
  | .work worker (.access (.lseek _)) =>
      inferInstanceAs (Decidable (∀ other, other ≠ worker → (server.workers other).transferring = false))
  | .work _ (.access (.transfer _)) | .work _ (.dequeue _) | .work _ .create | .work _ .finish
  | .work _ (.done _) | .receive _ | .enqueue => inferInstanceAs (Decidable True)

/-- Each seek succeeds, and each call transfers at least one byte. -/
def Label.Positive {count : Nat} : Label count → Prop
  | .work _ (.access call) => call.Positive
  | .work _ (.done call) => call.Positive
  | _ => True

/-- The received ranges lie inside the file. -/
def Label.InRange {count : Nat} (fileSize : Nat) : Label count → Prop
  | .receive request => request.InRange fileSize
  | _ => True

section
variable {host : Endian} {factory : Factory Int32 Handler} {count : Nat} {server next : Server count}
  {label : Label count} {start : List UInt8} {order : List Task}

theorem Worker.executing_of_seeked {worker : Worker} {task : Task} (seeked : worker.seeked = some task) :
    worker.executing = some task := by
  cases worker with
  | dequeue => cases seeked
  | create other => cases seeked
  | access operation other pc =>
      cases pc with
      | seek => cases seeked
      | loop window => exact seeked
  | done other pc => exact seeked

/-- The task of a worker was received under its name. -/
theorem Conserved.received_of_executing (conserved : Conserved server) {worker : Fin count} {task : Task}
    (executing : (server.workers worker).executing = some task) :
    ∃ original ∈ tasksAt .received server.history, original.tag = task.tag := by
  have inside : task.tag ∈ ∑ other, tags (server.workers other).executing.toList :=
    Multiset.mem_sum.mpr ⟨worker, Finset.mem_univ worker, by simp [executing]⟩
  have known : task.tag ∈ tags (tasksAt .received server.history) := by
    rw [conserved.received, conserved.enqueued]
    simp only [Multiset.mem_add]
    exact Or.inl (Or.inl (Or.inr inside))
  simpa [tags] using known

/-- A task that was replied to was received under its name. -/
theorem Conserved.received_of_replied (conserved : Conserved server) {task : Task}
    (replied : task ∈ tasksAt .replied server.history) :
    ∃ original ∈ tasksAt .received server.history, original.tag = task.tag := by
  have inside : task.tag ∈ tags (tasksAt .replied server.history) := by
    simpa [tags] using ⟨task, replied, rfl⟩
  have known : task.tag ∈ tags (tasksAt .received server.history) := by
    rw [conserved.received, conserved.enqueued]
    simp only [Multiset.mem_add]
    exact Or.inl (Or.inr inside)
  simpa [tags] using known

/-- The file is explained by the order so far, or its last task is in the middle of its transfer. -/
inductive Served (start : List UInt8) (server : Server count) (order : List Task) : Prop
  | calm (still : ∀ worker, (server.workers worker).transferring = false)
      (explains : Explains Task.perform Task.Answers start order server.file.bytes)
  | moving (worker : Fin count) (operation : Access) (task : Task) (pc : AccessPc) (before : List Task)
      (content : List UInt8) (moved : Nat) (running : server.workers worker = .access operation task pc)
      (remains : pc.returned = false)
      (still : ∀ other, other ≠ worker → (server.workers other).transferring = false)
      (last : order = before ++ [task])
      (explains : Explains Task.perform Task.Answers start before content)
      (progress : Progress operation content ⟨server.file, task.request, pc⟩ moved)

/-- The tasks are in the order of their seeks, which agrees with the order of replies and receptions. -/
structure Linearized (start : List UInt8) (server : Server count) (order : List Task) : Prop where
  members : ∀ task, task ∈ order ↔
    (∃ worker, (server.workers worker).seeked = some task) ∨ task ∈ tasksAt .replied server.history
  distinct : (order.map Task.id).Nodup
  precedence : ∀ first second, [(Stage.replied, first), (.received, second)] <+ server.history →
    second.id ∈ order.map Task.id → [first.id, second.id] <+ order.map Task.id
  served : Served start server order

theorem linearized_initial (count : Nat) (file : OpenFile) :
    Linearized file.bytes (.initial count file) [] := by
  refine ⟨?_, List.nodup_nil, ?_, .calm (fun _ => rfl) rfl⟩
  · simp [Server.initial, Worker.seeked, tasksAt]
  · simp [Server.initial]

/-- A carried task performs what its request object says. -/
theorem Task.Carried.perform_eq {task : Task} (carried : task.Carried) (content : List UInt8) :
    task.received.access.perform content task.request = task.perform content := by
  unfold Task.perform
  cases access : task.received.access with
  | read => rfl
  | write => rw [carried.payload access]

/-- An operation with some progress after the explained tasks serves the order that ends with it. -/
theorem served_of_progress {worker : Fin count} {task : Task} {pc : AccessPc} {before : List Task}
    {content : List UInt8} {moved : Nat}
    (running : server.workers worker = .access task.received.access task pc) (carried : task.Carried)
    (still : ∀ other, other ≠ worker → (server.workers other).transferring = false)
    (explains : Explains Task.perform Task.Answers start before content)
    (progress : Progress task.received.access content ⟨server.file, task.request, pc⟩ moved) :
    Served start server (before ++ [task]) := by
  cases returned : pc.returned with
  | false => exact .moving worker _ task pc before content moved running returned still rfl explains progress
  | true =>
      obtain ⟨bytes, answers⟩ := progress.returned returned
      refine .calm (fun other => ?_) ?_
      · rcases eq_or_ne other worker with rfl | different
        · rw [running]
          cases pc with
          | seek => rfl
          | loop window => simpa [Worker.transferring, AccessPc.returned] using returned
        · exact still other different
      · have extended := explains.snoc task answers
        rwa [← carried.perform_eq, ← bytes] at extended

/-- A worker in the middle of its transfer has not returned. -/
theorem transferring_of_remains {operation : Access} {task : Task} {pc : AccessPc} {content : List UInt8}
    {file : OpenFile} {moved : Nat} (progress : Progress operation content ⟨file, task.request, pc⟩ moved)
    (remains : pc.returned = false) : (Worker.access operation task pc).transferring = true := by
  have place : pc = .loop _ := progress.pc
  rw [place, AccessPc.returned, beq_eq_false_iff_ne] at remains
  rw [place, Worker.transferring, bne_iff_ne]
  exact remains

/-- The order is served as before when the file and the transferring workers stay. -/
theorem Served.keep (served : Served start server order) (file : next.file = server.file)
    (running : ∀ worker, (server.workers worker).transferring = true → next.workers worker = server.workers worker)
    (still : ∀ worker, (server.workers worker).transferring = false →
      (next.workers worker).transferring = false) : Served start next order := by
  cases served with
  | calm quiet explains => exact .calm (fun worker => still worker (quiet worker)) (file ▸ explains)
  | moving worker operation task pc before content moved atLoop remains quiet last explains progress =>
      have busy := transferring_of_remains progress remains
      refine .moving worker operation task pc before content moved ?_ remains
        (fun other different => still other (quiet other different)) last explains (file ▸ progress)
      rw [running worker (by rw [atLoop]; exact busy), atLoop]

/-- Each task of the order has an identity that an earlier event took. -/
theorem Linearized.fresh (conserved : Conserved server) (linearized : Linearized start server order)
    {id : Nat} (member : id ∈ order.map Task.id) : id < server.history.length := by
  obtain ⟨task, inside, rfl⟩ := List.mem_map.mp member
  have known : ∃ original ∈ tasksAt .received server.history, original.tag = task.tag := by
    rcases (linearized.members task).mp inside with ⟨worker, seeked⟩ | replied
    · exact conserved.received_of_executing (Worker.executing_of_seeked seeked)
    · exact conserved.received_of_replied replied
  obtain ⟨original, received, same⟩ := known
  have identity : original.id = task.id := congrArg Prod.fst same
  exact identity ▸ conserved.fresh original received

/-- A step that moves no byte and answers no request keeps the order. -/
theorem Linearized.keep (conserved : Conserved server) (linearized : Linearized start server order)
    (file : next.file = server.file)
    (seeked : ∀ worker, (next.workers worker).seeked = (server.workers worker).seeked)
    (running : ∀ worker, (server.workers worker).transferring = true → next.workers worker = server.workers worker)
    (still : ∀ worker, (server.workers worker).transferring = false →
      (next.workers worker).transferring = false)
    (replied : tasksAt .replied next.history = tasksAt .replied server.history)
    (pairs : ∀ first second, [(Stage.replied, first), (.received, second)] <+ next.history →
      [(Stage.replied, first), (.received, second)] <+ server.history ∨ second.id = server.history.length) :
    Linearized start next order := by
  refine ⟨fun task => ?_, linearized.distinct, fun first second pair member => ?_,
    linearized.served.keep file running still⟩
  · rw [linearized.members, replied]
    simp only [seeked]
  · rcases pairs first second pair with before | new
    · exact linearized.precedence first second before member
    · exact absurd (linearized.fresh conserved member) (by omega)

/-- An event of another stage adds no pair of a reply and a reception. -/
theorem pair_of_snoc {history : List (Stage × Task)} {stage : Stage} {task first second : Task}
    (other : stage ≠ .received)
    (pair : [(Stage.replied, first), (.received, second)] <+ history ++ [(stage, task)]) :
    [(Stage.replied, first), (.received, second)] <+ history := by
  rcases pair_sublist_snoc pair with before | ⟨-, same⟩
  · exact before
  · exact absurd (congrArg Prod.fst same).symm other

/-- A change of one worker that moves no byte and answers no request keeps the order. -/
theorem Linearized.keep_update (conserved : Conserved server) (linearized : Linearized start server order)
    (file : next.file = server.file) {worker : Fin count} {after : Worker}
    (changed : next.workers = Function.update server.workers worker after)
    (seeked : after.seeked = (server.workers worker).seeked)
    (still : (server.workers worker).transferring = false) (quiet : after.transferring = false)
    (replied : tasksAt .replied next.history = tasksAt .replied server.history)
    (pairs : ∀ first second, [(Stage.replied, first), (.received, second)] <+ next.history →
      [(Stage.replied, first), (.received, second)] <+ server.history) :
    Linearized start next order := by
  refine linearized.keep conserved file (fun other => ?_) (fun other busy => ?_) (fun other calm => ?_) replied
    fun first second pair => Or.inl (pairs first second pair)
  all_goals rw [changed]; rcases eq_or_ne other worker with rfl | different
  · rw [Function.update_self, seeked]
  · rw [Function.update_of_ne different]
  · rw [still] at busy
    cases busy
  · rw [Function.update_of_ne different]
  · rw [Function.update_self, quiet]
  · rw [Function.update_of_ne different, calm]

/-- A task that made no seek yet is not in the order. -/
theorem Linearized.not_mem (conserved : Conserved server) (linearized : Linearized start server order)
    {worker : Fin count} {task : Task} (executing : (server.workers worker).executing = some task)
    (notSeeked : (server.workers worker).seeked = none) : task.id ∉ order.map Task.id := by
  intro member
  obtain ⟨other, inside, same⟩ := List.mem_map.mp member
  rcases (linearized.members other).mp inside with ⟨second, seeked⟩ | replied
  · obtain rfl := conserved.same_worker (Worker.executing_of_seeked seeked) executing same
    rw [notSeeked] at seeked
    cases seeked
  · exact conserved.not_replied executing replied same

/-- A seek that is made alone puts its task at the end of the order. -/
theorem Linearized.seek (valid : Valid server) (conserved : Conserved server)
    (linearized : Linearized start server order) {worker : Fin count} {operation : Access} {task : Task}
    {after : AccessState} (size : 0 ≤ task.request.mSize.toInt) (offset : 0 ≤ task.request.mOffset.toInt)
    (running : server.workers worker = .access operation task .seek)
    (alone : ∀ other, other ≠ worker → (server.workers other).transferring = false)
    (stepped : accessStep operation ⟨server.file, task.request, .seek⟩ (.lseek true) = some after) :
    Linearized start
      { server with
        file := after.file
        workers := Function.update server.workers worker
          (.access operation { task with request := after.request } after.pc) }
      (order ++ [task]) := by
  obtain ⟨carried, rfl⟩ := valid.running running
  have notSeeked : (server.workers worker).seeked = none := by rw [running]; rfl
  have new := linearized.not_mem conserved (by rw [running]; rfl) notSeeked
  have explains : Explains Task.perform Task.Answers start order server.file.bytes := by
    cases linearized.served with
    | calm still explains => exact explains
    | moving other operation busy pc before content moved atLoop remains still last explains progress =>
        have transferring := transferring_of_remains progress remains
        rcases eq_or_ne other worker with rfl | different
        · rw [← atLoop, running] at transferring
          cases transferring
        · rw [← atLoop, alone other different] at transferring
          cases transferring
  obtain ⟨same, progress⟩ := progress_seek stepped rfl size offset rfl
  have place : after.pc = .loop _ := progress.pc
  have renewed : ({ task with request := after.request } : Task) = task := by rw [same]
  rw [renewed]
  refine ⟨fun other => ?_, ?_, fun first second pair member => ?_, ?_⟩
  · have seeked : (Worker.access task.received.access task after.pc).seeked = some task := by rw [place]; rfl
    have elsewhere : (∃ second, (server.workers second).seeked = some other) ↔
        ∃ second, second ≠ worker ∧ (server.workers second).seeked = some other := by
      constructor
      · rintro ⟨second, found⟩
        refine ⟨second, fun same => ?_, found⟩
        rw [same, notSeeked] at found
        cases found
      · rintro ⟨second, -, found⟩
        exact ⟨second, found⟩
    have changed := Function.exists_update_iff server.workers (a := worker)
      (b := Worker.access task.received.access task after.pc) fun _ state => state.seeked = some other
    rw [changed, ← elsewhere, seeked, List.mem_append, linearized.members, List.mem_singleton, Option.some.injEq,
      eq_comm (a := task)]
    exact or_right_comm.trans (or_congr_left or_comm)
  · rw [List.map_append]
    exact linearized.distinct.append (List.nodup_singleton _) (List.disjoint_singleton.mpr new)
  · rw [List.map_append] at member ⊢
    rcases List.mem_append.mp member with before | last
    · exact (linearized.precedence first second pair before).trans (List.sublist_append_left _ _)
    · rw [List.mem_singleton.mp last]
      have replied : first ∈ tasksAt .replied server.history := mem_tasksAt.mpr (pair.subset List.mem_cons_self)
      exact sublist_snoc (List.mem_map_of_mem ((linearized.members first).mpr (Or.inr replied))) task.id
  · have sought : Progress task.received.access server.file.bytes ⟨after.file, task.request, after.pc⟩ 0 := by
      obtain ⟨file, request, rest⟩ := after
      obtain rfl : request = task.request := same
      exact progress
    refine served_of_progress (Function.update_self worker _ _) carried (fun other different => ?_) explains sought
    simp only [Function.update_of_ne different, alone other different]

/-- The tasks before the last one belong to the other workers or were replied to. -/
theorem Linearized.mem_before (conserved : Conserved server) {before : List Task} {worker : Fin count} {task : Task}
    (linearized : Linearized start server (before ++ [task]))
    (seeked : (server.workers worker).seeked = some task) (other : Task) :
    other ∈ before ↔ (∃ second, second ≠ worker ∧ (server.workers second).seeked = some other) ∨
      other ∈ tasksAt .replied server.history := by
  have members := linearized.members other
  have executing := Worker.executing_of_seeked seeked
  have apart : ∀ earlier ∈ before, earlier.id ≠ task.id := by
    have distinct := linearized.distinct
    rw [List.map_append, List.map_singleton, List.nodup_append] at distinct
    exact fun earlier inside => distinct.2.2 _ (List.mem_map_of_mem inside) _ (List.mem_singleton_self _)
  rw [List.mem_append, List.mem_singleton] at members
  constructor
  · intro inside
    rcases members.mp (Or.inl inside) with ⟨second, found⟩ | replied
    · left
      refine ⟨second, fun same => apart other inside ?_, found⟩
      rw [same, seeked] at found
      rw [Option.some.inj found]
    · right
      exact replied
  · rintro (⟨second, different, found⟩ | replied)
    · refine (members.mpr (Or.inl ⟨second, found⟩)).resolve_right fun same => different ?_
      exact conserved.same_worker (Worker.executing_of_seeked found) executing (by rw [same])
    · exact (members.mpr (Or.inr replied)).resolve_right fun same =>
        conserved.not_replied executing replied (by rw [same])

/-- A transfer of the moving worker keeps its task at the end of the order. -/
theorem Linearized.transfer (valid : Valid server) (conserved : Conserved server)
    (linearized : Linearized start server order) {worker : Fin count} {operation : Access} {task : Task}
    {window : Window} {result : Int} {after : AccessState}
    (running : server.workers worker = .access operation task (.loop window)) (positive : 1 ≤ result)
    (stepped : accessStep operation ⟨server.file, task.request, .loop window⟩ (.transfer result) = some after) :
    ∃ later, Linearized start
      { server with
        file := after.file
        workers := Function.update server.workers worker
          (.access operation { task with request := after.request } after.pc) }
      later := by
  obtain ⟨carried, rfl⟩ := valid.running running
  have remains : window.count ≠ 0 := accessStep_transfer_remains rfl stepped
  have busy : (server.workers worker).transferring = true := by
    rw [running]
    simpa [Worker.transferring] using remains
  have executing : (server.workers worker).executing = some task := by rw [running]; rfl
  cases linearized.served with
  | calm still explains =>
      rw [still worker] at busy
      cases busy
  | moving other operation moving pc before content moved atLoop unfinished still last explains progress =>
      obtain rfl : worker = other := by
        by_contra different
        rw [still worker different] at busy
        cases busy
      obtain ⟨rfl, rfl, rfl⟩ := Worker.access.inj (running.symm.trans atLoop)
      obtain ⟨count, -, -, later⟩ := progress.transfer positive stepped
      let moved' : Task := { task with request := after.request }
      have place : after.pc = .loop _ := later.pc
      have ids : (before ++ [moved']).map Task.id = order.map Task.id := by rw [last]; simp [moved']
      have distinct := linearized.distinct
      refine ⟨before ++ [moved'], fun other => ?_, ids ▸ distinct, ids ▸ linearized.precedence, ?_⟩
      · have seeked : (Worker.access task.received.access moved' after.pc).seeked = some moved' := by rw [place]; rfl
        have changed := Function.exists_update_iff server.workers (a := worker)
          (b := Worker.access task.received.access moved' after.pc) fun _ state => state.seeked = some other
        have earlier := Linearized.mem_before conserved (last ▸ linearized) (by rw [running]; rfl) other
        rw [changed, seeked, List.mem_append, earlier, List.mem_singleton, Option.some.injEq, eq_comm (a := moved')]
        exact or_right_comm.trans (or_congr_left or_comm)
      · have carriedOn : moved'.Carried := carried.access stepped
        refine served_of_progress (Function.update_self worker _ _) carriedOn (fun other different => ?_)
          explains later
        simp only [Function.update_of_ne different, still other different]

/-- A worker that is not at its file operation moves no byte. -/
theorem not_transferring_done (task : Task) (pc : DonePc) : (Worker.answering task pc).transferring = false := by
  unfold Worker.answering
  split <;> rfl

/-- The last byte of a reply moves the task from its worker to the answered tasks. -/
theorem Linearized.reply (linearized : Linearized start server order) {worker : Fin count} {task : Task}
    {pc : DonePc} (answering : server.workers worker = .done task pc) (running : pc ≠ .leave)
    (file : next.file = server.file)
    (workers : next.workers = Function.update server.workers worker (.done task .leave))
    (history : next.history = server.history ++ [(.replied, task)]) : Linearized start next order := by
  refine ⟨fun other => ?_, linearized.distinct, fun first second pair member => ?_,
    linearized.served.keep file (fun other busy => ?_) fun other calm => ?_⟩
  · have seeked : (server.workers worker).seeked = some task := by
      rw [answering, Worker.seeked, if_neg running]
    have changed := Function.exists_update_iff server.workers (a := worker)
      (b := Worker.done task .leave) fun _ state => state.seeked = some other
    have split : (∃ second, (server.workers second).seeked = some other) ↔
        other = task ∨ ∃ second, second ≠ worker ∧ (server.workers second).seeked = some other := by
      constructor
      · rintro ⟨second, found⟩
        rcases eq_or_ne second worker with rfl | different
        · left
          exact Option.some.inj (found.symm.trans seeked)
        · right
          exact ⟨second, different, found⟩
      · rintro (rfl | ⟨second, -, found⟩)
        · exact ⟨worker, seeked⟩
        · exact ⟨second, found⟩
    have ended : (Worker.done task .leave).seeked ≠ some other := by simp [Worker.seeked]
    rw [linearized.members, split, workers, changed, history, tasksAt_append, tasksAt_singleton, if_pos rfl,
      List.mem_append, List.mem_singleton, or_iff_right ended, or_comm (a := other = task), or_assoc,
      or_comm (a := other = task)]
  · rw [history] at pair
    exact linearized.precedence first second (pair_of_snoc (by decide) pair) member
  · rw [workers]
    rcases eq_or_ne other worker with rfl | different
    · rw [answering] at busy
      cases busy
    · rw [Function.update_of_ne different]
  · rw [workers]
    rcases eq_or_ne other worker with rfl | different
    · rw [Function.update_self]
      rfl
    · rw [Function.update_of_ne different, calm]

/-- Each move that is positive and seeks alone keeps some order. -/
theorem Linearized.step (registered : Registered factory) (valid : Valid server) (conserved : Conserved server)
    (nonnegative : ∀ task ∈ tasksAt .received server.history,
      0 ≤ task.received.mSize.toInt ∧ 0 ≤ task.received.mOffset.toInt)
    (linearized : Linearized start server order) (positive : label.Positive) (alone : SeeksAlone server label)
    (moves : Moves host factory server label next) : ∃ later, Linearized start next later := by
  cases moves with
  | receive request idle type =>
      refine ⟨order, linearized.keep conserved rfl (fun _ => rfl) (fun _ _ => rfl) (fun _ calm => calm) (by simp)
        fun first second pair => ?_⟩
      rcases pair_sublist_snoc pair with before | ⟨-, same⟩
      · left
        exact before
      · obtain rfl : second = _ := congrArg Prod.snd same
        right
        rfl
  | enqueue task selected =>
      exact ⟨order, linearized.keep conserved rfl (fun _ => rfl) (fun _ _ => rfl) (fun _ calm => calm) (by simp)
        fun first second pair => Or.inl (pair_of_snoc (by decide) pair)⟩
  | dequeue worker place task rest waiting perm =>
      exact ⟨order, linearized.keep_update conserved rfl rfl (by rw [waiting]; rfl) (by rw [waiting]; rfl) rfl rfl
        fun first second pair => pair⟩
  | create worker task handler creating found =>
      have carried := valid.creating creating
      rw [carried.start registered found]
      exact ⟨order, linearized.keep_update conserved rfl rfl (by rw [creating]; rfl) (by rw [creating]; rfl) rfl rfl
        fun first second pair => pair⟩
  | access worker operation task pc call after running stepped =>
      cases pc with
      | seek =>
          cases call with
          | transfer result => cases stepped
          | lseek succeeds =>
              obtain rfl : succeeds = true := positive
              have executing : (server.workers worker).executing = some task := by rw [running]; rfl
              obtain ⟨original, received, same⟩ := conserved.received_of_executing executing
              obtain ⟨carried, -⟩ := valid.running running
              obtain ⟨memory, fields⟩ := carried.fields
              have request : original.received = task.received := congrArg Prod.snd same
              obtain ⟨size, offset⟩ := request ▸ nonnegative original received
              exact ⟨_, linearized.seek valid conserved (by rw [fields]; exact size) (by rw [fields]; exact offset)
                running alone stepped⟩
      | loop window =>
          cases call with
          | lseek succeeds => cases stepped
          | transfer result => exact linearized.transfer valid conserved running positive stepped
  | finish worker operation task pc running returned =>
      cases pc with
      | seek => cases returned
      | loop window =>
          have empty : window.count = 0 := by simpa [AccessPc.returned] using returned
          exact ⟨order, linearized.keep_update conserved rfl rfl (by rw [running]; rfl)
            (by rw [running]; simpa [Worker.transferring] using empty) rfl (by simp)
            fun first second pair => pair_of_snoc (by decide) pair⟩
  | done worker task pc call channel after answering stepped =>
      have ends := doneStep_returned_iff stepped
      by_cases replied : after = .leave
      · subst replied
        have running : pc ≠ .leave := fun leaving => by simpa using ends.mpr leaving
        exact ⟨order, linearized.reply answering running rfl rfl rfl⟩
      · have history : server.history ++ repliedAt task after = server.history := by simp [repliedAt, replied]
        refine ⟨order, linearized.keep_update conserved rfl rfl ?_ (by rw [answering]; rfl)
          (not_transferring_done task after) (by simp only [history]) fun first second pair => by
            rwa [history] at pair⟩
        rw [answering, Worker.answering, Worker.seeked]
        by_cases leaving : pc = .leave
        · rw [if_pos leaving, if_pos (ends.mpr leaving)]
          rfl
        · rw [if_neg leaving, if_neg fun returned => leaving (ends.mp returned), Worker.seeked, if_neg replied]

/-- Only a reception adds to the received tasks, and it adds a range inside the file. -/
theorem inRange_step {fileSize : Nat} (inRange : label.InRange fileSize)
    (moves : Moves host factory server label next)
    (before : ∀ task ∈ tasksAt .received server.history, task.received.InRange fileSize) :
    ∀ task ∈ tasksAt .received next.history, task.received.InRange fileSize := by
  cases moves with
  | receive request idle type =>
      simp only [tasksAt_append, tasksAt_singleton, if_true, List.forall_mem_append, List.forall_mem_singleton]
      exact ⟨before, inRange⟩
  | enqueue task selected => simpa using before
  | dequeue worker place task rest waiting perm => exact before
  | create worker task handler creating found => exact before
  | access worker operation task pc call after running stepped => exact before
  | finish worker operation task pc running returned => simpa using before
  | done worker task pc call channel after answering stepped => simpa using before

/-- Each state of a run that is positive and seeks alone has its tasks in an order. -/
theorem linearized_run (registered : Registered factory) {file : OpenFile} {labels : List (Label count)}
    (positive : ∀ label ∈ labels, label.Positive) (inRange : ∀ label ∈ labels, label.InRange file.bytes.length)
    (alone : Meets (serverStep host factory) SeeksAlone (.initial count file) labels)
    (reached : run (serverStep host factory) (.initial count file) labels = some server) :
    ∃ order, Linearized file.bytes server order := by
  have conditions := (alone.and (meets_of_forall positive _)).and (meets_of_forall inRange _)
  refine (run_invariant_of_meets (fun state => (Valid state ∧ Conserved state) ∧
      (∀ task ∈ tasksAt .received state.history, task.received.InRange file.bytes.length) ∧
      ∃ order, Linearized file.bytes state order)
    (fun state label later holds condition stepped => ?_) ?_ conditions reached).2.2
  · obtain ⟨⟨valid, conserved⟩, ranges, order, linearized⟩ := holds
    obtain ⟨⟨seeks, transfers⟩, range⟩ := condition
    have moves := moves_of_serverStep stepped
    refine ⟨⟨valid.step registered moves, conserved.step registered valid moves⟩,
      inRange_step range moves ranges, ?_⟩
    exact linearized.step registered valid conserved
      (fun task member => ⟨(ranges task member).size, (ranges task member).offset⟩) transfers seeks moves
  · exact ⟨⟨valid_initial count file, conserved_initial count file⟩, by simp [Server.initial, tasksAt],
      [], linearized_initial count file⟩

/-- In a quiescent state each received request was replied to. -/
theorem Conserved.replied_of_quiescent (conserved : Conserved server) (quiescent : server.Quiescent) :
    tags (tasksAt .received server.history) = tags (tasksAt .replied server.history) := by
  rw [conserved.received, conserved.enqueued, quiescent.selected, quiescent.queue]
  simp [quiescent.workers, Worker.executing]

end

/-- The outcome is that of an order of atomic operations when each seek is made alone. -/
theorem isolated_of_seeksAlone {host : Endian} {factory : Factory Int32 Handler} (registered : Registered factory)
    {count : Nat} {file : OpenFile} {labels : List (Label count)} {server : Server count}
    (positive : ∀ label ∈ labels, label.Positive) (inRange : ∀ label ∈ labels, label.InRange file.bytes.length)
    (alone : Meets (serverStep host factory) SeeksAlone (.initial count file) labels)
    (reached : run (serverStep host factory) (.initial count file) labels = some server)
    (quiescent : server.Quiescent) : ∃ order, Isolated file.bytes server order := by
  obtain ⟨valid, conserved⟩ := conserved_run registered reached
  obtain ⟨order, linearized⟩ := linearized_run registered positive inRange alone reached
  have members : ∀ task, task ∈ order ↔ task ∈ tasksAt .replied server.history := by
    intro task
    rw [linearized.members]
    simp [quiescent.workers, Worker.seeked]
  have single : (tasksAt .replied server.history).Nodup := by
    refine List.Nodup.of_map Task.id (List.nodup_iff_count_le_one.mpr fun id => ?_)
    exact (Nat.le_add_left _ _).trans (conserved.count_le_one id)
  have all : order.Perm (tasksAt .replied server.history) :=
    (List.perm_ext_iff_of_nodup (List.Nodup.of_map Task.id linearized.distinct) single).mpr members
  have received : (order.map Task.tag).Perm ((tasksAt .received server.history).map Task.tag) :=
    (all.map Task.tag).trans (Multiset.coe_eq_coe.mp (conserved.replied_of_quiescent quiescent).symm)
  refine ⟨order, all, received, ?_, fun first second pair => linearized.precedence first second pair ?_⟩
  · cases linearized.served with
    | calm still explains => exact explains
    | moving worker operation task pc before content moved running remains still last explains progress =>
        rw [quiescent.workers] at running
        cases running
  · have known : second ∈ tasksAt .received server.history := mem_tasksAt.mpr (pair.subset (by simp))
    obtain ⟨task, inside, same⟩ := List.mem_map.mp (received.mem_iff.mpr (List.mem_map_of_mem known))
    exact List.mem_map.mpr ⟨task, inside, congrArg Prod.fst same⟩

/-- This is the shipped server with two workers. -/
def twoWorkers (content : List UInt8) (labels : List (Label 2)) : Option (Server 2) :=
  run (serverStep .littleEndian (Factory.empty.addAll shippedAdds)) (.initial 2 ⟨content, 0⟩) labels

/-- The write and the read overlap, and they have the outcome of some order of both. -/
theorem isolated_writeBesideRead :
    ∃ server, twoWorkers [5, 6] writeBesideRead = some server ∧ server.file.bytes = [9, 6] ∧
      ∃ order, Isolated [5, 6] server order := by
  obtain ⟨server, reached, quiescent, bytes⟩ : ∃ server, twoWorkers [5, 6] writeBesideRead = some server ∧
      server.Quiescent ∧ server.file.bytes = [9, 6] := by decide
  refine ⟨server, reached, bytes, isolated_of_seeksAlone registered_shipped ?_ ?_ (by decide) reached quiescent⟩
  · simp [writeBesideRead, Label.Positive, AccessCall.Positive, DoneCall.Positive]
  · simp only [writeBesideRead, List.forall_mem_cons, Label.InRange, List.not_mem_nil, false_implies, implies_true,
      and_true, true_and]
    exact ⟨⟨by decide, by decide, by decide⟩, ⟨by decide, by decide, by decide⟩⟩

/-- Two clients write one byte each, side by side. -/
def lowWrite : NBDRWReq := { firstByteWrite with mData := fun _ => 1 }
def highWrite : NBDRWReq := { firstByteWrite with mOffset := 1, mData := fun _ => 2 }

/-- Both workers seek before either of them writes. -/
def crossedWrites : List (Label 2) :=
  [.receive lowWrite, .enqueue, .receive highWrite, .enqueue,
    .work firstWorker (.dequeue 1), .work secondWorker (.dequeue 0),
    .work firstWorker .create, .work secondWorker .create,
    .work firstWorker (.access (.lseek true)), .work secondWorker (.access (.lseek true)),
    .work firstWorker (.access (.transfer 1)), .work secondWorker (.access (.transfer 1)),
    .work firstWorker .finish, .work secondWorker .finish,
    .work firstWorker (.done .lock), .work firstWorker (.done (.write 16)), .work firstWorker (.done .unlock),
    .work secondWorker (.done .lock), .work secondWorker (.done (.write 16)), .work secondWorker (.done .unlock)]

/-- A write inside the file keeps its size. -/
theorem length_perform {task : Task} {content : List UInt8} (inRange : task.received.InRange content.length) :
    (task.perform content).length = content.length := by
  unfold Task.perform
  cases task.received.access with
  | read => rfl
  | write => exact length_overwrite_of_le 0 (by simpa using inRange.inside)

/-- The crossed writes leave three bytes, which no order of two writes into two bytes does. -/
theorem isolated_crossedWrites_fails :
    ∃ server, twoWorkers [0, 0] crossedWrites = some server ∧ server.Quiescent ∧
      (∀ label ∈ crossedWrites, label.Positive ∧ label.InRange 2) ∧ ¬ ∃ order, Isolated [0, 0] server order := by
  obtain ⟨server, reached, quiescent, bytes⟩ : ∃ server, twoWorkers [0, 0] crossedWrites = some server ∧
      server.Quiescent ∧ server.file.bytes = [0, 1, 2] := by decide
  have ranges : ∀ request ∈ [lowWrite, highWrite], request.InRange 2 := by
    simp only [List.forall_mem_cons, List.not_mem_nil, false_implies, implies_true, and_true]
    exact ⟨⟨by decide, by decide, by decide⟩, ⟨by decide, by decide, by decide⟩⟩
  have requests : (twoWorkers [0, 0] crossedWrites).map
      (fun server => (tasksAt .received server.history).map Task.received) = some [lowWrite, highWrite] := rfl
  rw [reached, Option.map_some, Option.some.injEq] at requests
  refine ⟨server, reached, quiescent, ?_, ?_⟩
  · simpa [crossedWrites, Label.Positive, Label.InRange, AccessCall.Positive, DoneCall.Positive] using ranges
  · rintro ⟨order, isolated⟩
    have inRange : ∀ task ∈ order, task.received.InRange 2 := by
      intro task member
      refine ranges _ (requests ▸ ?_)
      have known := isolated.received.mem_iff.mp (List.mem_map_of_mem (f := Task.tag) member)
      obtain ⟨original, received, same⟩ := List.mem_map.mp known
      exact List.mem_map.mpr ⟨original, received, congrArg Prod.snd same⟩
    have size := isolated.explains.invariant (fun content => content.length = 2)
      (fun task member content length => by rw [length_perform (by rw [length]; exact inRange task member), length])
      rfl
    rw [bytes] at size
    cases size

end DistributedNas.Engine
