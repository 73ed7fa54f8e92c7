import DistributedNas.Engine.OneWorker

/-
This file proves that the server goes on until it has replied to each request, unless a reader stands at the end of the
file.
-/

namespace DistributedNas.Proxy
open Library Posix

/-- So many bytes of data follow the header of the reply. -/
def NBDRWReq.payloadSize (request : NBDRWReq) : Nat := if request.sendsData then request.length else 0

/-- A call of `Done` makes at most this many steps. -/
def DonePc.remaining (request : NBDRWReq) : DonePc → Nat
  | .enter => sizeofNbdReply + request.payloadSize + 2
  | .header window => window.count + request.payloadSize + 1
  | .payload window => window.count + 1
  | .leave => 1
  | .returned => 0

/-- A loop is left when its window is empty, and no window is longer than an `int` can count. -/
def DonePc.Looping : DonePc → Prop
  | .header window | .payload window => window.count ≠ 0 ∧ window.count < 2 ^ 31
  | .enter | .leave | .returned => True

section
variable {host : Endian} {request : NBDRWReq} {Thread : Type*} [DecidableEq Thread] {thread : Thread}
  {channel after : Channel Thread} {pc next : DonePc} {call : DoneCall}

theorem DonePc.inPayload_looping (request : NBDRWReq) {window : Window} (small : window.count < 2 ^ 31) :
    (DonePc.inPayload window).Looping ∧ (DonePc.inPayload window).remaining request ≤ window.count + 1 := by
  unfold inPayload
  split
  · exact ⟨trivial, Nat.le_add_left _ _⟩
  · next remains => exact ⟨⟨remains, small⟩, le_rfl⟩

theorem DonePc.inHeader_looping (size : 0 ≤ request.mSize.toInt) {window : Window} (small : window.count < 2 ^ 31) :
    (DonePc.inHeader request window).Looping ∧
      (DonePc.inHeader request window).remaining request ≤ window.count + request.payloadSize + 1 := by
  unfold inHeader
  split
  · next remains => exact ⟨⟨remains, small⟩, le_rfl⟩
  · split
    · next sends =>
        have payload : request.payloadSize = request.length := if_pos sends
        have whole : (Window.whole request.length).count < 2 ^ 31 := request.length_lt
        rw [NBDRWReq.toSizeT_mSize size, payload]
        obtain ⟨looping, bound⟩ := inPayload_looping request whole
        refine ⟨looping, bound.trans ?_⟩
        show request.length + 1 ≤ window.count + request.length + 1
        omega
    · exact ⟨trivial, Nat.le_add_left _ _⟩

theorem DonePc.inPayload_inside (window : Window) : (DonePc.inPayload window).inside := by
  unfold inPayload
  split <;> rfl

theorem DonePc.inHeader_inside (request : NBDRWReq) (window : Window) :
    (DonePc.inHeader request window).inside := by
  unfold inHeader
  split_ifs
  · rfl
  · exact inPayload_inside _
  · rfl

/-- A step of a `Done` takes the lock, keeps it, or drops it. -/
theorem doneStep_mutex (stepped : doneStep host thread request channel pc call = some (after, next)) :
    after.mMutex = some thread ∧ next.inside ∨ after.mMutex = channel.mMutex ∧ pc.inside ∧ next.inside ∨
      after.mMutex = none := by
  cases doneMoves_of_doneStep stepped with
  | lock free => exact .inl ⟨rfl, DonePc.inHeader_inside _ _⟩
  | header window rest result sent iterated => exact .inr (.inl ⟨rfl, rfl, DonePc.inHeader_inside _ _⟩)
  | payload window rest result sent iterated => exact .inr (.inl ⟨rfl, rfl, DonePc.inPayload_inside _⟩)
  | unlock => exact .inr (.inr rfl)

/-- Each step of a `Done` with positive writes brings it closer to its end. -/
theorem doneStep_remaining (size : pc ≠ .leave → 0 ≤ request.mSize.toInt) (looping : pc.Looping)
    (positive : call.Positive) (stepped : doneStep host thread request channel pc call = some (after, next)) :
    next.Looping ∧ next.remaining request < pc.remaining request := by
  cases doneMoves_of_doneStep stepped with
  | lock free =>
      have whole : (Window.whole sizeofNbdReply).count < 2 ^ 31 := by decide
      obtain ⟨looping, bound⟩ := DonePc.inHeader_looping (size (by simp)) whole
      exact ⟨looping, Nat.lt_of_le_of_lt bound (Nat.lt_succ_self _)⟩
  | header window rest result sent iterated =>
      obtain ⟨count, rfl, one, within, -, rfl⟩ := sendIteration_success looping.2 positive iterated
      have small : window.count - count < 2 ^ 31 := (Nat.sub_le _ _).trans_lt looping.2
      obtain ⟨later, bound⟩ := DonePc.inHeader_looping (size (by simp))
        (show (⟨window.buf + count, window.count - count⟩ : Window).count < 2 ^ 31 from small)
      refine ⟨later, ?_⟩
      simp only [DonePc.remaining] at bound ⊢
      omega
  | payload window rest result sent iterated =>
      obtain ⟨count, rfl, one, within, -, rfl⟩ := sendIteration_success looping.2 positive iterated
      have small : window.count - count < 2 ^ 31 := (Nat.sub_le _ _).trans_lt looping.2
      obtain ⟨later, bound⟩ := DonePc.inPayload_looping request
        (show (⟨window.buf + count, window.count - count⟩ : Window).count < 2 ^ 31 from small)
      refine ⟨later, ?_⟩
      simp only [DonePc.remaining] at bound ⊢
      omega
  | unlock => exact ⟨trivial, Nat.zero_lt_one⟩

/-- A `Done` that stands at its lock, or that has taken it, goes on when the mutex lets it. -/
theorem exists_doneStep (host : Endian) (thread : Thread) (request : NBDRWReq) (looping : pc.Looping)
    (goes : pc ≠ .returned) (free : pc.inside ∨ channel.mMutex = none) :
    ∃ call after next, call.Positive ∧ doneStep host thread request channel pc call = some (after, next) := by
  have one : ∀ window : Window, window.count ≠ 0 → window.count ≠ 0 ∧ WriteResult window.count 1 := by
    intro window remains
    exact ⟨remains, .inr ⟨le_rfl, by omega⟩⟩
  cases pc with
  | enter =>
      rcases free with inside | free
      · cases inside
      · exact ⟨.lock, _, _, trivial, if_pos free⟩
  | header window =>
      refine ⟨.write 1, ?_⟩
      simp only [doneStep, sendIteration, if_pos (one window looping.1), Option.map_some]
      exact ⟨_, _, le_rfl, rfl⟩
  | payload window =>
      refine ⟨.write 1, ?_⟩
      simp only [doneStep, sendIteration, if_pos (one window looping.1), Option.map_some]
      exact ⟨_, _, le_rfl, rfl⟩
  | leave => exact ⟨.unlock, _, _, trivial, rfl⟩
  | returned => exact absurd rfl goes

end

end DistributedNas.Proxy

namespace DistributedNas.Engine
open Library Posix Proxy Storage
open scoped BigOperators

/-- A step takes in no request, and each of its calls moves at least one byte. -/
def Label.Advances {count : Nat} : Label count → Prop
  | .receive _ => False
  | .enqueue => True
  | .work worker call => (Label.work worker call).Positive

/-- A worker makes at most this many steps until it waits again. -/
def Worker.remaining : Worker → Nat
  | .dequeue => 0
  | .create task => task.request.length + DonePc.enter.remaining task.request + 3
  | .access _ task .seek => task.request.length + DonePc.enter.remaining task.request + 2
  | .access _ task (.loop window) => window.count + DonePc.enter.remaining task.request + 1
  | .done task pc => pc.remaining task.request

/-- The loops of a worker have bytes to move, and no more than an `int` can count. -/
def Worker.Looping : Worker → Prop
  | .access _ _ (.loop window) => window.count < 2 ^ 31
  | .done _ pc => pc.Looping
  | .dequeue | .create _ | .access _ _ .seek => True

section
variable {host : Endian} {factory : Factory Int32 Handler} {count : Nat}

/-- The server makes at most this many steps until it needs a request. -/
def Server.remaining (server : Server count) : Nat :=
  (server.selectThread.toList.map fun task => (Worker.create task).remaining + 2).sum +
    (server.mWq.map fun task => (Worker.create task).remaining + 1).sum +
    ∑ worker, (server.workers worker).remaining

/-- A reader stands at the end of the file, where `read` gives it nothing. -/
def Server.Starving (server : Server count) : Prop :=
  ∃ worker task window, server.workers worker = .access .read task (.loop window) ∧ window.count ≠ 0 ∧
    server.file.bytes.length ≤ server.file.position

/-- Each run that takes in no request is bounded, and it stops with all replies sent or with a starving reader. -/
structure Drains (host : Endian) (factory : Factory Int32 Handler) (server : Server count) : Prop where
  bounded : ∀ later final, (∀ label ∈ later, label.Advances) → run (serverStep host factory) server later = some final →
    later.length + final.remaining ≤ server.remaining
  ends : (∀ label, label.Advances → serverStep host factory server label = none) →
    server.Starving ∨ tags (tasksAt .received server.history) = tags (tasksAt .replied server.history)

/-- Such runs are bounded, no reader starves, and a server that seeks alone stops only with all replies sent. -/
structure AnswersAll (host : Endian) (factory : Factory Int32 Handler) (server : Server count) : Prop where
  drains : Drains host factory server
  fed : ¬ server.Starving
  ends : (∀ label, label.Advances → SeeksAlone server label → serverStep host factory server label = none) →
    tags (tasksAt .received server.history) = tags (tasksAt .replied server.history)

/-- The loops go on, and the mutex is held by a worker between its lock and its unlock. -/
structure Ready (server : Server count) : Prop where
  looping : ∀ worker, (server.workers worker).Looping
  locked : ∀ worker, server.channel.mMutex = some worker → ∃ task pc, server.workers worker = .done task pc ∧ pc.inside

variable {server next : Server count} {label : Label count} {worker : Fin count} {after : Worker}

theorem ready_initial (file : OpenFile) : Ready (.initial count file) where
  looping := fun _ => trivial
  locked := by
    intro worker held
    cases held

/-- A change of one worker keeps all loops going. -/
theorem Ready.looping_update (ready : Ready server) (worker : Fin count) (looping : after.Looping) :
    ∀ other, (Function.update server.workers worker after other).Looping := by
  intro other
  by_cases same : other = worker
  · rw [same, Function.update_self]
    exact looping
  · rw [Function.update_of_ne same]
    exact ready.looping other

/-- A worker outside its reply may go anywhere outside the lock. -/
theorem Ready.update (ready : Ready server) (workers : next.workers = Function.update server.workers worker after)
    (channel : next.channel = server.channel)
    (outside : ∀ task pc, server.workers worker = .done task pc → pc.inside = false)
    (looping : after.Looping) : Ready next where
  looping := by
    rw [workers]
    exact ready.looping_update worker looping
  locked := by
    intro owner held
    rw [channel] at held
    obtain ⟨task, pc, answering, inside⟩ := ready.locked owner held
    have different : owner ≠ worker := by
      intro same
      rw [outside task pc (same ▸ answering)] at inside
      cases inside
    rw [workers, Function.update_of_ne different]
    exact ⟨task, pc, answering, inside⟩

/-- A step of a reply hands the mutex on as `Done` does. -/
theorem Ready.reply (ready : Ready server) {task : Task} {pc goal : DonePc} {call : DoneCall}
    {channel : Channel (Fin count)}
    (stepped : doneStep host worker task.request server.channel pc call = some (channel, goal))
    (workers : next.workers = Function.update server.workers worker (.answering task goal))
    (shared : next.channel = channel) (looping : (Worker.answering task goal).Looping) : Ready next where
  looping := by
    rw [workers]
    exact ready.looping_update worker looping
  locked := by
    intro owner held
    rw [shared] at held
    rw [workers]
    by_cases same : owner = worker
    · have stays (inside : goal.inside) : Worker.answering task goal = .done task goal := by
        rw [Worker.answering, if_neg]
        rintro rfl
        cases inside
      rw [same, Function.update_self]
      rcases doneStep_mutex stepped with ⟨-, inside⟩ | ⟨-, -, inside⟩ | free
      · exact ⟨task, goal, stays inside, inside⟩
      · exact ⟨task, goal, stays inside, inside⟩
      · cases free.symm.trans held
    · rw [Function.update_of_ne same]
      rcases doneStep_mutex stepped with ⟨taken, -⟩ | ⟨kept, -, -⟩ | free
      · exact absurd (Option.some.inj (held.symm.trans taken)) same
      · exact ready.locked owner (kept ▸ held)
      · cases free.symm.trans held

/-- A positive call of a file operation brings its worker closer to its end. -/
theorem accessStep_remaining {operation : Access} {file : OpenFile} {task : Task} {pc : AccessPc}
    {call : AccessCall} {state : AccessState} (size : 0 ≤ task.request.mSize.toInt)
    (looping : (Worker.access operation task pc).Looping) (positive : call.Positive)
    (stepped : accessStep operation ⟨file, task.request, pc⟩ call = some state) :
    (Worker.access operation { task with request := state.request } state.pc).Looping ∧
      (Worker.access operation { task with request := state.request } state.pc).remaining <
        (Worker.access operation task pc).remaining := by
  cases pc with
  | seek =>
      cases call with
      | transfer result => cases stepped
      | lseek succeeds =>
          obtain rfl := Option.some.inj stepped
          have whole : (Window.whole (toSizeT task.request.mSize.toInt)).count = task.request.length :=
            NBDRWReq.toSizeT_mSize size
          simp only [Worker.Looping, Worker.remaining, whole]
          exact ⟨task.request.length_lt, Nat.lt_succ_self _⟩
  | loop window =>
      have small : window.count < 2 ^ 31 := looping
      cases call with
      | lseek succeeds => cases stepped
      | transfer result =>
          cases operation with
          | read =>
              obtain ⟨⟨moved, memory, rest⟩, iterated, rfl⟩ := Option.map_eq_some_iff.mp stepped
              obtain ⟨count, rfl, one, within, -, rfl, rfl, rfl⟩ := readIteration_success small positive iterated
              refine ⟨(Nat.sub_le _ _).trans_lt small, ?_⟩
              show window.count - count + DonePc.enter.remaining task.request + 1 <
                window.count + DonePc.enter.remaining task.request + 1
              omega
          | write =>
              obtain ⟨⟨moved, rest⟩, iterated, rfl⟩ := Option.map_eq_some_iff.mp stepped
              obtain ⟨count, rfl, one, within, rfl, rfl⟩ := writeIteration_success small positive iterated
              refine ⟨(Nat.sub_le _ _).trans_lt small, ?_⟩
              show window.count - count + DonePc.enter.remaining task.request + 1 <
                window.count + DonePc.enter.remaining task.request + 1
              omega

/-- A change of one worker changes the number of steps by that of the worker. -/
theorem remaining_update (workers : Fin count → Worker) (worker : Fin count) (after : Worker) :
    (∑ other, (Function.update workers worker after other).remaining) + (workers worker).remaining =
      (∑ other, (workers other).remaining) + after.remaining :=
  sum_update Worker.remaining workers worker after

/-- A worker that comes closer to its end brings the server closer to its end. -/
theorem Server.remaining_lt (selected : next.selectThread = server.selectThread) (queue : next.mWq = server.mWq)
    (workers : next.workers = Function.update server.workers worker after)
    (less : after.remaining < (server.workers worker).remaining) : next.remaining < server.remaining := by
  have changed := remaining_update server.workers worker after
  simp only [remaining, selected, queue, workers]
  omega

/-- Each positive step keeps the loops and the mutex, and a step that takes in no request comes closer to the end. -/
theorem Ready.step (registered : Registered factory) (valid : Valid server) (conserved : Conserved server)
    (nonnegative : ∀ task ∈ tasksAt .received server.history,
      0 ≤ task.received.mSize.toInt ∧ 0 ≤ task.received.mOffset.toInt)
    (ready : Ready server) (positive : label.Positive) (moves : Moves host factory server label next) :
    Ready next ∧ (label.Advances → next.remaining < server.remaining) := by
  cases moves with
  | receive request idle type => exact ⟨⟨ready.looping, ready.locked⟩, False.elim⟩
  | enqueue task selected =>
      refine ⟨⟨ready.looping, ready.locked⟩, fun _ => ?_⟩
      simp only [Server.remaining, selected, Option.toList_some, Option.toList_none, List.map_cons, List.map_nil,
        List.sum_cons, List.sum_nil]
      omega
  | dequeue worker place task rest waiting queued =>
      refine ⟨ready.update rfl rfl (by simp [waiting]) trivial, fun _ => ?_⟩
      have changed := remaining_update server.workers worker (.create task)
      have items := (queued.map fun task => (Worker.create task).remaining + 1).sum_eq
      rw [waiting, Worker.remaining] at changed
      rw [List.map_cons, List.sum_cons] at items
      simp only [Server.remaining]
      omega
  | create worker task handler creating found =>
      rw [(valid.creating creating).start registered found]
      refine ⟨ready.update rfl rfl (by simp [creating]) trivial, fun _ => ?_⟩
      refine Server.remaining_lt rfl rfl rfl ?_
      rw [creating]
      simp only [Worker.remaining]
      omega
  | access worker operation task pc call state running stepped =>
      have executing : (server.workers worker).executing = some task := by rw [running]; rfl
      have size := (conserved.nonnegative nonnegative (valid.running running).1 executing).1
      have looping := ready.looping worker
      rw [running] at looping
      obtain ⟨later, less⟩ := accessStep_remaining size looping positive stepped
      refine ⟨ready.update rfl rfl (by simp [running]) later, fun _ => ?_⟩
      refine Server.remaining_lt rfl rfl rfl ?_
      rw [running]
      exact less
  | finish worker operation task pc running returned =>
      refine ⟨ready.update rfl rfl (by simp [running]) trivial, fun _ => ?_⟩
      refine Server.remaining_lt rfl rfl rfl ?_
      rw [running]
      cases pc with
      | seek => cases returned
      | loop window =>
          simp only [Worker.remaining]
          omega
  | done worker task pc call channel after answering stepped =>
      have size : pc ≠ .leave → 0 ≤ task.request.mSize.toInt := by
        intro unfinished
        have executing : (server.workers worker).executing = some task := by
          rw [answering, Worker.executing_done unfinished]
        exact (conserved.nonnegative nonnegative (valid.answering answering).1 executing).1
      have looping := ready.looping worker
      rw [answering] at looping
      obtain ⟨later, less⟩ := doneStep_remaining size looping positive stepped
      have stands : (Worker.answering task after).Looping ∧
          (Worker.answering task after).remaining ≤ after.remaining task.request := by
        unfold Worker.answering
        split
        · exact ⟨trivial, Nat.zero_le _⟩
        · exact ⟨later, le_rfl⟩
      refine ⟨ready.reply stepped rfl rfl stands.1, fun _ => ?_⟩
      refine Server.remaining_lt rfl rfl rfl ?_
      rw [answering]
      exact stands.2.trans_lt less

/-- A worker between two transfers of its operation goes on unless it is a reader at the end of the file. -/
theorem exists_access (host : Endian) (factory : Factory Int32 Handler) {operation : Access} {task : Task}
    {pc : AccessPc} (running : server.workers worker = .access operation task pc) (fed : ¬ server.Starving) :
    ∃ call next, (Label.work worker call).Advances ∧
      serverStep host factory server (.work worker call) = some next ∧
      (pc = .seek ∨ ∀ succeeds, call ≠ .access (.lseek succeeds)) := by
  cases pc with
  | seek =>
      refine ⟨.access (.lseek true), ?_⟩
      simp only [serverStep, workerStep, running, accessStep, Option.map_some]
      exact ⟨_, rfl, rfl, .inl trivial⟩
  | loop window =>
      by_cases ended : window.count = 0
      · have returned : (AccessPc.loop window).returned := by simp [AccessPc.returned, ended]
        refine ⟨.finish, ?_⟩
        simp only [serverStep, workerStep, running, if_pos returned]
        exact ⟨_, trivial, rfl, .inr (by simp)⟩
      · refine ⟨.access (.transfer 1), ?_⟩
        cases operation with
        | read =>
            have available : server.file.position < server.file.bytes.length := by
              by_contra beyond
              exact fed ⟨worker, task, window, running, ended, Nat.le_of_not_lt beyond⟩
            have result : window.count ≠ 0 ∧
                ReadResult (server.file.bytes.length - server.file.position) window.count 1 :=
              ⟨ended, .inr (.inl ⟨le_rfl, by omega, by omega⟩)⟩
            simp only [serverStep, workerStep, running, accessStep, readIteration, if_pos result, Option.map_some]
            exact ⟨_, le_rfl, rfl, .inr (by simp)⟩
        | write =>
            have result : window.count ≠ 0 ∧ WriteResult window.count 1 := ⟨ended, .inr ⟨le_rfl, by omega⟩⟩
            simp only [serverStep, workerStep, running, accessStep, writeIteration, if_pos result, Option.map_some]
            exact ⟨_, le_rfl, rfl, .inr (by simp)⟩

/-- A worker that looks up its handler finds it. -/
theorem exists_create (host : Endian) (registered : Registered factory) {task : Task} (carried : task.Carried)
    (creating : server.workers worker = .create task) :
    ∃ next, serverStep host factory server (.work worker .create) = some next := by
  obtain ⟨memory, fields⟩ := carried.fields
  have found : ∃ handler, factory.find task.request.mType = some handler := by
    rw [show task.request.mType = task.received.mType by rw [fields]]
    rcases carried.type with reads | writes
    · exact ⟨.read, by rw [reads, registered.read]⟩
    · exact ⟨.write, by rw [writes, registered.write]⟩
  obtain ⟨handler, found⟩ := found
  have runs : create factory task.request.toRequest = .runs handler := by rw [create, found]
  simp only [serverStep, workerStep, creating, runs]
  exact ⟨_, rfl⟩

/-- A worker at its reply goes on when the mutex lets it. -/
theorem exists_done (host : Endian) (factory : Factory Int32 Handler) {task : Task} {pc : DonePc} (valid : Valid server)
    (ready : Ready server) (answering : server.workers worker = .done task pc)
    (free : pc.inside ∨ server.channel.mMutex = none) :
    ∃ call next, (Label.work worker (.done call)).Advances ∧
      serverStep host factory server (.work worker (.done call)) = some next := by
  have looping := ready.looping worker
  rw [answering] at looping
  obtain ⟨call, after, rest, positive, stepped⟩ :=
    exists_doneStep host worker task.request looping (valid.answering answering).2.2 free
  refine ⟨call, ?_⟩
  simp only [serverStep, workerStep, answering, stepped, Option.map_some]
  exact ⟨_, positive, rfl⟩

/-- A waiting worker takes a task off a queue that is not empty. -/
theorem exists_dequeue (host : Endian) (factory : Factory Int32 Handler) (waiting : server.workers worker = .dequeue)
    (queued : server.mWq ≠ []) :
    ∃ place next, serverStep host factory server (.work worker (.dequeue place)) = some next := by
  obtain ⟨task, top⟩ := exists_least (fun task : Task => task.priority.toNat) queued
  obtain ⟨place, rest, popped⟩ := exists_popTop top
  refine ⟨place, ?_⟩
  have found : popTop compareFunctor server.mWq place = some (task, rest) := popped
  simp only [serverStep, workerStep, waiting, found, Option.map_some]
  exact ⟨_, rfl⟩

/-- Each seek is made alone while no worker is in the middle of a transfer. -/
theorem seeksAlone_of_still (still : ∀ other, (server.workers other).transferring = false) (label : Label count) :
    SeeksAlone server label := by
  cases label with
  | receive request => trivial
  | enqueue => trivial
  | work worker call =>
      cases call with
      | dequeue place | create | finish | done call => trivial
      | access call =>
          cases call with
          | lseek succeeds => exact fun other _ => still other
          | transfer result => trivial

/-- The server goes on, and it can make its seeks alone, until it is quiescent or a reader starves. -/
theorem exists_advance (host : Endian) (registered : Registered factory) (workers : 0 < count) (valid : Valid server)
    (ready : Ready server) (busy : ¬ server.Quiescent) (fed : ¬ server.Starving) :
    ∃ label next, label.Advances ∧ SeeksAlone server label ∧ serverStep host factory server label = some next := by
  by_cases still : ∀ other, (server.workers other).transferring = false
  · cases selected : server.selectThread with
    | some task =>
        refine ⟨.enqueue, ?_⟩
        simp only [serverStep, selected, Option.map_some]
        exact ⟨_, trivial, trivial, rfl⟩
    | none =>
        cases held : server.channel.mMutex with
        | some owner =>
            -- the others may wait for the mutex, and its owner does not
            obtain ⟨task, pc, answering, inside⟩ := ready.locked owner held
            obtain ⟨call, next, advances, stepped⟩ := exists_done host factory valid ready answering (.inl inside)
            exact ⟨_, next, advances, seeksAlone_of_still still _, stepped⟩
        | none =>
            by_cases idle : ∀ worker, server.workers worker = .dequeue
            · have queued : server.mWq ≠ [] := fun empty => busy ⟨selected, empty, idle⟩
              obtain ⟨place, next, stepped⟩ := exists_dequeue host factory (idle ⟨0, workers⟩) queued
              exact ⟨.work _ (.dequeue place), next, trivial, seeksAlone_of_still still _, stepped⟩
            · obtain ⟨worker, working⟩ := not_forall.mp idle
              cases place : server.workers worker with
              | dequeue => exact absurd place working
              | create task =>
                  obtain ⟨next, stepped⟩ := exists_create host registered (valid.creating place) place
                  exact ⟨.work worker .create, next, trivial, seeksAlone_of_still still _, stepped⟩
              | access operation task pc =>
                  obtain ⟨call, next, advances, stepped, -⟩ := exists_access host factory place fed
                  exact ⟨_, next, advances, seeksAlone_of_still still _, stepped⟩
              | done task pc =>
                  obtain ⟨call, next, advances, stepped⟩ := exists_done host factory valid ready place (.inr held)
                  exact ⟨_, next, advances, seeksAlone_of_still still _, stepped⟩
  · -- the worker in the middle of its transfer goes on, since no other one may seek
    obtain ⟨worker, transferring⟩ := not_forall.mp still
    cases place : server.workers worker with
    | dequeue | create task | done task pc => simp [place, Worker.transferring] at transferring
    | access operation task pc =>
        obtain ⟨call, next, advances, stepped, alone⟩ := exists_access host factory place fed
        refine ⟨_, next, advances, ?_, stepped⟩
        rcases alone with rfl | alone
        · simp [place, Worker.transferring] at transferring
        · cases call with
          | dequeue place | create | finish | done call => trivial
          | access call =>
              cases call with
              | lseek succeeds => exact absurd rfl (alone succeeds)
              | transfer result => trivial

/-- These facts about a server are kept by each positive step with a nonnegative request. -/
structure Live (server : Server count) : Prop where
  valid : Valid server
  conserved : Conserved server
  nonnegative : ∀ task ∈ tasksAt .received server.history,
    0 ≤ task.received.mSize.toInt ∧ 0 ≤ task.received.mOffset.toInt
  ready : Ready server

theorem live_initial (file : OpenFile) : Live (.initial count file) where
  valid := valid_initial count file
  conserved := conserved_initial count file
  nonnegative := by simp [Server.initial, tasksAt]
  ready := ready_initial file

theorem Live.step (registered : Registered factory) (live : Live server) (positive : label.Positive)
    (nonnegative : label.Nonnegative) (moves : Moves host factory server label next) :
    Live next ∧ (label.Advances → next.remaining < server.remaining) := by
  obtain ⟨ready, falls⟩ := live.ready.step registered live.valid live.conserved live.nonnegative positive moves
  exact ⟨⟨live.valid.step registered moves, live.conserved.step registered live.valid moves,
    nonnegative_step nonnegative moves live.nonnegative, ready⟩, falls⟩

theorem live_run (registered : Registered factory) {file : OpenFile} {labels : List (Label count)}
    (positive : ∀ label ∈ labels, label.Positive) (nonnegative : ∀ label ∈ labels, label.Nonnegative)
    (reached : run (serverStep host factory) (.initial count file) labels = some server) : Live server := by
  have conditions : Meets (serverStep host factory) (fun _ label => label.Positive ∧ label.Nonnegative)
      (.initial count file) labels := (meets_of_forall positive _).and (meets_of_forall nonnegative _)
  refine run_invariant_of_meets Live (fun state label later live condition stepped => ?_) (live_initial file) conditions
    reached
  exact (live.step registered condition.1 condition.2 (moves_of_serverStep stepped)).1

/-- A step that takes in no request is positive and receives no negative number. -/
theorem Label.Advances.positive (advances : label.Advances) : label.Positive ∧ label.Nonnegative := by
  cases label with
  | receive request => cases advances
  | enqueue => exact ⟨trivial, trivial⟩
  | work worker call => exact ⟨advances, trivial⟩

/-- A live server that is fed goes on while a request is unanswered, and it can make its seeks alone. -/
theorem Live.exists_advance (host : Endian) (registered : Registered factory) (workers : 0 < count)
    (live : Live server) (fed : ¬ server.Starving)
    (unanswered : tags (tasksAt .received server.history) ≠ tags (tasksAt .replied server.history)) :
    ∃ label next, label.Advances ∧ SeeksAlone server label ∧ serverStep host factory server label = some next := by
  have busy : ¬ server.Quiescent := fun quiescent => unanswered (live.conserved.replied_of_quiescent quiescent)
  exact Engine.exists_advance host registered workers live.valid live.ready busy fed

/-- A live server has a bounded number of steps left, and it stops at a starving reader or with all replies sent. -/
theorem Live.drains (registered : Registered factory) (workers : 0 < count) (live : Live server) :
    Drains host factory server where
  bounded := by
    intro later final advances continued
    have steps (state : Server count) (label : Label count) (next : Server count) (live : Live state)
        (advances : label.Advances) (stepped : serverStep host factory state label = some next) :=
      live.step registered advances.positive.1 advances.positive.2 (moves_of_serverStep stepped)
    exact run_length_add_le_of_meets Server.remaining
      (fun state label next live advances stepped => (steps state label next live advances stepped).1)
      (fun state label next live advances stepped => (steps state label next live advances stepped).2 advances)
      live (meets_of_forall advances server) continued
  ends := by
    intro stopped
    by_contra unfinished
    obtain ⟨fed, unanswered⟩ := not_or.mp unfinished
    obtain ⟨label, next, advances, -, stepped⟩ := live.exists_advance host registered workers fed unanswered
    rw [stopped label advances] at stepped
    cases stepped

/-- Each state of a positive run with nonnegative requests drains. -/
theorem drains_of_run (registered : Registered factory) (workers : 0 < count) {file : OpenFile}
    {labels : List (Label count)} (positive : ∀ label ∈ labels, label.Positive)
    (nonnegative : ∀ label ∈ labels, label.Nonnegative)
    (reached : run (serverStep host factory) (.initial count file) labels = some server) :
    Drains host factory server := by
  have live := live_run registered positive nonnegative reached
  exact live.drains registered workers

/-- No step makes the file shorter. -/
theorem length_file_step (moves : Moves host factory server label next) :
    server.file.bytes.length ≤ next.file.bytes.length := by
  cases moves with
  | access worker operation task pc call state running stepped =>
      unfold accessStep at stepped
      split at stepped
      · obtain rfl := Option.some.inj stepped
        simp
      · cases operation with
        | read =>
            obtain ⟨⟨moved, memory, rest⟩, iterated, rfl⟩ := Option.map_eq_some_iff.mp stepped
            unfold readIteration at iterated
            split at iterated
            · obtain ⟨rfl, -⟩ := Prod.mk.inj (Option.some.inj iterated)
              exact le_rfl
            · cases iterated
        | write =>
            obtain ⟨⟨moved, rest⟩, iterated, rfl⟩ := Option.map_eq_some_iff.mp stepped
            unfold writeIteration at iterated
            split at iterated
            · obtain ⟨rfl, -⟩ := Prod.mk.inj (Option.some.inj iterated)
              show server.file.bytes.length ≤ (overwrite 0 server.file.bytes _ _).length
              rw [length_overwrite]
              split
              · exact le_rfl
              · exact le_max_left _ _
            · cases iterated
      · cases stepped
  | receive request idle type => exact le_rfl
  | enqueue task selected => exact le_rfl
  | dequeue worker place task rest waiting queued => exact le_rfl
  | create worker task handler creating found => exact le_rfl
  | finish worker operation task pc running returned => exact le_rfl
  | done worker task pc call channel after answering stepped => exact le_rfl

/-- The ranges that were received lie inside the file, which is no shorter than at first. -/
theorem ranges_run {file : OpenFile} {labels : List (Label count)}
    (inRange : ∀ label ∈ labels, label.InRange file.bytes.length)
    (reached : run (serverStep host factory) (.initial count file) labels = some server) :
    (∀ task ∈ tasksAt .received server.history, task.received.InRange file.bytes.length) ∧
      file.bytes.length ≤ server.file.bytes.length := by
  refine run_invariant_of_meets (fun state : Server count =>
      (∀ task ∈ tasksAt .received state.history, task.received.InRange file.bytes.length) ∧
        file.bytes.length ≤ state.file.bytes.length)
    (fun state label later holds range stepped => ?_) ?_ (meets_of_forall inRange _) reached
  · have moves := moves_of_serverStep stepped
    exact ⟨inRange_step range moves holds.1, holds.2.trans (length_file_step moves)⟩
  · exact ⟨by simp [Server.initial, tasksAt], le_rfl⟩

/-- A reader whose transfer is the only one stands before the end of its range. -/
theorem Linearized.fed {start : List UInt8} {order : List Task} {size : Nat}
    (linearized : Linearized start server order) (valid : Valid server) (conserved : Conserved server)
    (ranges : ∀ task ∈ tasksAt .received server.history, task.received.InRange size)
    (long : size ≤ server.file.bytes.length) : ¬ server.Starving := by
  rintro ⟨worker, task, window, running, remains, beyond⟩
  have transferring : (server.workers worker).transferring = true := by
    rw [running, Worker.transferring, bne_iff_ne]
    exact remains
  cases linearized.served with
  | calm still explains => simp [still worker] at transferring
  | moving other operation seeked pc before content moved atLoop unfinished still last explains progress =>
      obtain rfl : worker = other := by
        by_contra different
        simp [still worker different] at transferring
      obtain ⟨rfl, rfl, rfl⟩ := Worker.access.inj (running.symm.trans atLoop)
      have executing : (server.workers worker).executing = some task := by
        rw [running]
        rfl
      obtain ⟨original, received, same⟩ := conserved.received_of_executing executing
      have request : original.received = task.received := congrArg Prod.snd same
      obtain ⟨memory, fields⟩ := (valid.running running).1.fields
      have inside : task.request.start + task.request.length ≤ size := by
        rw [fields]
        exact request ▸ (ranges original received).inside
      have left : window.count = task.request.length - moved := congrArg Window.count (AccessPc.loop.inj progress.pc)
      have position : server.file.position = task.request.start + moved := progress.moved.1
      omega

/-- A server whose seeks are made alone never starves a reader of a range inside the file, and it replies to each
request. -/
theorem answersAll_of_seeksAlone (registered : Registered factory) (workers : 0 < count) {file : OpenFile}
    {labels : List (Label count)} (positive : ∀ label ∈ labels, label.Positive)
    (inRange : ∀ label ∈ labels, label.InRange file.bytes.length)
    (alone : Meets (serverStep host factory) SeeksAlone (.initial count file) labels)
    (reached : run (serverStep host factory) (.initial count file) labels = some server) :
    AnswersAll host factory server := by
  have nonnegative : ∀ label ∈ labels, label.Nonnegative := by
    intro label member
    have range := inRange label member
    cases label with
    | receive request => exact ⟨range.size, range.offset⟩
    | enqueue => trivial
    | work worker call => trivial
  have live := live_run registered positive nonnegative reached
  obtain ⟨order, linearized⟩ := linearized_run registered positive inRange alone reached
  obtain ⟨ranges, long⟩ := ranges_run inRange reached
  have fed := linearized.fed live.valid live.conserved ranges long
  refine ⟨live.drains registered workers, fed, fun stopped => ?_⟩
  by_contra unanswered
  obtain ⟨label, next, advances, seeks, stepped⟩ := live.exists_advance host registered workers fed unanswered
  rw [stopped label advances seeks] at stepped
  cases stepped

end

/-- The write is in the file but not replied to, and the reader of two bytes has taken one. -/
def readingBesideWrite : List (Label 2) := writeBesideRead.take 12

theorem drains_readingBesideWrite : ∃ server,
    run (serverStep .littleEndian (Factory.empty.addAll shippedAdds)) (.initial 2 ⟨[5, 6], 0⟩) readingBesideWrite =
      some server ∧ server.remaining = 41 ∧ Drains .littleEndian (Factory.empty.addAll shippedAdds) server := by
  obtain ⟨server, reached, left⟩ : ∃ server,
      run (serverStep .littleEndian (Factory.empty.addAll shippedAdds)) (.initial 2 ⟨[5, 6], 0⟩) readingBesideWrite =
        some server ∧ server.remaining = 41 := by decide
  refine ⟨server, reached, left, drains_of_run registered_shipped Nat.two_pos ?_ ?_ reached⟩
  · simp [readingBesideWrite, writeBesideRead, Label.Positive, AccessCall.Positive]
  · simp [readingBesideWrite, writeBesideRead, Label.Nonnegative, firstByteWrite, twoByteRead]

theorem answersAll_readingBesideWrite : ∃ server,
    run (serverStep .littleEndian (Factory.empty.addAll shippedAdds)) (.initial 2 ⟨[5, 6], 0⟩) readingBesideWrite =
      some server ∧ AnswersAll .littleEndian (Factory.empty.addAll shippedAdds) server := by
  obtain ⟨server, reached⟩ : ∃ server,
      run (serverStep .littleEndian (Factory.empty.addAll shippedAdds)) (.initial 2 ⟨[5, 6], 0⟩) readingBesideWrite =
        some server := Option.isSome_iff_exists.mp (by decide)
  refine ⟨server, reached, answersAll_of_seeksAlone registered_shipped Nat.two_pos ?_ ?_ (by decide) reached⟩
  · simp [readingBesideWrite, writeBesideRead, Label.Positive, AccessCall.Positive]
  · simp only [readingBesideWrite, writeBesideRead, List.take, List.forall_mem_cons, Label.InRange, List.not_mem_nil,
      false_implies, implies_true, and_true, true_and]
    exact ⟨⟨by decide, by decide, by decide⟩, ⟨by decide, by decide, by decide⟩⟩

end DistributedNas.Engine
