import DistributedNas.Library.Heap
import DistributedNas.Engine.Isolation

/-
This file follows each request object, its data, and the handler of its task from allocation to the end of `Done`.
-/

namespace DistributedNas.Engine
open Library Posix Proxy Storage
open scoped BigOperators

/-- The proxy allocates the data and the request, and the factory allocates the handler. -/
inductive Block where
  | data (id : Nat)
  | request (id : Nat)
  | command (id : Nat)
  deriving DecidableEq, Repr

/-- These are the accesses to dynamic memory of one step; `Done` frees the request, and nothing frees the handler. -/
def heapEvents {count : Nat} (server : Server count) : Label count → List (HeapEvent Block)
  | .receive _ => [.new (.data server.history.length), .new (.request server.history.length)]
  | .enqueue => []
  | .work worker _ =>
      match server.workers worker with
      | .dequeue => []
      | .create task => [.use (.request task.id), .new (.command task.id), .use (.command task.id)]
      | .access _ task .seek => [.use (.request task.id)]
      | .access _ task (.loop window) => if window.count = 0 then [] else [.use (.data task.id)]
      | .done task .enter | .done task (.header _) => [.use (.request task.id)]
      | .done task (.payload _) => [.use (.data task.id)]
      | .done task .leave => [.use (.request task.id), .delete (.data task.id), .delete (.request task.id)]
      | .done _ .returned => []

/-- A worker refers to the request of its task until `Done` returns. -/
def Worker.holding : Worker → Option Task
  | .dequeue => none
  | .create task => some task
  | .access _ task _ => some task
  | .done task _ => some task

/-- This task of a worker has no handler yet. -/
def Worker.creating : Worker → Option Task
  | .create task => some task
  | _ => none

/-- These are the identities of some tasks. -/
def ids (tasks : List Task) : Multiset Nat := (tasks.map Task.id : List Nat)

@[simp] theorem ids_nil : ids [] = 0 := rfl

@[simp] theorem ids_cons (task : Task) (tasks : List Task) : ids (task :: tasks) = {task.id} + ids tasks := by
  simp [ids, Multiset.singleton_add]

@[simp] theorem ids_none : ids (none : Option Task).toList = 0 := rfl

@[simp] theorem ids_some (task : Task) : ids (some task).toList = {task.id} := rfl

theorem ids_perm {first second : List Task} (perm : first.Perm second) : ids first = ids second :=
  Multiset.coe_eq_coe.mpr (perm.map Task.id)

/-- These identities are selected, queued, or in this part of a worker. -/
def Server.placed {count : Nat} (part : Worker → Option Task) (server : Server count) : Multiset Nat :=
  ids server.selectThread.toList + ids server.mWq + ∑ worker, ids (part (server.workers worker)).toList

/-- A request is in memory from its reception until its reply, and a handler from its creation on. -/
structure Owned {count : Nat} (server : Server count) (live : Finset Block) : Prop where
  distinct : (server.placed Worker.holding).Nodup
  known : ∀ id ∈ server.placed Worker.holding, id ∈ (tasksAt .received server.history).map Task.id
  data : ∀ id, .data id ∈ live ↔ id ∈ server.placed Worker.holding
  request : ∀ id, .request id ∈ live ↔ id ∈ server.placed Worker.holding
  command : ∀ id, .command id ∈ live ↔
    id ∈ (tasksAt .received server.history).map Task.id ∧ id ∉ server.placed Worker.creating
  received : ∀ id ∈ (tasksAt .received server.history).map Task.id, id < server.history.length

section
variable {host : Endian} {factory : Factory Int32 Handler} {count : Nat} {server next : Server count}
  {label : Label count} {live : Finset Block}

/-- The handler of a waiting request is created by its worker, which holds the request. -/
theorem placed_creating_le (server : Server count) :
    server.placed Worker.creating ≤ server.placed Worker.holding := by
  apply add_le_add_right
  apply Finset.sum_le_sum
  intro worker _
  cases server.workers worker with
  | create task => exact le_refl _
  | _ => exact Multiset.zero_le _

/-- A change of one worker and of the queue changes their own parts. -/
theorem placed_update (part : Worker → Option Task) {worker : Fin count} {after : Worker}
    (selected : next.selectThread = server.selectThread)
    (workers : next.workers = Function.update server.workers worker after) :
    next.placed part + (ids server.mWq + ids (part (server.workers worker)).toList) =
      server.placed part + (ids next.mWq + ids (part after).toList) := by
  have moved := sum_update (fun state : Worker => ids (part state).toList) server.workers worker after
  simp only [Server.placed, selected, workers]
  calc
    _ = ids server.selectThread.toList + ids server.mWq + ids next.mWq +
        ((∑ other, ids (part (Function.update server.workers worker after other)).toList) +
          ids (part (server.workers worker)).toList) := by abel
    _ = _ := by rw [moved]; abel

/-- A change of one worker alone changes its own part. -/
theorem placed_worker (part : Worker → Option Task) {worker : Fin count} {after : Worker}
    (selected : next.selectThread = server.selectThread) (queued : next.mWq = server.mWq)
    (workers : next.workers = Function.update server.workers worker after) :
    next.placed part + ids (part (server.workers worker)).toList = server.placed part + ids (part after).toList := by
  have moved := placed_update part selected workers
  rw [queued] at moved
  apply add_left_cancel (a := ids server.mWq)
  rw [add_left_comm, moved, add_left_comm]

/-- A worker that keeps its part keeps the placed identities. -/
theorem placed_same (part : Worker → Option Task) {worker : Fin count} {after : Worker}
    (selected : next.selectThread = server.selectThread) (queued : next.mWq = server.mWq)
    (workers : next.workers = Function.update server.workers worker after)
    (same : ids (part after).toList = ids (part (server.workers worker)).toList) :
    next.placed part = server.placed part := by
  have moved := placed_worker part selected queued workers
  rw [same] at moved
  exact add_right_cancel moved

/-- The task of a worker is placed there. -/
theorem mem_placed {part : Worker → Option Task} {worker : Fin count} {task : Task}
    (here : part (server.workers worker) = some task) : task.id ∈ server.placed part := by
  apply Multiset.mem_add.mpr
  right
  rw [Finset.sum_eq_multiset_sum]
  apply Multiset.mem_sum.mpr
  exact ⟨worker, Finset.mem_univ worker, by simp [here, ids]⟩

theorem owned_initial (count : Nat) (file : OpenFile) : Owned (.initial count file) ∅ := by
  have nothing (part : Worker → Option Task) (idle : part .dequeue = none) :
      (Server.initial count file).placed part = 0 := by
    simp [Server.placed, Server.initial, idle]
  have noneHeld := nothing Worker.holding rfl
  have noneReceived : tasksAt .received (Server.initial count file).history = [] := rfl
  constructor <;> simp [noneHeld, noneReceived]

/-- A held identity was given before. -/
theorem Owned.fresh (owned : Owned server live) {id : Nat} (held : id ∈ server.placed Worker.holding) :
    id < server.history.length :=
  owned.received id (owned.known id held)

/-- A step that moves no request and creates no handler keeps each block with its owner. -/
theorem Owned.keep (owned : Owned server live) (holding : next.placed Worker.holding = server.placed Worker.holding)
    (creating : next.placed Worker.creating = server.placed Worker.creating)
    (received : tasksAt .received next.history = tasksAt .received server.history)
    (longer : server.history.length ≤ next.history.length) : Owned next live where
  distinct := holding ▸ owned.distinct
  known := by
    rw [holding, received]
    exact owned.known
  data := holding ▸ owned.data
  request := holding ▸ owned.request
  command := by
    rw [creating, received]
    exact owned.command
  received := by
    rw [received]
    exact fun id member => (owned.received id member).trans_le longer

/-- A worker that only uses its live blocks keeps each block with its owner. -/
theorem Owned.work (owned : Owned server live) {worker : Fin count} {after : Worker}
    (selected : next.selectThread = server.selectThread) (queued : next.mWq = server.mWq)
    (workers : next.workers = Function.update server.workers worker after)
    (holding : ids after.holding.toList = ids (server.workers worker).holding.toList)
    (creating : ids after.creating.toList = ids (server.workers worker).creating.toList)
    (received : tasksAt .received next.history = tasksAt .received server.history)
    (longer : server.history.length ≤ next.history.length) : Owned next live :=
  owned.keep (placed_same _ selected queued workers holding) (placed_same _ selected queued workers creating) received
    longer

/-- The select thread allocates the blocks of a new request under an identity that is not in use. -/
theorem Owned.receive (owned : Owned server live) (idle : server.selectThread = none) (request : NBDRWReq) :
    let task : Task := ⟨server.history.length, .low, request, request⟩
    ∃ after, run touch live (heapEvents server (.receive request)) = some after ∧
      Owned { server with selectThread := some task, history := server.history ++ [(.received, task)] } after := by
  intro task
  let next : Server count := { server with selectThread := some task, history := server.history ++ [(.received, task)] }
  have noData : Block.data server.history.length ∉ live := fun present =>
    absurd (owned.fresh ((owned.data _).mp present)) (lt_irrefl _)
  have noRequest : Block.request server.history.length ∉ insert (Block.data server.history.length) live := by
    rw [Finset.mem_insert, not_or]
    exact ⟨nofun, fun present => absurd (owned.fresh ((owned.request _).mp present)) (lt_irrefl _)⟩
  have placed (part : Worker → Option Task) : next.placed part = server.history.length ::ₘ server.placed part := by
    simp only [Server.placed, next, idle, Option.toList_some, Option.toList_none, ids_cons, ids_nil, add_zero,
      zero_add, ← Multiset.singleton_add, task]
    exact add_assoc _ _ _
  have longer : server.history.length < next.history.length := by simp [next]
  have known : (tasksAt .received next.history).map Task.id =
      (tasksAt .received server.history).map Task.id ++ [server.history.length] := by
    simp [next, task]
  refine ⟨insert (.request server.history.length) (insert (.data server.history.length) live), ?_, ?_⟩
  · simp only [heapEvents, run_cons, touch_new noData, Option.bind_some, touch_new noRequest, run_nil]
  · constructor
    · rw [placed, Multiset.nodup_cons]
      exact ⟨fun present => absurd (owned.fresh present) (lt_irrefl _), owned.distinct⟩
    · rw [placed, known]
      intro id member
      rcases Multiset.mem_cons.mp member with rfl | before
      · exact List.mem_append_right _ (List.mem_singleton_self _)
      · exact List.mem_append_left _ (owned.known id before)
    · intro id
      rw [placed, Multiset.mem_cons, ← owned.data]
      simp
    · intro id
      rw [placed, Multiset.mem_cons, ← owned.request]
      simp
    · intro id
      rw [placed, known, Multiset.mem_cons, List.mem_append, List.mem_singleton]
      have before := owned.command id
      simp only [Finset.mem_insert, reduceCtorEq, false_or, before]
      constructor
      · rintro ⟨present, absent⟩
        exact ⟨Or.inl present, not_or.mpr ⟨(owned.received id present).ne, absent⟩⟩
      · rintro ⟨present, absent⟩
        obtain ⟨other, absent⟩ := not_or.mp absent
        exact ⟨present.resolve_right other, absent⟩
    · rw [known]
      intro id member
      rcases List.mem_append.mp member with before | now
      · exact (owned.received id before).trans longer
      · exact List.mem_singleton.mp now ▸ longer

/-- A worker that looks up its task allocates the handler of the task once. -/
theorem Owned.create (owned : Owned server live) {worker : Fin count} {task : Task}
    (creating : server.workers worker = .create task) {after : Worker} (holding : after.holding = some task)
    (started : after.creating = none) :
    ∃ reached, run touch live (heapEvents server (.work worker .create)) = some reached ∧
      Owned { server with workers := Function.update server.workers worker after } reached := by
  let next : Server count := { server with workers := Function.update server.workers worker after }
  have here : (server.workers worker).holding = some task := by rw [creating]; rfl
  have waits : (server.workers worker).creating = some task := by rw [creating]; rfl
  have held : task.id ∈ server.placed Worker.holding := mem_placed here
  have present : Block.request task.id ∈ live := (owned.request _).mpr held
  have absent : Block.command task.id ∉ live := fun command =>
    ((owned.command _).mp command).2 (mem_placed waits)
  have same : next.placed Worker.holding = server.placed Worker.holding :=
    placed_same _ rfl rfl rfl (by rw [holding, here])
  have moved : next.placed Worker.creating + {task.id} = server.placed Worker.creating := by
    have total : next.placed Worker.creating + ids (server.workers worker).creating.toList =
        server.placed Worker.creating + ids after.creating.toList := placed_worker Worker.creating rfl rfl rfl
    rwa [waits, started, ids_some, ids_none, add_zero] at total
  have once : (next.placed Worker.creating + {task.id}).Nodup :=
    moved ▸ Multiset.nodup_of_le (placed_creating_le server) owned.distinct
  refine ⟨insert (.command task.id) live, ?_, ?_⟩
  · have used : Block.command task.id ∈ insert (Block.command task.id) live := Finset.mem_insert_self _ _
    simp only [heapEvents, creating, run_cons, touch_use present, Option.bind_some, touch_new absent, touch_use used,
      run_nil]
  · constructor
    · exact same ▸ owned.distinct
    · exact same ▸ owned.known
    · intro id
      rw [same, ← owned.data]
      simp
    · intro id
      rw [same, ← owned.request]
      simp
    · intro id
      have before := owned.command id
      rw [← moved, Multiset.mem_add, Multiset.mem_singleton] at before
      rw [Finset.mem_insert, before, Block.command.injEq]
      constructor
      · rintro (rfl | ⟨known, other⟩)
        · refine ⟨owned.known _ held, fun still => ?_⟩
          exact Multiset.disjoint_left.mp (Multiset.nodup_add.mp once).2.2 still (Multiset.mem_singleton_self _)
        · exact ⟨known, fun still => other (Or.inl still)⟩
      · rintro ⟨known, gone⟩
        by_cases now : id = task.id
        · exact Or.inl now
        · exact Or.inr ⟨known, not_or.mpr ⟨gone, now⟩⟩
    · exact owned.received

/-- A worker that leaves `Done` frees the data and the request of its task once. -/
theorem Owned.free (owned : Owned server live) {worker : Fin count} {task : Task} (call : DoneCall)
    (leaving : server.workers worker = .done task .leave)
    (workers : next.workers = Function.update server.workers worker .dequeue)
    (selected : next.selectThread = server.selectThread) (queued : next.mWq = server.mWq)
    (received : tasksAt .received next.history = tasksAt .received server.history)
    (longer : server.history.length ≤ next.history.length) :
    ∃ reached, run touch live (heapEvents server (.work worker (.done call))) = some reached ∧ Owned next reached := by
  have here : (server.workers worker).holding = some task := by rw [leaving]; rfl
  have held : task.id ∈ server.placed Worker.holding := mem_placed here
  have request : Block.request task.id ∈ live := (owned.request _).mpr held
  have data : Block.data task.id ∈ live := (owned.data _).mpr held
  have moved : next.placed Worker.holding + {task.id} = server.placed Worker.holding := by
    have total := placed_worker Worker.holding selected queued workers
    rwa [here, Worker.holding, ids_some, ids_none, add_zero] at total
  have creating : next.placed Worker.creating = server.placed Worker.creating :=
    placed_same _ selected queued workers (by rw [leaving]; rfl)
  have once : (next.placed Worker.holding + {task.id}).Nodup := moved ▸ owned.distinct
  have gone : task.id ∉ next.placed Worker.holding := fun still =>
    Multiset.disjoint_left.mp (Multiset.nodup_add.mp once).2.2 still (Multiset.mem_singleton_self _)
  have left (id : Nat) : id ∈ next.placed Worker.holding ↔ id ≠ task.id ∧ id ∈ server.placed Worker.holding := by
    rw [← moved, Multiset.mem_add, Multiset.mem_singleton]
    constructor
    · intro still
      exact ⟨fun same => gone (same ▸ still), Or.inl still⟩
    · rintro ⟨other, still | same⟩
      · exact still
      · exact absurd same other
  refine ⟨(live.erase (.data task.id)).erase (.request task.id), ?_, ?_⟩
  · have still : Block.request task.id ∈ live.erase (.data task.id) := Finset.mem_erase.mpr ⟨nofun, request⟩
    simp only [heapEvents, leaving, run_cons, touch_use request, Option.bind_some, touch_delete data,
      touch_delete still, run_nil]
  · constructor
    · exact (Multiset.nodup_add.mp once).1
    · intro id member
      rw [received]
      exact owned.known id ((left id).mp member).2
    · intro id
      rw [left, ← owned.data]
      simp
    · intro id
      rw [left, ← owned.request]
      simp
    · intro id
      rw [creating, received, ← owned.command]
      simp
    · rw [received]
      exact fun id member => (owned.received id member).trans_le longer

/-- Each step accesses only live blocks, and it keeps each block with its owner. -/
theorem Owned.step (registered : Registered factory) (valid : Valid server) (owned : Owned server live)
    (moves : Moves host factory server label next) :
    ∃ after, run touch live (heapEvents server label) = some after ∧ Owned next after := by
  have uses {worker : Fin count} {task : Task} (here : (server.workers worker).holding = some task) :
      Block.request task.id ∈ live ∧ Block.data task.id ∈ live :=
    ⟨(owned.request _).mpr (mem_placed here), (owned.data _).mpr (mem_placed here)⟩
  cases moves with
  | receive request idle type => exact owned.receive idle request
  | enqueue task selected =>
      have moved (part : Worker → Option Task) : Server.placed part { server with
          mWq := task :: server.mWq
          selectThread := none
          history := server.history ++ [(.enqueued, task)] } = server.placed part := by
        simp [Server.placed, selected]
      exact ⟨live, rfl, owned.keep (moved _) (moved _) (by simp) (by simp)⟩
  | dequeue worker place task rest waiting perm =>
      let next : Server count :=
        { server with mWq := rest, workers := Function.update server.workers worker (.create task) }
      have moved (part : Worker → Option Task) (idle : part .dequeue = none)
          (taken : part (.create task) = some task) : next.placed part = server.placed part := by
        have total : next.placed part + (ids server.mWq + ids (part (server.workers worker)).toList) =
            server.placed part + (ids rest + ids (part (.create task)).toList) := placed_update part rfl rfl
        rw [waiting, idle, taken, ids_perm perm, ids_cons, ids_some, ids_none, add_zero,
          add_comm {task.id} (ids rest)] at total
        exact add_right_cancel total
      have nothing : heapEvents server (.work worker (.dequeue place)) = [] := by simp only [heapEvents, waiting]
      rw [nothing]
      exact ⟨live, rfl, owned.keep (moved _ rfl rfl) (moved _ rfl rfl) rfl (le_refl _)⟩
  | create worker task handler creating found =>
      have started := (valid.creating creating).start registered found
      apply owned.create creating
      · rw [started]
        rfl
      · rw [started]
        rfl
  | access worker operation task pc call after running stepped =>
      have here : (server.workers worker).holding = some task := by rw [running]; rfl
      have idle : (server.workers worker).creating = none := by rw [running]; rfl
      refine ⟨live, ?_, owned.work rfl rfl rfl ?_ ?_ rfl (le_refl _)⟩
      · cases pc with
        | seek => simp only [heapEvents, running, run_cons, touch_use (uses here).1, Option.bind_some, run_nil]
        | loop window =>
            simp only [heapEvents, running]
            split
            · rfl
            · simp only [run_cons, touch_use (uses here).2, Option.bind_some, run_nil]
      · rw [here]
        simp [Worker.holding]
      · rw [idle]
        rfl
  | finish worker operation task pc running returned =>
      have here : (server.workers worker).holding = some task := by rw [running]; rfl
      have idle : (server.workers worker).creating = none := by rw [running]; rfl
      refine ⟨live, ?_, owned.work rfl rfl rfl ?_ ?_ (by simp) (by simp)⟩
      · cases pc with
        | seek => cases returned
        | loop window =>
            have empty : window.count = 0 := by simpa [AccessPc.returned] using returned
            simp only [heapEvents, running, empty, if_true, run_nil]
      · rw [here]
        rfl
      · rw [idle]
        rfl
  | done worker task pc call channel after answering stepped =>
      have here : (server.workers worker).holding = some task := by rw [answering]; rfl
      have idle : (server.workers worker).creating = none := by rw [answering]; rfl
      have ends := doneStep_returned_iff stepped
      by_cases leaving : pc = .leave
      · subst leaving
        obtain rfl := ends.mpr rfl
        exact owned.free call answering rfl rfl rfl (by simp) (by simp)
      · have stays : Worker.answering task after = .done task after :=
          if_neg fun returned => leaving (ends.mp returned)
        refine ⟨live, ?_, owned.work rfl rfl rfl ?_ ?_ (by simp) (by simp)⟩
        · cases pc with
          | enter => simp only [heapEvents, answering, run_cons, touch_use (uses here).1, Option.bind_some, run_nil]
          | header window =>
              simp only [heapEvents, answering, run_cons, touch_use (uses here).1, Option.bind_some, run_nil]
          | payload window =>
              simp only [heapEvents, answering, run_cons, touch_use (uses here).2, Option.bind_some, run_nil]
          | leave => exact absurd rfl leaving
          | returned => simp only [heapEvents, answering, run_nil]
        · rw [here, stays]
          rfl
        · rw [idle, stays]
          rfl

/-- No access of the run faults, only unanswered requests are in memory, and each handler stays there for ever. -/
structure HeapSafe (host : Endian) (factory : Factory Int32 Handler) (file : OpenFile) (labels : List (Label count))
    (server : Server count) (live : Finset Block) : Prop where
  tracked : run (tracked (serverStep host factory) heapEvents) (.initial count file, ∅) labels = some (server, live)
  owned : Owned server live
  quiescent : server.Quiescent →
    ∀ block, block ∈ live ↔ ∃ task ∈ tasksAt .received server.history, block = .command task.id

/-- The server with registered handlers never uses or frees a request twice, and it leaks each handler. -/
theorem heapSafe_run (registered : Registered factory) {file : OpenFile} {labels : List (Label count)}
    (reached : run (serverStep host factory) (.initial count file) labels = some server) :
    ∃ live, HeapSafe host factory file labels server live := by
  let Sound (state : Server count) (live : Finset Block) : Prop := Valid state ∧ Owned state live
  have safe (state : Server count) (live : Finset Block) (label : Label count) (next : Server count)
      (sound : Sound state live) (stepped : serverStep host factory state label = some next) :
      ∃ after, run touch live (heapEvents state label) = some after ∧ Sound next after := by
    have moves := moves_of_serverStep stepped
    obtain ⟨after, touched, owned⟩ := sound.2.step registered sound.1 moves
    exact ⟨after, touched, sound.1.step registered moves, owned⟩
  have start : Sound (.initial count file) ∅ := ⟨valid_initial count file, owned_initial count file⟩
  obtain ⟨live, ran, -, owned⟩ := exists_tracked_run safe start reached
  refine ⟨live, ran, owned, fun quiescent block => ?_⟩
  have empty (part : Worker → Option Task) (idle : part .dequeue = none) : server.placed part = 0 := by
    simp [Server.placed, quiescent.selected, quiescent.queue, quiescent.workers, idle]
  cases block with
  | data id =>
      rw [owned.data, empty Worker.holding rfl]
      simp
  | request id =>
      rw [owned.request, empty Worker.holding rfl]
      simp
  | command id =>
      rw [owned.command, empty Worker.creating rfl]
      simp [eq_comm]

end

/-- Two workers side by side use the memory of both requests safely. -/
theorem heapSafe_writeBesideRead :
    ∃ server live, HeapSafe .littleEndian (Factory.empty.addAll shippedAdds) ⟨[5, 6], 0⟩ writeBesideRead server live := by
  obtain ⟨server, reached⟩ := Option.isSome_iff_exists.mp
    (by decide : (run (serverStep .littleEndian (Factory.empty.addAll shippedAdds)) (.initial 2 ⟨[5, 6], 0⟩)
      writeBesideRead).isSome)
  exact ⟨server, heapSafe_run registered_shipped reached⟩

end DistributedNas.Engine
