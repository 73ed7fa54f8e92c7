import DistributedNas.Storage.Honesty
import Mathlib.Combinatorics.Enumerative.Composition

/-
This file proves that `MemoryFile` is a sequential byte store when its requests are executed one after another.
-/

namespace DistributedNas.Proxy
open Library Posix

/-- A write puts the bytes of its buffer, and a read puts nothing. -/
def NBDRWReq.written (request : NBDRWReq) : List UInt8 :=
  match request.access with
  | .read => []
  | .write => request.data

theorem NBDRWReq.length_written_le (request : NBDRWReq) : request.written.length ≤ request.length := by
  unfold written
  split <;> simp

end DistributedNas.Proxy

namespace DistributedNas.Storage
open Library Posix Proxy

/-- A request is executed with transfers of at least one byte each that sum to its length. -/
structure Execution where
  request : NBDRWReq
  transfers : Composition request.length

/-- The seek succeeds, and each transfer moves its number of bytes. -/
def Execution.calls (execution : Execution) : List AccessCall :=
  accessCalls true (execution.transfers.blocks.map Nat.cast)

/-- Each request starts when the one before it has returned, at the file position that was left. -/
def executeAll (file : OpenFile) : List Execution → Option (List AccessState)
  | [] => some []
  | execution :: rest =>
      (run (accessStep execution.request.access) ⟨file, execution.request, .seek⟩ execution.calls).bind fun after =>
        if after.pc.returned then (executeAll after.file rest).map (after :: ·) else none

/-- A write replaces the bytes of its range and no others, and a read fills its buffer and changes nothing else. -/
def Access.Correct (access : Access) (request : NBDRWReq) (before : List UInt8) (after : AccessState) : Prop :=
  match access with
  | .write => ∀ place : Nat, after.file.bytes[place]? =
      if request.start ≤ place ∧ place < request.start + request.length then request.data[place - request.start]?
      else before[place]?
  | .read => after.file.bytes = before ∧ after.request.data = slice before request.start request.length ∧
      ∀ place : Int, place < 0 ∨ request.length ≤ place → after.request.mData place = request.mData place

/-- Each request acts on the content that the requests before it left. -/
def Sequential : List UInt8 → List NBDRWReq → List AccessState → Prop
  | _, [], [] => True
  | content, request :: rest, after :: later =>
      request.access.Correct request content after ∧ Sequential after.file.bytes rest later
  | _, _, _ => False

/-- A byte of the file is the one of the last write that covers its place, or it is the initial one. -/
def lastWritten (content : List UInt8) (requests : List NBDRWReq) (place : Nat) : Option UInt8 :=
  (lastCovering NBDRWReq.start NBDRWReq.written requests place).elim content[place]? fun request =>
    request.written[place - request.start]?

section
variable {access : Access} {content : List UInt8} {state next : AccessState} {moved : Nat}

/-- A transfer inside the range of an operation is possible and moves its bytes. -/
theorem Progress.exists_transfer (progress : Progress access content state moved)
    (inside : state.request.start + state.request.length ≤ content.length) {block : Nat} (positive : 1 ≤ block)
    (fits : moved + block ≤ state.request.length) :
    ∃ next, accessStep access state (.transfer block) = some next ∧ Progress access content next (moved + block) := by
  obtain ⟨next, stepped⟩ : ∃ next, accessStep access state (.transfer block) = some next := by
    obtain ⟨pc, within, position, bytes⟩ := progress
    have remains : state.request.length - moved ≠ 0 := by omega
    cases access with
    | read =>
        have possible : ReadResult (state.file.bytes.length - state.file.position) (state.request.length - moved)
            block := by
          right
          left
          rw [bytes.1, position]
          omega
        simp only [accessStep, pc, readIteration, if_pos (And.intro remains possible), Option.map_some]
        exact ⟨_, rfl⟩
    | write =>
        have possible : WriteResult (state.request.length - moved) block := by
          right
          omega
        simp only [accessStep, pc, writeIteration, if_pos (And.intro remains possible), Option.map_some]
        exact ⟨_, rfl⟩
  obtain ⟨count, same, -, later⟩ := progress.transfer (by omega) stepped
  obtain rfl : block = count := by omega
  exact ⟨next, stepped, later⟩

/-- A transfer changes no byte outside the buffer of the request. -/
theorem Progress.outside (progress : Progress access content state moved) {result : Int} (positive : 1 ≤ result)
    (stepped : accessStep access state (.transfer result) = some next) {place : Int}
    (outside : place < 0 ∨ state.request.length ≤ place) :
    next.request.mData place = state.request.mData place := by
  cases access with
  | write => rw [accessStep_write_request stepped]
  | read =>
      have small := state.request.length_lt
      obtain ⟨pc, within, -⟩ := progress
      simp only [accessStep, pc] at stepped
      obtain ⟨⟨file, memory, rest⟩, iterated, rfl⟩ := Option.map_eq_some_iff.mp stepped
      obtain ⟨count, -, -, fits, available, -, rfl, -⟩ :=
        readIteration_success (by simp only; omega) positive iterated
      simp only at fits
      have width := length_slice_of_le available
      apply Buffer.store_apply_outside
      show place < moved ∨ (moved : Int) + _ ≤ place
      omega

/-- The transfers of a composition of the rest complete the operation. -/
theorem Progress.exists_run (progress : Progress access content state moved)
    (inside : state.request.start + state.request.length ≤ content.length) {blocks : List Nat}
    (positive : ∀ block ∈ blocks, 1 ≤ block) (total : moved + blocks.sum = state.request.length) :
    ∃ final, run (accessStep access) state ((blocks.map Nat.cast).map .transfer) = some final ∧
      Progress access content final state.request.length ∧
      ∀ place : Int, place < 0 ∨ state.request.length ≤ place →
        final.request.mData place = state.request.mData place := by
  induction blocks generalizing state moved with
  | nil =>
      obtain rfl : moved = state.request.length := by simpa using total
      exact ⟨state, rfl, progress, fun _ _ => rfl⟩
  | cons block rest ih =>
      obtain ⟨first, later⟩ := List.forall_mem_cons.mp positive
      rw [List.sum_cons] at total
      obtain ⟨next, stepped, moves⟩ := progress.exists_transfer inside first (by omega)
      obtain ⟨start, length⟩ := accessStep_range stepped
      obtain ⟨final, reached, complete, kept⟩ := ih moves (by rwa [start, length]) later (by omega)
      rw [length] at complete kept
      refine ⟨final, ?_, complete, fun place outside => ?_⟩
      · rw [List.map_cons, List.map_cons, run_cons, stepped, Option.bind_some, reached]
      · rw [kept place outside, progress.outside (by omega) stepped outside]

end

section
variable {content : List UInt8} {request : NBDRWReq} {after : AccessState}

/-- An operation that moved its whole range and nothing else is correct. -/
theorem Access.Moved.correct {access : Access} (payload : access = .write → after.request = request)
    (moved : access.Moved content request.start after.file after.request.mData request.length)
    (length : after.request.length = request.length)
    (kept : ∀ place : Int, place < 0 ∨ request.length ≤ place → after.request.mData place = request.mData place)
    (inside : request.start ≤ content.length) : access.Correct request content after := by
  obtain ⟨-, bytes⟩ := moved
  cases access with
  | read =>
      refine ⟨bytes.1, ?_, kept⟩
      rw [NBDRWReq.data, length, bytes.2]
  | write =>
      intro place
      simp only [payload rfl] at bytes
      rw [bytes, getElem?_overwrite_of_le 0 inside, Buffer.length_load, NBDRWReq.data]

/-- Each execution inside the file returns, and its effect is the correct one. -/
theorem exists_execution (file : OpenFile) (execution : Execution)
    (range : execution.request.InRange file.bytes.length) :
    ∃ after, run (accessStep execution.request.access) ⟨file, execution.request, .seek⟩ execution.calls = some after ∧
      after.pc.returned ∧ execution.request.access.Correct execution.request file.bytes after := by
  obtain ⟨request, transfers⟩ := execution
  obtain ⟨size, offset, inside⟩ := range
  obtain ⟨seeked, sought⟩ : ∃ seeked, accessStep request.access ⟨file, request, .seek⟩ (.lseek true) = some seeked :=
    ⟨_, rfl⟩
  obtain ⟨same, progress⟩ := progress_seek sought rfl size offset rfl
  simp only at same
  obtain ⟨after, reached, complete, kept⟩ := progress.exists_run (by rwa [same]) (fun _ => transfers.blocks_pos)
    (by rw [same, Nat.zero_add, transfers.blocks_sum])
  rw [same] at complete kept
  have whole : run (accessStep request.access) ⟨file, request, .seek⟩ (Execution.calls ⟨request, transfers⟩) =
      some after := by
    rw [Execution.calls, accessCalls, run_cons, sought, Option.bind_some, reached]
  obtain ⟨-, length⟩ := accessRun_range whole
  simp only at length
  have returned : after.pc.returned := by
    rw [complete.pc, length, Nat.sub_self]
    rfl
  have positive : ∀ result ∈ transfers.blocks.map (Nat.cast : Nat → Int), 1 ≤ result := by
    intro result member
    obtain ⟨block, inside, rfl⟩ := List.mem_map.mp member
    have := transfers.blocks_pos inside
    omega
  obtain ⟨moved, payload⟩ := accessRun_moved size offset (positive_accessCalls positive) whole returned
  exact ⟨after, whole, returned, moved.correct payload length kept (by omega)⟩

/-- Each complete run from a place in the range is made of transfers that sum to the rest. -/
theorem Progress.blocks_of_run {access : Access} {state final : AccessState} {moved : Nat}
    (progress : Progress access content state moved) {calls : List AccessCall}
    (positive : ∀ call ∈ calls, call.Positive) (reached : run (accessStep access) state calls = some final)
    (returned : final.pc.returned) :
    ∃ blocks : List Nat, (∀ block ∈ blocks, 0 < block) ∧ moved + blocks.sum = state.request.length ∧
      calls = (blocks.map Nat.cast).map .transfer := by
  induction calls generalizing state moved with
  | nil =>
      obtain rfl := Option.some.inj reached
      obtain ⟨pc, within, -⟩ := progress
      rw [pc, AccessPc.returned, beq_iff_eq] at returned
      simp only at returned
      exact ⟨[], by simp, by rw [List.sum_nil]; omega, rfl⟩
  | cons call rest ih =>
      obtain ⟨next, stepped, continued⟩ := run_cons_eq_some.mp reached
      obtain ⟨first, later⟩ := List.forall_mem_cons.mp positive
      cases call with
      | lseek succeeds => simp [accessStep, progress.pc] at stepped
      | transfer result =>
          obtain ⟨block, rfl, one, moves⟩ := progress.transfer first stepped
          obtain ⟨-, length⟩ := accessStep_range stepped
          obtain ⟨blocks, all, total, rfl⟩ := ih moves later continued
          refine ⟨block :: blocks, List.forall_mem_cons.mpr ⟨one, all⟩, ?_, rfl⟩
          rw [List.sum_cons]
          omega

/-- Each complete run of successful calls is the execution of its request with some transfers. -/
theorem exists_transfers (file : OpenFile) {access : Access} (size : 0 ≤ request.mSize.toInt)
    (offset : 0 ≤ request.mOffset.toInt) {calls : List AccessCall} (positive : ∀ call ∈ calls, call.Positive)
    (reached : run (accessStep access) ⟨file, request, .seek⟩ calls = some after)
    (returned : after.pc.returned) :
    ∃ transfers : Composition request.length, calls = Execution.calls ⟨request, transfers⟩ := by
  cases calls with
  | nil =>
      obtain rfl := Option.some.inj reached
      cases returned
  | cons call rest =>
      obtain ⟨next, stepped, continued⟩ := run_cons_eq_some.mp reached
      obtain ⟨first, later⟩ := List.forall_mem_cons.mp positive
      cases call with
      | transfer result => simp [accessStep] at stepped
      | lseek succeeds =>
          obtain rfl : succeeds = true := first
          obtain ⟨same, progress⟩ := progress_seek stepped rfl size offset rfl
          obtain ⟨blocks, all, total, rfl⟩ := progress.blocks_of_run later continued returned
          rw [same, Nat.zero_add] at total
          exact ⟨⟨blocks, fun {block} => all block, total⟩, rfl⟩

/-- A correct operation overwrites the content with what its request writes. -/
theorem Access.Correct.bytes (range : request.start + request.length ≤ content.length)
    (correct : request.access.Correct request content after) :
    after.file.bytes = overwrite 0 content request.start request.written := by
  unfold NBDRWReq.written
  cases access : request.access with
  | read =>
      rw [access] at correct
      rw [overwrite_nil]
      exact correct.1
  | write =>
      rw [access] at correct
      apply List.ext_getElem?
      intro place
      rw [correct place, getElem?_overwrite_of_le 0 (by omega), NBDRWReq.length_data]

/-- A correct operation keeps the size of the file. -/
theorem Access.Correct.length (range : request.start + request.length ≤ content.length)
    (correct : request.access.Correct request content after) : after.file.bytes.length = content.length := by
  have written := request.length_written_le
  rw [correct.bytes range, length_overwrite_of_le 0 (by omega)]

end

/-- All executions inside the file return, and each one acts on what the ones before it left. -/
theorem exists_executeAll (file : OpenFile) {executions : List Execution}
    (range : ∀ execution ∈ executions, execution.request.InRange file.bytes.length) :
    ∃ results, executeAll file executions = some results ∧
      Sequential file.bytes (executions.map Execution.request) results := by
  induction executions generalizing file with
  | nil => exact ⟨[], rfl, trivial⟩
  | cons execution rest ih =>
      obtain ⟨first, later⟩ := List.forall_mem_cons.mp range
      obtain ⟨after, reached, returned, correct⟩ := exists_execution file execution first
      obtain ⟨results, executed, sequential⟩ := ih after.file (by rwa [correct.length first.inside])
      refine ⟨after :: results, ?_, correct, sequential⟩
      rw [executeAll, reached, Option.bind_some, if_pos returned, executed]
      rfl

/-- Each request acts on the content that holds, at each place, what was written there last. -/
theorem Sequential.content {content : List UInt8} {requests : List NBDRWReq} {results : List AccessState}
    (sequential : Sequential content requests results)
    (range : ∀ request ∈ requests, request.start + request.length ≤ content.length) {index : Nat}
    {request : NBDRWReq} {after : AccessState} (issued : requests[index]? = some request)
    (finished : results[index]? = some after) :
    request.access.Correct request
      ((requests.take index).foldl (fun bytes earlier => overwrite 0 bytes earlier.start earlier.written) content)
      after := by
  induction requests generalizing content results index with
  | nil => cases issued
  | cons first rest ih =>
      match results, sequential with
      | performed :: later, ⟨correct, remaining⟩ =>
          cases index with
          | zero =>
              obtain rfl := Option.some.inj issued
              obtain rfl := Option.some.inj finished
              exact correct
          | succ index =>
              obtain ⟨inside, others⟩ := List.forall_mem_cons.mp range
              have acts := ih remaining (by rwa [correct.length inside]) issued finished
              rwa [correct.bytes inside] at acts

/-- Each read finds at each byte of its range what was written there last. -/
theorem Sequential.read_lastWritten {content : List UInt8} {requests : List NBDRWReq} {results : List AccessState}
    (sequential : Sequential content requests results)
    (range : ∀ request ∈ requests, request.start + request.length ≤ content.length) {index : Nat}
    {request : NBDRWReq} {after : AccessState} (issued : requests[index]? = some request)
    (finished : results[index]? = some after) (reads : request.access = .read) {byte : Nat}
    (inside : byte < request.length) :
    after.request.data[byte]? = lastWritten content (requests.take index) (request.start + byte) := by
  have correct := sequential.content range issued finished
  rw [reads] at correct
  obtain ⟨-, filled, -⟩ := correct
  rw [filled, getElem?_slice, if_pos inside]
  apply getElem?_foldl_overwrite
  intro earlier member
  have bounded := range earlier (List.mem_of_mem_take member)
  have written := earlier.length_written_le
  omega

/-- The memory file executes each list of requests as a sequential byte store does. -/
theorem memoryFile_sequential (file : OpenFile) (executions : List Execution)
    (range : ∀ execution ∈ executions, execution.request.InRange file.bytes.length) :
    ∃ results, executeAll file executions = some results ∧
      Sequential file.bytes (executions.map Execution.request) results ∧
      ∀ (index : Nat) (request : NBDRWReq) (after : AccessState),
        (executions.map Execution.request)[index]? = some request → results[index]? = some after →
          request.access = .read → ∀ byte < request.length,
            after.request.data[byte]? =
              lastWritten file.bytes ((executions.map Execution.request).take index) (request.start + byte) := by
  obtain ⟨results, executed, sequential⟩ := exists_executeAll file range
  refine ⟨results, executed, sequential, ?_⟩
  intro index request after issued finished reads byte inside
  apply sequential.read_lastWritten _ issued finished reads inside
  intro request member
  obtain ⟨execution, listed, rfl⟩ := List.mem_map.mp member
  exact (range execution listed).inside

/-- This write puts two bytes at the second place. -/
def twoByteWrite : NBDRWReq where
  mType := 1
  mSize := 2
  mOffset := 1
  mHandle := Vector.replicate 8 0
  mData := .ofBytes [8, 9]

/-- This read asks for three bytes from the start. -/
def threeByteRead : NBDRWReq where
  mType := 0
  mSize := 3
  mOffset := 0
  mHandle := Vector.replicate 8 0
  mData := fun _ => 0

/-- The write is cut into single bytes, and the read of the written part is cut after its second byte. -/
def writeThenRead : List Execution :=
  [⟨twoByteWrite, [1, 1], by decide, rfl⟩, ⟨threeByteRead, [2, 1], by decide, rfl⟩]

/-- The read after the write is executed from any position of the descriptor. -/
theorem writeThenRead_sequential : ∃ results, executeAll ⟨[1, 2, 3, 4], 7⟩ writeThenRead = some results ∧
    Sequential [1, 2, 3, 4] (writeThenRead.map Execution.request) results ∧
      ∀ (index : Nat) (request : NBDRWReq) (after : AccessState),
        (writeThenRead.map Execution.request)[index]? = some request → results[index]? = some after →
          request.access = .read → ∀ byte < request.length,
            after.request.data[byte]? = lastWritten [1, 2, 3, 4]
              ((writeThenRead.map Execution.request).take index) (request.start + byte) := by
  apply memoryFile_sequential ⟨[1, 2, 3, 4], 7⟩ writeThenRead
  intro execution member
  rcases List.mem_pair.mp member with rfl | rfl
  · exact ⟨by decide, by decide, by decide⟩
  · exact ⟨by decide, by decide, by decide⟩

/-- The read returns the two written bytes after the initial first byte. -/
example : (executeAll ⟨[1, 2, 3, 4], 7⟩ writeThenRead).map (fun results => results.map fun after =>
    after.request.data) = some [[8, 9], [1, 8, 9]] := by decide

end DistributedNas.Storage
