import DistributedNas.Proxy.Done

/-
This file models `MemoryFile::read` and `MemoryFile::write` at the granularity of single system calls.
-/

namespace DistributedNas.Storage
open Library Posix Proxy

/-- A handler calls one of the two operations of the memory file. -/
inductive Access where
  | read
  | write
  deriving DecidableEq, Repr

/-- An operation first seeks and then runs its transfer loop. -/
inductive AccessPc where
  | seek
  | loop (window : Window)
  deriving DecidableEq, Repr

/-- These are the system calls on the backing descriptor with their outcomes. -/
inductive AccessCall where
  | lseek (succeeds : Bool)
  | transfer (result : Int)
  deriving DecidableEq, Repr

/-- An operation works on the shared file and on its own request. -/
structure AccessState where
  file : OpenFile
  request : NBDRWReq
  pc : AccessPc

/-- This is one system call of `MemoryFile::read` or `MemoryFile::write`. -/
def accessStep (access : Access) (state : AccessState) (call : AccessCall) : Option AccessState :=
  match state.pc, call with
  | .seek, .lseek succeeds =>
      some { state with
        file := state.file.lseek state.request.mOffset.toInt succeeds
        pc := .loop (.whole (toSizeT state.request.mSize.toInt)) }
  | .loop window, .transfer result =>
      match access with
      | .read =>
          (readIteration state.file state.request.mData window result).map fun moved =>
            ⟨moved.1, { state.request with mData := moved.2.1 }, .loop moved.2.2⟩
      | .write =>
          (writeIteration state.file state.request.mData window result).map fun moved =>
            { state with file := moved.1, pc := .loop moved.2 }
  | _, _ => none

/-- The operation returns when its loop has nothing left to transfer. -/
def AccessPc.returned : AccessPc → Bool
  | .seek => false
  | .loop window => window.count == 0

/-- The seek succeeds, and each transfer moves at least one byte. -/
def AccessCall.Positive : AccessCall → Prop
  | .lseek succeeds => succeeds = true
  | .transfer result => 1 ≤ result

end DistributedNas.Storage

namespace DistributedNas.Proxy
open Library Posix Storage

/-- The handler registered for the type of a request calls this operation. -/
def NBDRWReq.access (request : NBDRWReq) : Storage.Access :=
  if request.sendsData then .read else .write

/-- A request asks for this many bytes. -/
def NBDRWReq.length (request : NBDRWReq) : Nat := request.mSize.toInt.toNat

/-- A request asks for bytes from this place of the file on. -/
def NBDRWReq.start (request : NBDRWReq) : Nat := request.mOffset.toInt.toNat

/-- These are the bytes in the request's own buffer. -/
def NBDRWReq.data (request : NBDRWReq) : List UInt8 := request.mData.load 0 request.length

@[simp] theorem NBDRWReq.length_data (request : NBDRWReq) : request.data.length = request.length := by
  simp [data]

/-- The range of a request has no negative bound and lies inside a file of the given size. -/
structure NBDRWReq.InRange (request : NBDRWReq) (fileSize : Nat) : Prop where
  size : 0 ≤ request.mSize.toInt
  offset : 0 ≤ request.mOffset.toInt
  inside : request.start + request.length ≤ fileSize

theorem NBDRWReq.length_lt (request : NBDRWReq) : request.length < 2 ^ 31 := by
  have := request.mSize.toInt_lt
  unfold length
  omega

/-- The loop of an in-range request starts with its whole length. -/
theorem NBDRWReq.toSizeT_mSize {request : NBDRWReq} (size : 0 ≤ request.mSize.toInt) :
    toSizeT request.mSize.toInt = request.length := by
  have := request.mSize.toInt_lt
  exact toSizeT_of_fits size (by omega)

end DistributedNas.Proxy

namespace DistributedNas.Storage
open Library Posix Proxy

/-- An atomic operation on the content of the backing file either reads or replaces a range. -/
def Access.perform (access : Access) (content : List UInt8) (request : NBDRWReq) : List UInt8 :=
  match access with
  | .read => content
  | .write => overwrite 0 content request.start request.data

/-- An atomic read leaves exactly the range's bytes in the buffer. -/
def Access.Answers (access : Access) (content : List UInt8) (request : NBDRWReq) : Prop :=
  match access with
  | .read => request.data = slice content request.start request.length
  | .write => True

instance (access : Access) (content : List UInt8) (request : NBDRWReq) :
    Decidable (access.Answers content request) :=
  match access with
  | .read => inferInstanceAs (Decidable (_ = _))
  | .write => inferInstanceAs (Decidable True)

/-- The first bytes of a range were moved between the file and the buffer, and nothing else was. -/
def Access.Moved (access : Access) (content : List UInt8) (start : Nat) (file : OpenFile)
    (memory : Buffer) (moved : Nat) : Prop :=
  file.position = start + moved ∧
    match access with
    | .read => file.bytes = content ∧ memory.load 0 moved = slice content start moved
    | .write => file.bytes = overwrite 0 content start (memory.load 0 moved)

section
variable {content : List UInt8} {start : Nat} {file : OpenFile} {memory : Buffer} {moved : Nat}

theorem moved_zero (access : Access) (position : file.position = start) (bytes : file.bytes = content) :
    access.Moved content start file memory 0 := by
  refine ⟨position, ?_⟩
  cases access <;> simp [bytes]

/-- A read of the next bytes extends the moved part. -/
theorem Access.Moved.read (before : Access.read.Moved content start file memory moved) {count : Nat}
    (available : file.position + count ≤ file.bytes.length) :
    Access.read.Moved content start ⟨file.bytes, file.position + count⟩
      (memory.store moved (slice file.bytes file.position count)) (moved + count) := by
  obtain ⟨position, same, loaded⟩ := before
  refine ⟨by simp only [position, Nat.add_assoc], same, ?_⟩
  have width := length_slice_of_le available
  have received := Buffer.load_store memory moved (slice file.bytes file.position count)
  rw [width] at received
  rw [Buffer.load_add, zero_add, received, Buffer.load_store_before _ _ _ _ _ (by simp), loaded, slice_add,
    same, position]

/-- A write of the next bytes extends the moved part. -/
theorem Access.Moved.write (before : Access.write.Moved content start file memory moved) (count : Nat) :
    Access.write.Moved content start (file.writeBytes (memory.load moved count)) memory (moved + count) := by
  obtain ⟨position, written⟩ := before
  refine ⟨by simp [OpenFile.writeBytes, position, Nat.add_assoc], ?_⟩
  have adjacent := overwrite_adjacent 0 content start (memory.load 0 moved) (memory.load moved count)
  rw [Buffer.length_load] at adjacent
  simp only [OpenFile.writeBytes, written, position]
  rw [adjacent, Buffer.load_add, zero_add]

end

/-- An operation in progress has moved the first bytes of its range. -/
structure Progress (access : Access) (content : List UInt8) (state : AccessState) (moved : Nat) : Prop where
  pc : state.pc = .loop ⟨moved, state.request.length - moved⟩
  within : moved ≤ state.request.length
  moved : access.Moved content state.request.start state.file state.request.mData moved

section
variable {access : Access} {content : List UInt8} {state next : AccessState} {moved : Nat}

/-- A step never changes the fields of the request other than its buffer. -/
theorem accessStep_request {call : AccessCall} (stepped : accessStep access state call = some next) :
    ∃ memory, next.request = { state.request with mData := memory } := by
  unfold accessStep at stepped
  split at stepped
  · obtain rfl := Option.some.inj stepped
    exact ⟨_, rfl⟩
  · split at stepped
    · obtain ⟨_, _, rfl⟩ := Option.map_eq_some_iff.mp stepped
      exact ⟨_, rfl⟩
    · obtain ⟨_, _, rfl⟩ := Option.map_eq_some_iff.mp stepped
      exact ⟨_, rfl⟩
  · cases stepped

/-- A step never changes the range of the request. -/
theorem accessStep_range {call : AccessCall} (stepped : accessStep access state call = some next) :
    next.request.start = state.request.start ∧ next.request.length = state.request.length := by
  obtain ⟨memory, same⟩ := accessStep_request stepped
  rw [same]
  exact ⟨rfl, rfl⟩

/-- A write never changes its request. -/
theorem accessStep_write_request {call : AccessCall} (stepped : accessStep .write state call = some next) :
    next.request = state.request := by
  unfold accessStep at stepped
  split at stepped
  · obtain rfl := Option.some.inj stepped
    rfl
  · obtain ⟨_, _, rfl⟩ := Option.map_eq_some_iff.mp stepped
    rfl
  · cases stepped

/-- A transfer is made only while something is left. -/
theorem accessStep_transfer_remains {window : Window} {result : Int} (atLoop : state.pc = .loop window)
    (stepped : accessStep access state (.transfer result) = some next) : window.count ≠ 0 := by
  intro empty
  cases access <;> simp [accessStep, atLoop, readIteration, writeIteration, empty] at stepped

/-- A successful seek starts the operation with nothing moved. -/
theorem progress_seek (stepped : accessStep access state (.lseek true) = some next) (atSeek : state.pc = .seek)
    (size : 0 ≤ state.request.mSize.toInt) (offset : 0 ≤ state.request.mOffset.toInt)
    (bytes : state.file.bytes = content) :
    next.request = state.request ∧ Progress access content next 0 := by
  simp only [accessStep, atSeek, Option.some.injEq] at stepped
  subst stepped
  refine ⟨rfl, ?_, Nat.zero_le _, moved_zero access ?_ ?_⟩
  · simp [Window.whole, NBDRWReq.toSizeT_mSize size]
  · rw [OpenFile.lseek_position _ offset, NBDRWReq.start]
  · rw [OpenFile.lseek_bytes, bytes]

/-- Each partial transfer moves the next bytes of the range. -/
theorem Progress.transfer (progress : Progress access content state moved) {result : Int}
    (positive : 1 ≤ result) (stepped : accessStep access state (.transfer result) = some next) :
    ∃ count : Nat, result = count ∧ 1 ≤ count ∧ Progress access content next (moved + count) := by
  obtain ⟨pc, within, before⟩ := progress
  have small := state.request.length_lt
  have window (count : Nat) : (⟨(moved : Int) + count, state.request.length - moved - count⟩ : Window) =
      ⟨(moved + count : Nat), state.request.length - (moved + count)⟩ := by
    rw [Nat.cast_add, Nat.sub_sub]
  simp only [accessStep, pc] at stepped
  cases access with
  | read =>
      obtain ⟨⟨file, memory, rest⟩, iterated, rfl⟩ := Option.map_eq_some_iff.mp stepped
      obtain ⟨count, counted, positive, inside, available, rfl, rfl, rfl⟩ :=
        readIteration_success (by simp only; omega) positive iterated
      simp only at inside
      refine ⟨count, counted, positive, congrArg AccessPc.loop (window count), ?_, before.read available⟩
      change moved + count ≤ state.request.length
      omega
  | write =>
      obtain ⟨⟨file, rest⟩, iterated, rfl⟩ := Option.map_eq_some_iff.mp stepped
      obtain ⟨count, counted, positive, inside, rfl, rfl⟩ :=
        writeIteration_success (by simp only; omega) positive iterated
      simp only at inside
      refine ⟨count, counted, positive, congrArg AccessPc.loop (window count), ?_, before.write count⟩
      change moved + count ≤ state.request.length
      omega

/-- An operation that returns has moved its whole range. -/
theorem Progress.complete (progress : Progress access content state moved)
    (returned : state.pc.returned) :
    access.Moved content state.request.start state.file state.request.mData state.request.length := by
  obtain ⟨pc, within, before⟩ := progress
  rw [pc, AccessPc.returned, beq_iff_eq] at returned
  have all : moved = state.request.length := by
    simp only at returned
    omega
  exact all ▸ before

/-- An operation that returns has had the effect of one atomic operation. -/
theorem Progress.returned (progress : Progress access content state moved)
    (returned : state.pc.returned) :
    state.file.bytes = access.perform content state.request ∧ access.Answers content state.request := by
  obtain ⟨-, before⟩ := progress.complete returned
  cases access with
  | read => exact before
  | write => exact ⟨before, trivial⟩

end

/-- A run is at its seek with nothing changed, or it has moved the first bytes of the range. -/
structure Ongoing (access : Access) (file : OpenFile) (request : NBDRWReq) (state : AccessState) : Prop where
  payload : access = .write → state.request = request
  place : state = ⟨file, request, .seek⟩ ∨ ∃ moved, Progress access file.bytes state moved

section
variable {access : Access} {file : OpenFile} {request : NBDRWReq} {state next : AccessState}

/-- Each successful system call keeps the place of the operation in its range. -/
theorem Ongoing.step (size : 0 ≤ request.mSize.toInt) (offset : 0 ≤ request.mOffset.toInt)
    (ongoing : Ongoing access file request state) {call : AccessCall} (positive : call.Positive)
    (stepped : accessStep access state call = some next) : Ongoing access file request next := by
  obtain ⟨payload, place⟩ := ongoing
  refine ⟨?_, Or.inr ?_⟩
  · rintro rfl
    rw [accessStep_write_request stepped, payload rfl]
  · rcases place with rfl | ⟨moved, progress⟩
    · cases call with
      | transfer result => simp [accessStep] at stepped
      | lseek succeeds =>
          obtain rfl : succeeds = true := positive
          exact ⟨0, (progress_seek stepped rfl size offset rfl).2⟩
    · cases call with
      | lseek succeeds => simp [accessStep, progress.pc] at stepped
      | transfer result =>
          obtain ⟨count, -, -, later⟩ := progress.transfer positive stepped
          exact ⟨moved + count, later⟩

/-- A run never changes the fields of the request other than its buffer. -/
theorem accessRun_request {calls : List AccessCall} (reached : run (accessStep access) state calls = some next) :
    ∃ memory, next.request = { state.request with mData := memory } := by
  refine run_invariant (fun later => ∃ memory, later.request = { state.request with mData := memory })
    (fun later call after holds stepped => ?_) ⟨state.request.mData, rfl⟩ reached
  obtain ⟨memory, same⟩ := holds
  obtain ⟨stored, renewed⟩ := accessStep_request stepped
  exact ⟨stored, by rw [renewed, same]⟩

/-- A run never changes the range of the request. -/
theorem accessRun_range {calls : List AccessCall} (reached : run (accessStep access) state calls = some next) :
    next.request.start = state.request.start ∧ next.request.length = state.request.length := by
  obtain ⟨memory, same⟩ := accessRun_request reached
  rw [same]
  exact ⟨rfl, rfl⟩

/-- An operation whose calls succeed moves exactly its range when it returns. -/
theorem accessRun_moved (size : 0 ≤ request.mSize.toInt) (offset : 0 ≤ request.mOffset.toInt)
    {calls : List AccessCall} (positive : ∀ call ∈ calls, call.Positive)
    (reached : run (accessStep access) ⟨file, request, .seek⟩ calls = some state)
    (returned : state.pc.returned) :
    access.Moved file.bytes request.start state.file state.request.mData request.length ∧
      (access = .write → state.request = request) := by
  have start : Ongoing access file request ⟨file, request, .seek⟩ :=
    ⟨fun _ => rfl, Or.inl rfl⟩
  have ongoing := run_invariant_of_meets (Ongoing access file request)
    (fun _ _ _ holds condition stepped => Ongoing.step size offset holds condition stepped) start
    (meets_of_forall positive _) reached
  obtain ⟨payload, rfl | ⟨moved, progress⟩⟩ := ongoing
  · cases returned
  · obtain ⟨start, length⟩ := accessRun_range reached
    have complete := progress.complete returned
    rw [start, length] at complete
    exact ⟨complete, payload⟩

end

end DistributedNas.Storage
