import DistributedNas.Buse.Server
import DistributedNas.Library.Conversation

/-
This file states what a block device is, and it proves that the operations of both programs implement one.
-/

namespace DistributedNas.Buse
open Library Posix Proxy

/-- A request of the kernel has one of five types, and a write carries its data. -/
structure DeviceRequest extends WireRequest where
  payload : List UInt8
  started : magic = nbdRequestMagic
  known : type = nbdCmdRead ∨ type = nbdCmdWrite ∨ type = nbdCmdDisc ∨ type = nbdCmdFlush ∨ type = nbdCmdTrim
  framed : payload.length = if type = nbdCmdWrite then len.toNat else 0

namespace DeviceRequest
variable (request : DeviceRequest)

/-- The kernel sends the header and then the payload. -/
def bytes : List UInt8 := request.header ++ request.payload

/-- A request asks for bytes from this place on. -/
def start : Nat := request.fromOffset.toNat

/-- A request asks for this many bytes. -/
def length : Nat := request.len.toNat

/-- The range of a read or a write lies inside the device. -/
def InRange (size : Nat) : Prop :=
  request.type = nbdCmdRead ∨ request.type = nbdCmdWrite → request.start + request.length ≤ size

instance (size : Nat) : Decidable (request.InRange size) := inferInstanceAs (Decidable (_ → _))

/-- A success reply is the magic number, a zero error, and the handle, in network order. -/
def success : List UInt8 :=
  Library.bigEndian 4 nbdReplyMagic.toNat ++ Library.bigEndian 4 0 ++ request.handle.toList

end DeviceRequest

/-- A block device answers a read with the bytes of its range, and a write replaces the bytes of its range. -/
def blockDevice : Responder (List UInt8) DeviceRequest UInt8 where
  answer content request :=
    request.success ++ if request.type = nbdCmdRead then slice content request.start request.length else []
  next content request :=
    if request.type = nbdCmdWrite then overwrite 0 content request.start request.payload else content

/-- The requests before the first disconnect are answered. -/
def untilDisc (requests : List DeviceRequest) : List DeviceRequest :=
  requests.takeWhile fun request => request.type ≠ nbdCmdDisc

/-- A specification answers requests, says which of them the device can do, and what a failed operation may leave. -/
structure Specification (Content : Type*) extends Responder Content DeviceRequest UInt8 where
  Fits : Content → DeviceRequest → Prop
  Torn : Content → DeviceRequest → Content → Prop
  plain : ∀ content request, request.type ≠ nbdCmdRead → request.type ≠ nbdCmdWrite →
    answer content request = request.success ∧ next content request = content ∧ Fits content request

/-- A memory block can do the requests inside it, and its operations do not fail. -/
def memoryDevice : Specification (List UInt8) where
  toResponder := blockDevice
  Fits content request := request.InRange content.length
  Torn _ _ _ := False
  plain _ request notRead notWrite :=
    ⟨(congrArg (request.success ++ ·) (if_neg notRead)).trans (List.append_nil _), if_neg notWrite,
      fun moves => absurd moves (not_or.mpr ⟨notRead, notWrite⟩)⟩

/-- A transfer starts at its offset, or where the last one stopped if the offset lies past the end. -/
def DeviceRequest.place (request : DeviceRequest) (file : OpenFile) : Nat :=
  if request.start ≤ file.bytes.length then request.start else file.position

/-- A device with a position transfers at the place of a request, up to the end of its bytes. -/
def positionedDevice : Specification OpenFile where
  answer file request :=
    request.success ++ if request.type = nbdCmdRead then slice file.bytes (request.place file) request.length else []
  next file request :=
    if request.type = nbdCmdRead then ⟨file.bytes, request.place file + request.length⟩
    else if request.type = nbdCmdWrite then
      ⟨overwrite 0 file.bytes (request.place file) request.payload, request.place file + request.payload.length⟩
    else file
  Fits file request := request.type = nbdCmdRead ∨ request.type = nbdCmdWrite → request.length ≠ 0 →
    request.place file + request.length ≤ file.bytes.length
  Torn file request after :=
    request.type = nbdCmdRead ∧ after.bytes = file.bytes ∨ request.type = nbdCmdWrite ∧
      ∃ written, written <+: request.payload ∧ after.bytes = overwrite 0 file.bytes (request.place file) written
  plain _ request notRead notWrite :=
    ⟨(congrArg (request.success ++ ·) (if_neg notRead)).trans (List.append_nil _),
      (if_neg notRead).trans (if_neg notWrite), fun moves => absurd moves (not_or.mpr ⟨notRead, notWrite⟩)⟩

/-- A call ends well, it fails an assertion after a part of its effect, or it touches memory outside its blocks. -/
def Completion.Ends {Value Device : Type*} (completion : Completion Value Device) (Done : Value → Device → Prop)
    (Partial : Device → Prop) (Stray : Prop) : Prop :=
  match completion with
  | .returned value device => Done value device
  | .aborted device => Partial device
  | .undefined => Stray

/-- A read or a write returns only if the device can do it, and then as specified; the others always do. -/
structure BuseOperations.Implements {Device Content : Type*} (aop : BuseOperations Device)
    (specification : Specification Content) (content : Device → Content) : Prop where
  read : ∀ device buf (request : DeviceRequest) results completion, request.type = nbdCmdRead →
    aop.read device buf request.len request.fromOffset results = some completion →
      completion.Ends
        (fun value after => specification.Fits (content device) request ∧
          content after = specification.next (content device) request ∧
          request.success ++ value.2.load 0 request.length = specification.answer (content device) request)
        (fun after => specification.Torn (content device) request (content after))
        (¬ specification.Fits (content device) request)
  write : ∀ device buf (request : DeviceRequest) results completion, request.type = nbdCmdWrite →
    buf.load 0 request.length = request.payload →
    aop.write device buf request.len request.fromOffset results = some completion →
      completion.Ends
        (fun _ after => specification.Fits (content device) request ∧
          content after = specification.next (content device) request ∧
          request.success = specification.answer (content device) request)
        (fun after => specification.Torn (content device) request (content after))
        (¬ specification.Fits (content device) request)
  disc : ∀ disc ∈ aop.disc, ∀ device, content (disc device) = content device
  flush : ∀ flush ∈ aop.flush, ∀ device, (flush device).1 = 0 ∧ content (flush device).2 = content device
  trim : ∀ trim ∈ aop.trim, ∀ start len device,
    (trim start len device).1 = 0 ∧ content (trim start len device).2 = content device

/-- A write is no read. -/
theorem nbdCmdWrite_ne_read : nbdCmdWrite ≠ nbdCmdRead := by decide

namespace DeviceRequest
variable {request : DeviceRequest}

/-- The payload of a write has the asked length. -/
theorem length_payload (writes : request.type = nbdCmdWrite) : request.payload.length = request.length := by
  rw [request.framed, if_pos writes, length]

/-- The answer to a write is its success reply. -/
theorem answer_write (writes : request.type = nbdCmdWrite) (content : List UInt8) :
    request.success = blockDevice.answer content request := by
  have notRead : request.type ≠ nbdCmdRead := by rw [writes]; exact nbdCmdWrite_ne_read
  exact ((congrArg (request.success ++ ·) (if_neg notRead)).trans (List.append_nil _)).symm

end DeviceRequest

/-- The memory block of `busexmp` is a block device. -/
theorem xmp_implements : xmpOperations.Implements memoryDevice id where
  read := by
    intro data buf request results completion reads operated
    change xmpRead data buf request.len request.fromOffset results = some completion at operated
    have notWrite : request.type ≠ nbdCmdWrite := by rw [reads]; exact nbdCmdWrite_ne_read.symm
    unfold xmpRead at operated
    split at operated
    · cases operated
    · split at operated
      · next inside =>
          obtain rfl := Option.some.inj operated
          refine ⟨fun _ => inside, (if_neg notWrite).symm, ?_⟩
          have loaded := Buffer.load_store buf 0 (slice data request.fromOffset.toNat request.len.toNat)
          rw [length_slice_of_le inside] at loaded
          exact (congrArg (request.success ++ ·) (loaded.trans (if_pos reads).symm))
      · next outside =>
          obtain rfl := Option.some.inj operated
          exact fun fits => outside (fits (Or.inl reads))
  write := by
    intro data buf request results completion writes stored operated
    change xmpWrite data buf request.len request.fromOffset results = some completion at operated
    have payload : buf.load 0 request.len.toNat = request.payload := stored
    unfold xmpWrite at operated
    rw [payload] at operated
    split at operated
    · cases operated
    · split at operated
      · next inside =>
          obtain rfl := Option.some.inj operated
          exact ⟨fun _ => inside, (if_pos writes).symm, request.answer_write writes _⟩
      · next outside =>
          obtain rfl := Option.some.inj operated
          exact fun fits => outside (fits (Or.inr writes))
  disc := by
    rintro disc ⟨⟩ device
    rfl
  flush := by
    rintro flush ⟨⟩ device
    exact ⟨rfl, rfl⟩
  trim := by
    rintro trim ⟨⟩ start len device
    exact ⟨rfl, rfl⟩

section
variable {file : OpenFile} {memory : Buffer} {window : Window} {results : List Int}

/-- A `read` call gives no more than the window holds. -/
theorem readResult_bounds {available count : Nat} {result : Int} (outcome : ReadResult available count result) :
    -1 ≤ result ∧ result ≤ count ∧ (0 ≤ result → result ≤ available) := by
  unfold ReadResult at outcome
  omega

/-- A `write` call takes no more than the window holds. -/
theorem writeResult_bounds {count : Nat} {result : Int} (outcome : WriteResult count result) :
    -1 ≤ result ∧ result ≤ count := by
  unfold WriteResult at outcome
  omega

/-- The loop of `loopback_read` fills its window with the next bytes of the device and moves past them. -/
theorem loopbackReadLoop_ends {completion : Completion (Int32 × Buffer) OpenFile} (bounded : window.count < 2 ^ 32)
    (looped : loopbackReadLoop file memory window results = some completion) :
    completion.Ends
      (fun value after => (window.count ≠ 0 → file.position + window.count ≤ file.bytes.length) ∧
        after = ⟨file.bytes, file.position + window.count⟩ ∧
        value.2 = memory.store window.buf (slice file.bytes file.position window.count))
      (fun after => after.bytes = file.bytes) False := by
  induction results generalizing file memory window with
  | nil =>
      unfold loopbackReadLoop at looped
      split at looped
      · next empty =>
          obtain rfl := Option.some.inj looped
          refine ⟨fun remains => absurd empty remains, by rw [empty]; rfl, ?_⟩
          rw [empty, slice_zero, Buffer.store_nil]
      · cases looped
  | cons result later ih =>
      unfold loopbackReadLoop at looped
      split at looped
      · next enabled =>
          obtain ⟨remains, outcome⟩ := enabled
          obtain ⟨lower, within, available⟩ := readResult_bounds outcome
          simp only at looped
          split at looped
          · split at looped
            · obtain rfl := Option.some.inj looped
              rfl
            · cases looped
          · next rest advanced =>
              obtain ⟨count, rfl, positive, -, rfl⟩ := (assertedAdvance_eq_some bounded lower within).mp advanced
              have inside : file.position + count ≤ file.bytes.length := by omega
              have ends := ih (by simp only; omega) looped
              have total : window.count = count + (window.count - count) := by omega
              cases completion with
              | undefined => exact ends
              | aborted after => exact ends
              | returned value after =>
                  obtain ⟨fits, reached, filled⟩ := ends
                  simp only [OpenFile.readBytes, Int.toNat_natCast] at fits reached
                  refine ⟨fun _ => ?_, ?_, ?_⟩
                  · by_cases last : window.count - count = 0
                    · omega
                    · have := fits last
                      omega
                  · rw [reached, Nat.add_assoc, ← total]
                  · have adjacent := Buffer.store_append memory window.buf
                      (slice file.bytes file.position count)
                      (slice file.bytes (file.position + count) (window.count - count))
                    rw [length_slice_of_le inside, ← slice_add, ← total] at adjacent
                    rw [← adjacent, filled]
                    rfl
      · cases looped

/-- The loop of `loopback_write` puts the bytes of its window at the position, inside the device. -/
theorem loopbackWriteLoop_ends {completion : Completion Int32 OpenFile} (bounded : window.count < 2 ^ 32)
    (looped : loopbackWriteLoop file memory window results = some completion) :
    completion.Ends
      (fun _ after => (window.count ≠ 0 → file.position + window.count ≤ file.bytes.length) ∧
        after = file.writeBytes (memory.load window.buf window.count))
      (fun after => ∃ written, written <+: memory.load window.buf window.count ∧ after = file.writeBytes written)
      False := by
  induction results generalizing file window with
  | nil =>
      unfold loopbackWriteLoop at looped
      split at looped
      · next empty =>
          obtain rfl := Option.some.inj looped
          refine ⟨fun remains => absurd empty remains, ?_⟩
          rw [empty, Buffer.load_zero]
          simp [OpenFile.writeBytes]
      · cases looped
  | cons result later ih =>
      unfold loopbackWriteLoop at looped
      split at looped
      · next enabled =>
          obtain ⟨remains, outcome, available⟩ := enabled
          obtain ⟨lower, within⟩ := writeResult_bounds outcome
          simp only at looped
          split at looped
          · split at looped
            · obtain rfl := Option.some.inj looped
              have total : window.count = result.toNat + (window.count - result.toNat) := by omega
              refine ⟨memory.load window.buf result.toNat, ?_, rfl⟩
              rw [total, Buffer.load_add]
              exact List.prefix_append _ _
            · cases looped
          · next rest advanced =>
              obtain ⟨count, rfl, positive, -, rfl⟩ := (assertedAdvance_eq_some bounded lower within).mp advanced
              have inside : file.position + count ≤ file.bytes.length := by omega
              have ends := ih (by simp only; omega) looped
              have total : window.count = count + (window.count - count) := by omega
              have whole : memory.load window.buf window.count = memory.load window.buf count ++
                  memory.load (window.buf + count) (window.count - count) := by
                rw [← Buffer.load_add, ← total]
              rw [Int.toNat_natCast] at ends
              cases completion with
              | undefined => exact ends
              | aborted after =>
                  obtain ⟨written, begins, rfl⟩ := ends
                  refine ⟨memory.load window.buf count ++ written, ?_, OpenFile.writeBytes_writeBytes ..⟩
                  rw [whole]
                  exact (List.prefix_append_right_inj _).mpr begins
              | returned value after =>
                  obtain ⟨fits, reached⟩ := ends
                  refine ⟨fun _ => ?_, ?_⟩
                  · have size : (file.writeBytes (memory.load window.buf count)).bytes.length = file.bytes.length :=
                      length_overwrite_of_le 0 (by rwa [Buffer.length_load])
                    have place : (file.writeBytes (memory.load window.buf count)).position = file.position + count :=
                      congrArg (file.position + ·) (Buffer.length_load ..)
                    rw [size, place] at fits
                    by_cases last : window.count - count = 0
                    · omega
                    · have := fits last
                      simp only at this
                      omega
                  · rw [reached, OpenFile.writeBytes_writeBytes, whole]
      · cases looped

/-- The seek of `loopback` puts the position at the place of the request. -/
theorem lseek64_eq (file : OpenFile) (request : DeviceRequest) :
    lseek64 file request.fromOffset = ⟨file.bytes, request.place file⟩ := by
  unfold lseek64 DeviceRequest.place DeviceRequest.start
  split <;> rfl

/-- The file behind `loopback` is a device with a position. -/
theorem loopback_implements : loopbackOperations.Implements positionedDevice id where
  read := by
    intro file buf request results completion reads operated
    change loopbackReadLoop (lseek64 file request.fromOffset) buf (.whole request.len.toNat) results = some completion
      at operated
    rw [lseek64_eq] at operated
    have ends := loopbackReadLoop_ends request.len.toNat_lt operated
    cases completion with
    | undefined => exact ends.elim
    | aborted after => exact Or.inl ⟨reads, ends⟩
    | returned value after =>
        obtain ⟨fits, rfl, filled⟩ := ends
        refine ⟨fun _ => fits, (if_pos reads).symm, ?_⟩
        have inside : request.length ≠ 0 → request.place file + request.length ≤ file.bytes.length := fits
        have block : value.2.load 0 request.length = slice file.bytes (request.place file) request.length := by
          rw [filled]
          by_cases empty : request.length = 0
          · rw [empty, Buffer.load_zero, slice_zero]
          · have loaded := Buffer.load_store buf 0 (slice file.bytes (request.place file) request.length)
            rw [length_slice_of_le (inside empty)] at loaded
            exact loaded
        exact congrArg (request.success ++ ·) (block.trans (if_pos reads).symm)
  write := by
    intro file buf request results completion writes stored operated
    change loopbackWriteLoop (lseek64 file request.fromOffset) buf (.whole request.len.toNat) results = some completion
      at operated
    have notRead : request.type ≠ nbdCmdRead := by rw [writes]; exact nbdCmdWrite_ne_read
    have payload : buf.load 0 request.len.toNat = request.payload := stored
    rw [lseek64_eq] at operated
    have ends := loopbackWriteLoop_ends request.len.toNat_lt operated
    simp only [Window.whole, payload] at ends
    cases completion with
    | undefined => exact ends.elim
    | aborted after =>
        obtain ⟨written, begins, rfl⟩ := ends
        exact Or.inr ⟨writes, written, begins, rfl⟩
    | returned value after =>
        obtain ⟨fits, rfl⟩ := ends
        refine ⟨fun _ => fits, ((if_neg notRead).trans (if_pos writes)).symm, ?_⟩
        exact ((congrArg (request.success ++ ·) (if_neg notRead)).trans (List.append_nil _)).symm
  disc := nofun
  flush := nofun
  trim := nofun

end

/-- Inside its bytes a device with a position answers as a block device does, and so its position does not matter. -/
theorem positionedDevice_refines {file : OpenFile} {requests : List DeviceRequest}
    (ranges : ∀ request ∈ requests, request.InRange file.bytes.length) :
    positionedDevice.transcript file requests = blockDevice.transcript file.bytes requests ∧
      (positionedDevice.states file requests).bytes = blockDevice.states file.bytes requests ∧
      (positionedDevice.states file requests).bytes.length = file.bytes.length := by
  induction requests generalizing file with
  | nil => exact ⟨rfl, rfl, rfl⟩
  | cons request rest ih =>
      obtain ⟨here, later⟩ := List.forall_mem_cons.mp ranges
      have place (moves : request.type = nbdCmdRead ∨ request.type = nbdCmdWrite) :
          request.place file = request.start := if_pos (by have := here moves; omega)
      have answer : positionedDevice.answer file request = blockDevice.answer file.bytes request := by
        by_cases reads : request.type = nbdCmdRead
        · exact congrArg (fun start => request.success ++ if request.type = nbdCmdRead then
            slice file.bytes start request.length else []) (place (Or.inl reads))
        · have first : positionedDevice.answer file request = request.success ++ [] :=
            congrArg (request.success ++ ·) (if_neg reads)
          exact first.trans (congrArg (request.success ++ ·) (if_neg reads)).symm
      have next : (positionedDevice.next file request).bytes = blockDevice.next file.bytes request := by
        show (if _ then _ else if _ then _ else _ : OpenFile).bytes = if _ then _ else _
        split
        · next reads => rw [if_neg (by rw [reads]; exact nbdCmdWrite_ne_read.symm)]
        · split
          · next writes => rw [place (Or.inr writes)]
          · rfl
      have size : (blockDevice.next file.bytes request).length = file.bytes.length := by
        show (if _ then _ else _ : List UInt8).length = _
        split
        · next writes =>
            refine length_overwrite_of_le 0 ?_
            rw [request.length_payload writes]
            exact here (Or.inr writes)
        · rfl
      have ranges : ∀ other ∈ rest, other.InRange (positionedDevice.next file request).bytes.length := by
        rwa [next, size]
      obtain ⟨symbols, state, length⟩ := ih ranges
      refine ⟨?_, ?_, ?_⟩
      · rw [Responder.transcript, Responder.transcript, answer, symbols, next]
      · exact state.trans (by rw [next]; rfl)
      · exact length.trans (by rw [next, size])

end DistributedNas.Buse
