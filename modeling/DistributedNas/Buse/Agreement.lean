import DistributedNas.Buse.Refinement
import DistributedNas.Engine.OneWorker
import DistributedNas.Storage.Range
import Mathlib.Data.List.TakeWhile

/-
This file compares the two servers: the pool of one worker behind `NBDProxy`, and `busexmp` behind `serve_nbd`.
-/

namespace DistributedNas.Buse
open Library Posix Proxy Storage Engine

/-- This request is a read or a write, and its numbers fit the `int` fields of `NBDRWReq`. -/
structure DeviceRequest.Plain (request : DeviceRequest) : Prop where
  type : request.type = nbdCmdRead ∨ request.type = nbdCmdWrite
  offset : request.start < 2 ^ 31
  size : request.length < 2 ^ 31

instance (request : DeviceRequest) : Decidable request.Plain :=
  decidable_of_iff ((request.type = nbdCmdRead ∨ request.type = nbdCmdWrite) ∧ request.start < 2 ^ 31 ∧
    request.length < 2 ^ 31) ⟨fun parts => ⟨parts.1, parts.2.1, parts.2.2⟩, fun plain => ⟨plain.1, plain.2, plain.3⟩⟩

/-- `OnSocketReady` makes this object of a request, and it reads the payload of a write into the buffer. -/
def Decoded (host : Endian) (request : DeviceRequest) (object : NBDRWReq) : Prop :=
  ∃ data, object = decode host request.toWireRequest data ∧
    (request.type = nbdCmdWrite → data.load 0 request.length = request.payload)

section
variable {host : Endian} {request : DeviceRequest} {object : NBDRWReq}

/-- The object has the numbers of the request. -/
theorem Decoded.numbers (decoded : Decoded host request object) (plain : request.Plain) :
    object.start = request.start ∧ object.length = request.length := by
  obtain ⟨data, rfl, -⟩ := decoded
  obtain ⟨-, len, start⟩ := decode_fields host request.toWireRequest data
  constructor
  · have fits : request.fromOffset.toNat < 2 ^ 31 := plain.offset
    rw [NBDRWReq.start, start, (toInt_ofInt_eq_iff _).mpr fits, Int.toNat_natCast]
    rfl
  · have fits : request.len.toNat < 2 ^ 31 := plain.size
    rw [NBDRWReq.length, len, (toInt_ofInt_eq_iff _).mpr fits, Int.toNat_natCast]
    rfl

/-- The object has the handle of the request. -/
theorem Decoded.handle (decoded : Decoded host request object) : object.mHandle = request.handle := by
  obtain ⟨data, rfl, -⟩ := decoded
  have stored : (Buffer.ofBytes request.header).load 0 sizeofNbdRequest = request.header := by
    rw [← request.length_header, Buffer.load_ofBytes]
  exact (NbdRequest.ofMemory_header host request.toWireRequest stored).2.1

/-- The object is sent with its data exactly when the request is a read. -/
theorem Decoded.sendsData (decoded : Decoded host request object) (plain : request.Plain) :
    object.sendsData = true ↔ request.type = nbdCmdRead := by
  obtain ⟨data, rfl, -⟩ := decoded
  obtain ⟨type, -, -⟩ := decode_fields host request.toWireRequest data
  rw [NBDRWReq.sendsData, type]
  rcases plain.type with reads | writes
  · rw [reads]
    decide
  · rw [writes]
    decide

/-- The device on the file and the block device give one answer. -/
theorem Decoded.answer_eq (decoded : Decoded host request object) (plain : request.Plain) (content : List UInt8) :
    fileDevice.answer content object = blockDevice.answer content request := by
  obtain ⟨start, length⟩ := decoded.numbers plain
  have sends := decoded.sendsData plain
  show _ ++ object.mHandle.toList ++ _ = request.success ++ _
  rw [decoded.handle, start, length]
  by_cases reads : request.type = nbdCmdRead
  · rw [if_pos (sends.mpr reads), if_pos reads]
    rfl
  · rw [if_neg fun sent => reads (sends.mp sent), if_neg reads]
    rfl

/-- The device on the file and the block device take one step. -/
theorem Decoded.next_eq (decoded : Decoded host request object) (plain : request.Plain) (content : List UInt8) :
    fileDevice.next content object = blockDevice.next content request := by
  obtain ⟨start, length⟩ := decoded.numbers plain
  have sends := decoded.sendsData plain
  show object.access.perform content object = if request.type = nbdCmdWrite then _ else content
  rcases plain.type with reads | writes
  · have notWrite : request.type ≠ nbdCmdWrite := by rw [reads]; decide
    rw [NBDRWReq.access, if_pos (sends.mpr reads), if_neg notWrite]
    rfl
  · have notRead : request.type ≠ nbdCmdRead := by rw [writes]; decide
    have data : object.data = request.payload := by
      obtain ⟨memory, rfl, stored⟩ := decoded
      rw [NBDRWReq.data, length]
      exact stored writes
    rw [NBDRWReq.access, if_neg fun sent => notRead (sends.mp sent), if_pos writes]
    show overwrite 0 content object.start object.data = _
    rw [start, data]

end

section
variable {host : Endian} {requests : List DeviceRequest} {objects : List NBDRWReq}

/-- Both devices give the same answers to a sequence of requests and end in the same content. -/
theorem transcript_eq (decoded : List.Forall₂ (Decoded host) requests objects)
    (plain : ∀ request ∈ requests, request.Plain) (content : List UInt8) :
    fileDevice.transcript content objects = blockDevice.transcript content requests ∧
      fileDevice.states content objects = blockDevice.states content requests := by
  induction decoded generalizing content with
  | nil => exact ⟨rfl, rfl⟩
  | @cons request object requests objects first rest ih =>
      obtain ⟨here, later⟩ := List.forall_mem_cons.mp plain
      obtain ⟨answers, ends⟩ := ih later (blockDevice.next content request)
      constructor
      · rw [Responder.transcript, first.answer_eq here, first.next_eq here, answers]
        rfl
      · show fileDevice.states (fileDevice.next content object) objects = _
        rw [first.next_eq here, ends]
        rfl

/-- Reads and writes are not cut by a disconnect. -/
theorem untilDisc_of_plain (plain : ∀ request ∈ requests, request.Plain) : untilDisc requests = requests := by
  apply List.takeWhile_eq_self_iff.mpr
  intro request member
  rcases (plain request member).type with type | type
  · rw [type]
    decide
  · rw [type]
    decide

end

/-- A run of `busexmp` on these requests that ends with success has sent these bytes and has this content. -/
def BusexmpGives (platform : Platform) (data : List UInt8) (requests : List DeviceRequest) (sent content : List UInt8) :
    Prop :=
  ∀ (fresh : Buffer) (calls : List ServeCall) (twin : Buse.Server Xmp),
    run (Buse.serveStep platform xmpOperations fresh) (.initial data (requests.flatMap DeviceRequest.bytes)) calls =
      some twin → twin.pc = .exit 0 → twin.sent = sent ∧ twin.device = content

/-- At a quiescent server with one worker, `busexmp` gives its bytes and its file for some order of its requests. -/
theorem servers_agree {platform : Platform} (agrees : platform.Agrees) {host : Endian}
    {factory : Factory Int32 Handler} (registered : Registered factory) {file : OpenFile} {labels : List (Label 1)}
    {server : Engine.Server 1} (positive : ∀ label ∈ labels, label.Positive)
    (nonnegative : ∀ label ∈ labels, label.Nonnegative)
    (reached : run (serverStep host factory) (.initial 1 file) labels = some server) (quiescent : server.Quiescent)
    {requests : List DeviceRequest}
    (decoded : List.Forall₂ (Decoded host) requests ((tasksAt .received server.history).map Task.received))
    (plain : ∀ request ∈ requests, request.Plain)
    (ranges : ∀ request ∈ requests, request.InRange file.bytes.length) :
    ∃ order, order.Perm requests ∧
      BusexmpGives platform file.bytes order server.channel.stream server.file.bytes := by
  obtain ⟨conserved, follows⟩ := follows_run registered positive nonnegative reached
  have one := follows.oneByOne conserved
  obtain ⟨stream, content⟩ := one.waiting (quiescent.workers 0)
  obtain ⟨order, matched, perm⟩ := List.perm_comp_forall₂ (one.quiescent quiescent) decoded.flip
  have within : ∀ request ∈ order, request.Plain := fun request member => plain request (perm.subset member)
  refine ⟨order, perm, fun fresh calls twin ran ended => ?_⟩
  have inside : ∀ request ∈ order, request.InRange file.bytes.length := fun request member =>
    ranges request (perm.subset member)
  obtain ⟨_, _, _, stage⟩ := (stands_run agrees xmp_implements ran).stage
  obtain ⟨sent, device⟩ := (stage.serves inside).success ended
  rw [untilDisc_of_plain within] at sent device
  obtain ⟨answers, states⟩ := transcript_eq matched.flip within file.bytes
  constructor
  · rw [sent, stream, answers]
    rfl
  · rw [content, states]
    exact device

/-- The kernel writes one byte and reads it, and the numbers are those of the objects below. -/
def byteWrite : DeviceRequest where
  magic := nbdRequestMagic
  type := nbdCmdWrite
  handle := Vector.replicate 8 5
  fromOffset := 0
  len := 1
  payload := [9]
  started := rfl
  known := nbdCmdWrite_known
  framed := rfl

def byteRead : DeviceRequest := plainRequest nbdCmdRead 0 1 nbdCmdRead_plain

/-- `OnSocketReady` makes these objects of both requests. -/
def byteWriteObject : NBDRWReq := decode .littleEndian byteWrite.toWireRequest fun _ => 9
def byteReadObject : NBDRWReq := decode .littleEndian byteRead.toWireRequest fun _ => 0

/-- The worker answers the write and then the read. -/
def bothRequests : List (Label 1) :=
  [.receive byteWriteObject, .enqueue, .receive byteReadObject, .enqueue] ++ List.map (.work soleWorker)
    [.dequeue 1, .create, .access (.lseek true), .access (.transfer 1), .finish, .done .lock, .done (.write 16),
      .done .unlock, .dequeue 0, .create, .access (.lseek true), .access (.transfer 1), .finish, .done .lock,
      .done (.write 16), .done (.write 1), .done .unlock]

theorem servers_agree_bothRequests : ∃ server,
    run (serverStep .littleEndian (Factory.empty.addAll shippedAdds)) (.initial 1 ⟨[5, 6], 0⟩) bothRequests =
      some server ∧ ∃ order, order.Perm [byteWrite, byteRead] ∧
        BusexmpGives ⟨.littleEndian, false⟩ [5, 6] order server.channel.stream server.file.bytes := by
  have agrees : Platform.Agrees ⟨.littleEndian, false⟩ := rfl
  obtain ⟨server, reached, quiescent⟩ : ∃ server,
      run (serverStep .littleEndian (Factory.empty.addAll shippedAdds)) (.initial 1 ⟨[5, 6], 0⟩) bothRequests =
        some server ∧ server.Quiescent := by
    decide +kernel
  have received : (run (serverStep .littleEndian (Factory.empty.addAll shippedAdds)) (.initial 1 ⟨[5, 6], 0⟩)
      bothRequests).map (fun server => (tasksAt .received server.history).map Task.received) =
        some [byteWriteObject, byteReadObject] := rfl
  rw [reached, Option.map_some, Option.some.injEq] at received
  have positive : ∀ label ∈ bothRequests, label.Positive := by
    simp [bothRequests, Label.Positive, AccessCall.Positive, DoneCall.Positive]
  have nonnegative : ∀ label ∈ bothRequests, label.Nonnegative := by
    simp only [bothRequests, List.forall_mem_append, List.forall_mem_map, List.forall_mem_cons, Label.Nonnegative,
      List.not_mem_nil, false_implies, implies_true, and_true, true_and]
    exact ⟨⟨by decide +kernel, by decide +kernel⟩, by decide +kernel, by decide +kernel⟩
  have decoded : List.Forall₂ (Decoded .littleEndian) [byteWrite, byteRead]
      ((tasksAt .received server.history).map Task.received) := by
    rw [received]
    exact .cons ⟨_, rfl, fun _ => rfl⟩ (.cons ⟨_, rfl, fun writes => absurd writes (by decide)⟩ .nil)
  exact ⟨server, reached, servers_agree agrees registered_shipped positive nonnegative reached quiescent decoded
    (by decide) (by decide)⟩

end DistributedNas.Buse
