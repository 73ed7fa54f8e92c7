import DistributedNas.Storage.MemoryFile

/-
This file follows the requested range from the wire to the backing file and to the reply.
-/

namespace DistributedNas.Storage
open Library Posix Proxy

/-- `OnSocketReady` decodes a received header and puts the request's buffer beside it. -/
def decode (host : Endian) (wire : WireRequest) (data : Buffer) : NBDRWReq :=
  .ofHeader host (.ofMemory host (.ofBytes wire.header)) data

/-- The requested range is the decoded range, the accessed range, and the length of the sent data. -/
structure AccessesRange (host : Endian) (wire : WireRequest) (request : NBDRWReq) : Prop where
  offset : request.mOffset.toInt = wire.fromOffset.toNat
  size : request.mSize.toInt = wire.len.toNat
  seeks : ∀ access file, ∃ next, accessStep access ⟨file, request, .seek⟩ (.lseek true) = some next ∧
    next.file.position = wire.fromOffset.toNat ∧ next.pc = .loop (.whole wire.len.toNat)
  transfers : ∀ access file calls final, (∀ call ∈ calls, call.Positive) →
    run (accessStep access) ⟨file, request, .seek⟩ calls = some final → final.pc.returned →
      access.Moved file.bytes wire.fromOffset.toNat final.file final.request.mData wire.len.toNat ∧
        (access = .write → final.request = request)
  sends : wire.type = nbdCmdRead → ∀ (thread : Nat) channel calls after,
    (∀ call ∈ calls, DoneCall.Positive call) →
    run (fun state call => doneStep host thread request state.1 state.2 call) (channel, .enter) calls =
        some (after, .returned) →
      after.stream = channel.stream ++ replyHeader host request ++ request.mData.load 0 wire.len.toNat

section
variable (host : Endian) (wire : WireRequest) (data : Buffer)

/-- The constructor keeps the wire numbers modulo the range of an `int`. -/
theorem decode_fields :
    (decode host wire data).mType = Int32.ofInt wire.type.toNat ∧
      (decode host wire data).mSize = Int32.ofInt wire.len.toNat ∧
      (decode host wire data).mOffset = Int32.ofInt wire.fromOffset.toNat := by
  have stored : (Buffer.ofBytes wire.header).load 0 sizeofNbdRequest = wire.header := by
    rw [← wire.length_header, Buffer.load_ofBytes]
  obtain ⟨type, -, start, len⟩ := NbdRequest.ofMemory_header host wire stored
  simp only [decode, NBDRWReq.ofHeader, type, start, len, and_self]

/-- An `int` keeps a number of the wire exactly when it is below 2^31. -/
theorem toInt_ofInt_eq_iff (value : Nat) : (Int32.ofInt value).toInt = value ↔ value < 2 ^ 31 := by
  constructor
  · intro same
    have bounded := (Int32.ofInt value).toInt_lt
    omega
  · intro small
    exact Int32.toInt_ofInt_of_le (by omega) (by omega)

/-- The requested range is the accessed range exactly when both of its numbers fit an `int`. -/
theorem accessesRange_iff :
    AccessesRange host wire (decode host wire data) ↔
      wire.fromOffset.toNat < 2 ^ 31 ∧ wire.len.toNat < 2 ^ 31 := by
  obtain ⟨type, len, start⟩ := decode_fields host wire data
  constructor
  · rintro ⟨offset, size, -, -, -⟩
    rw [start] at offset
    rw [len] at size
    exact ⟨(toInt_ofInt_eq_iff _).mp offset, (toInt_ofInt_eq_iff _).mp size⟩
  · rintro ⟨smallStart, smallLen⟩
    have offset : (decode host wire data).mOffset.toInt = wire.fromOffset.toNat := by
      rw [start, (toInt_ofInt_eq_iff _).mpr smallStart]
    have size : (decode host wire data).mSize.toInt = wire.len.toNat := by
      rw [len, (toInt_ofInt_eq_iff _).mpr smallLen]
    have length : (decode host wire data).length = wire.len.toNat := by
      rw [NBDRWReq.length, size, Int.toNat_natCast]
    have place : (decode host wire data).start = wire.fromOffset.toNat := by
      rw [NBDRWReq.start, offset, Int.toNat_natCast]
    refine ⟨offset, size, fun access file => ⟨_, rfl, ?_, ?_⟩, ?_, ?_⟩
    · change (OpenFile.lseek file (decode host wire data).mOffset.toInt true).position = _
      rw [OpenFile.lseek_position _ (by omega), offset, Int.toNat_natCast]
    · rw [← length, ← NBDRWReq.toSizeT_mSize (by omega)]
    · intro access file calls final positive reached returned
      have moved := accessRun_moved (by omega) (by omega) positive reached returned
      rwa [length, place] at moved
    · intro isRead thread channel calls after positive reached
      have reads : (decode host wire data).sendsData := by
        rw [NBDRWReq.sendsData, type, isRead, beq_self_eq_true]
      rw [doneRun_stream (by omega) positive reached, NBDRWReq.reply_eq host, NBDRWReq.payload, if_pos reads,
        size, Int.toNat_natCast, List.append_assoc]

end

/-- A client asks for one byte at 2 GiB of a larger device. -/
def highRead : WireRequest where
  magic := 0x25609513
  type := nbdCmdRead
  handle := Vector.replicate 8 0
  fromOffset := 0x80000000
  len := 1

/-- The offset of a read at 2 GiB becomes negative, and the seek fails. -/
theorem accessesRange_fails :
    highRead.fromOffset.toNat + highRead.len.toNat ≤ 2 ^ 32 ∧
      ∀ host data, ¬ AccessesRange host highRead (decode host highRead data) := by
  refine ⟨by decide, fun host data accesses => ?_⟩
  obtain ⟨-, -, start⟩ := decode_fields host highRead data
  have offset := accesses.offset
  rw [start] at offset
  revert offset
  decide

end DistributedNas.Storage
