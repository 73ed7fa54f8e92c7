import DistributedNas.Library.SerialStream
import DistributedNas.Library.Transition
import DistributedNas.Proxy.Request
import DistributedNas.Proxy.Transfer

/-
This file models `NBDProxy::Done` at the granularity of single system calls.
-/

namespace DistributedNas.Proxy
open Library Posix

/-- This is the memory of `struct nbd_reply` that `Done` fills in. -/
def replyHeader (host : Endian) (request : NBDRWReq) : List UInt8 :=
  host.toMemory 4 (htonl host nbdReplyMagic).toNat ++ host.toMemory 4 (htonl host 0).toNat ++
    request.mHandle.toList

/-- This is the size of the packed reply header. -/
def sizeofNbdReply : Nat := 16

/-- `Done` sends the data only for a request of the read type. -/
def NBDRWReq.sendsData (request : NBDRWReq) : Bool :=
  request.mType == Int32.ofInt nbdCmdRead.toNat

/-- The data bytes of a read request follow its header. -/
def NBDRWReq.payload (request : NBDRWReq) : List UInt8 :=
  if request.sendsData then request.mData.load 0 request.mSize.toInt.toNat else []

/-- The reply of a request on the wire is its header and, for a read, its data. -/
def NBDRWReq.reply (request : NBDRWReq) : List UInt8 :=
  Library.bigEndian 4 nbdReplyMagic.toNat ++ Library.bigEndian 4 0 ++ request.mHandle.toList ++
    request.payload

/-- The header that `Done` builds is in network order on each host. -/
theorem replyHeader_eq (host : Endian) (request : NBDRWReq) :
    replyHeader host request =
      Library.bigEndian 4 nbdReplyMagic.toNat ++ Library.bigEndian 4 0 ++ request.mHandle.toList := by
  simp only [replyHeader, toMemory_htonl]
  rfl

@[simp] theorem length_replyHeader (host : Endian) (request : NBDRWReq) :
    (replyHeader host request).length = sizeofNbdReply := by
  simp [replyHeader_eq, sizeofNbdReply]

theorem NBDRWReq.reply_eq (host : Endian) (request : NBDRWReq) :
    request.reply = replyHeader host request ++ request.payload := by
  rw [replyHeader_eq, reply]

/-- These are the places between the system calls of one `Done` call. -/
inductive DonePc where
  | enter
  | header (window : Window)
  | payload (window : Window)
  | leave
  | returned
  deriving DecidableEq, Repr

/-- The concurrent calls share the socket and the mutex of the proxy. -/
structure Channel (Thread : Type*) where
  stream : List UInt8
  mMutex : Option Thread

/-- A call takes the lock, writes, and drops the lock when its scope ends. -/
inductive DoneCall where
  | lock
  | write (result : Int)
  | unlock
  deriving DecidableEq, Repr

/-- Each write transfers at least one byte. -/
def DoneCall.Positive : DoneCall → Prop
  | .write result => 1 ≤ result
  | _ => True

/-- The loop over the data ends when nothing is left. -/
def DonePc.inPayload (window : Window) : DonePc :=
  if window.count = 0 then .leave else .payload window

/-- After the loop over the header comes the loop over the data of a read. -/
def DonePc.inHeader (request : NBDRWReq) (window : Window) : DonePc :=
  if window.count ≠ 0 then .header window
  else if request.sendsData then .inPayload (.whole (toSizeT request.mSize.toInt))
  else .leave

/-- This is one step of one `Done` call. -/
def doneStep {Thread : Type*} [DecidableEq Thread] (host : Endian) (thread : Thread) (request : NBDRWReq)
    (channel : Channel Thread) (pc : DonePc) (call : DoneCall) : Option (Channel Thread × DonePc) :=
  match pc, call with
  | .enter, .lock =>
      if channel.mMutex = none then
        some ({ channel with mMutex := some thread }, .inHeader request (.whole sizeofNbdReply))
      else none
  | .header window, .write result =>
      (sendIteration channel.stream (Buffer.ofBytes (replyHeader host request)) window result).map
        fun sent => ({ channel with stream := sent.1 }, .inHeader request sent.2)
  | .payload window, .write result =>
      (sendIteration channel.stream request.mData window result).map
        fun sent => ({ channel with stream := sent.1 }, .inPayload sent.2)
  | .leave, .unlock => some ({ channel with mMutex := none }, .returned)
  | _, _ => none

/-- A call is inside the critical section while it holds the lock. -/
def DonePc.inside : DonePc → Bool
  | .enter | .returned => false
  | .header _ | .payload _ | .leave => true

/-- These bytes of the reply are still to be written. -/
def DonePc.rest (host : Endian) (request : NBDRWReq) : DonePc → List UInt8
  | .enter => request.reply
  | .header window =>
      (Buffer.ofBytes (replyHeader host request)).load window.buf window.count ++ request.payload
  | .payload window => request.mData.load window.buf window.count
  | .leave | .returned => []

/-- The windows of both loops are small enough for the `int` result of a call. -/
def DonePc.Small : DonePc → Prop
  | .header window | .payload window => window.count < 2 ^ 31
  | _ => True

section
variable (host : Endian)

theorem DonePc.inPayload_spec (request : NBDRWReq) {window : Window} (small : window.count < 2 ^ 31) :
    (DonePc.inPayload window).inside ∧ (DonePc.inPayload window).Small ∧
      (DonePc.inPayload window).rest host request = request.mData.load window.buf window.count := by
  unfold inPayload
  split
  · next empty => simp [inside, Small, rest, empty]
  · exact ⟨rfl, small, rfl⟩

variable {request : NBDRWReq}

theorem DonePc.inHeader_spec (nonnegative : 0 ≤ request.mSize.toInt) {window : Window}
    (small : window.count < 2 ^ 31) :
    (DonePc.inHeader request window).inside ∧ (DonePc.inHeader request window).Small ∧
      (DonePc.inHeader request window).rest host request =
        (Buffer.ofBytes (replyHeader host request)).load window.buf window.count ++ request.payload := by
  unfold inHeader
  split
  · exact ⟨rfl, small, rfl⟩
  · next ended =>
      have empty : window.count = 0 := by omega
      have upper := request.mSize.toInt_lt
      have size : toSizeT request.mSize.toInt = request.mSize.toInt.toNat :=
        toSizeT_of_fits nonnegative (by omega)
      rw [empty, Buffer.load_zero, List.nil_append, NBDRWReq.payload, size]
      split
      · have fits : (Window.whole request.mSize.toInt.toNat).count < 2 ^ 31 := by
          simp only [Window.whole]
          omega
        exact inPayload_spec host request fits
      · exact ⟨rfl, trivial, rfl⟩

/-- One loop iteration moves the first bytes of the rest to the stream. -/
theorem sendIteration_rest {stream sent : List UInt8} {memory : Buffer} {window next : Window} {result : Int}
    (small : window.count < 2 ^ 31) (positive : 1 ≤ result)
    (stepped : sendIteration stream memory window result = some (sent, next)) :
    next.count < 2 ^ 31 ∧ ∃ chunk, sent = stream ++ chunk ∧
      memory.load window.buf window.count = chunk ++ memory.load next.buf next.count := by
  obtain ⟨count, -, -, within, rfl, rfl⟩ := sendIteration_success small positive stepped
  refine ⟨by simp only; omega, memory.load window.buf count, rfl, ?_⟩
  have total : window.count = count + (window.count - count) := by omega
  rw [← Buffer.load_add]
  exact congrArg (memory.load window.buf) total

variable {host} {Thread : Type*} [DecidableEq Thread] {thread : Thread} {channel after : Channel Thread}
  {pc next : DonePc} {call : DoneCall}

/-- This relation lists what one step of a call can do. -/
inductive DoneMoves (host : Endian) (thread : Thread) (request : NBDRWReq) (channel : Channel Thread) :
    DonePc → DoneCall → Channel Thread → DonePc → Prop
  | lock (free : channel.mMutex = none) :
      DoneMoves host thread request channel .enter .lock { channel with mMutex := some thread }
        (.inHeader request (.whole sizeofNbdReply))
  | header (window rest : Window) (result : Int) (sent : List UInt8)
      (iterated : sendIteration channel.stream (Buffer.ofBytes (replyHeader host request)) window result =
        some (sent, rest)) :
      DoneMoves host thread request channel (.header window) (.write result) { channel with stream := sent }
        (.inHeader request rest)
  | payload (window rest : Window) (result : Int) (sent : List UInt8)
      (iterated : sendIteration channel.stream request.mData window result = some (sent, rest)) :
      DoneMoves host thread request channel (.payload window) (.write result) { channel with stream := sent }
        (.inPayload rest)
  | unlock : DoneMoves host thread request channel .leave .unlock { channel with mMutex := none } .returned

/-- Each step of a call is one of the listed moves. -/
theorem doneMoves_of_doneStep (stepped : doneStep host thread request channel pc call = some (after, next)) :
    DoneMoves host thread request channel pc call after next := by
  unfold doneStep at stepped
  split at stepped
  · split at stepped
    · next free =>
        obtain ⟨rfl, rfl⟩ := Prod.mk.inj (Option.some.inj stepped)
        exact .lock free
    · cases stepped
  · next window result =>
      obtain ⟨⟨sent, rest⟩, iterated, same⟩ := Option.map_eq_some_iff.mp stepped
      obtain ⟨rfl, rfl⟩ := Prod.mk.inj same
      exact .header window rest result sent iterated
  · next window result =>
      obtain ⟨⟨sent, rest⟩, iterated, same⟩ := Option.map_eq_some_iff.mp stepped
      obtain ⟨rfl, rfl⟩ := Prod.mk.inj same
      exact .payload window rest result sent iterated
  · obtain ⟨rfl, rfl⟩ := Prod.mk.inj (Option.some.inj stepped)
    exact .unlock
  · cases stepped

/-- A step takes the lock before the reply, moves a chunk of the reply, or drops the lock after it. -/
theorem doneStep_cases (nonnegative : 0 ≤ request.mSize.toInt) (small : pc.Small)
    (positive : call.Positive)
    (stepped : doneStep host thread request channel pc call = some (after, next)) :
    next.Small ∧
      ((pc = .enter ∧ channel.mMutex = none ∧ after = { channel with mMutex := some thread } ∧
          next.inside ∧ next.rest host request = request.reply) ∨
        (pc.inside ∧ pc ≠ .leave ∧ next.inside ∧ ∃ chunk,
          after = { channel with stream := channel.stream ++ chunk } ∧
          pc.rest host request = chunk ++ next.rest host request) ∨
        (pc = .leave ∧ after = { channel with mMutex := none } ∧ next = .returned)) := by
  cases doneMoves_of_doneStep stepped with
  | lock free =>
      have fits : (Window.whole sizeofNbdReply).count < 2 ^ 31 := by decide
      obtain ⟨inside, fits, rest⟩ := DonePc.inHeader_spec host nonnegative fits
      refine ⟨fits, Or.inl ⟨rfl, free, rfl, inside, ?_⟩⟩
      have header := Buffer.load_ofBytes (replyHeader host request)
      rw [length_replyHeader] at header
      rw [rest, NBDRWReq.reply_eq host, Window.whole, header]
  | header window later result sent iterated =>
      obtain ⟨less, chunk, rfl, split⟩ := sendIteration_rest small positive iterated
      obtain ⟨inside, fits, rest⟩ := DonePc.inHeader_spec host nonnegative less
      refine ⟨fits, Or.inr (Or.inl ⟨rfl, by simp, inside, chunk, rfl, ?_⟩)⟩
      rw [rest, DonePc.rest, split, List.append_assoc]
  | payload window later result sent iterated =>
      obtain ⟨less, chunk, rfl, split⟩ := sendIteration_rest small positive iterated
      obtain ⟨inside, fits, rest⟩ := DonePc.inPayload_spec host request less
      refine ⟨fits, Or.inr (Or.inl ⟨rfl, by simp, inside, chunk, rfl, ?_⟩)⟩
      rw [rest, DonePc.rest, split]
  | unlock => exact ⟨trivial, Or.inr (Or.inr ⟨rfl, rfl, rfl⟩)⟩

/-- The loop over the data ends before the lock is dropped. -/
theorem DonePc.inPayload_ne_returned (window : Window) : DonePc.inPayload window ≠ .returned := by
  unfold inPayload
  split <;> simp

/-- The loop over the header ends in the loop over the data or before the lock is dropped. -/
theorem DonePc.inHeader_ne_returned (request : NBDRWReq) (window : Window) :
    DonePc.inHeader request window ≠ .returned := by
  unfold inHeader
  split_ifs <;> simp [inPayload_ne_returned]

/-- A call returns exactly by dropping the lock. -/
theorem doneStep_returned_iff (stepped : doneStep host thread request channel pc call = some (after, next)) :
    next = .returned ↔ pc = .leave := by
  cases doneMoves_of_doneStep stepped with
  | lock free => simp [DonePc.inHeader_ne_returned]
  | header window rest result sent iterated => simp [DonePc.inHeader_ne_returned]
  | payload window rest result sent iterated => simp [DonePc.inPayload_ne_returned]
  | unlock => simp

/-- One iteration on a socket never takes bytes off the stream. -/
theorem sendIteration_stream {stream sent : List UInt8} {memory : Buffer} {window next : Window} {result : Int}
    (stepped : sendIteration stream memory window result = some (sent, next)) : stream <+: sent := by
  unfold sendIteration at stepped
  split at stepped
  · obtain ⟨rfl, -⟩ := Prod.mk.inj (Option.some.inj stepped)
    exact List.prefix_append _ _
  · cases stepped

/-- A step only adds bytes to the stream. -/
theorem doneStep_stream (stepped : doneStep host thread request channel pc call = some (after, next)) :
    channel.stream <+: after.stream := by
  cases doneMoves_of_doneStep stepped with
  | lock free => exact List.prefix_rfl
  | header window rest result sent iterated => exact sendIteration_stream iterated
  | payload window rest result sent iterated => exact sendIteration_stream iterated
  | unlock => exact List.prefix_rfl

/-- The sent bytes are the written part of the header, or they begin with the whole header. -/
def DonePc.Heads (host : Endian) (request : NBDRWReq) (sent : List UInt8) : DonePc → Prop
  | .enter => sent = []
  | .header window => window.count < 2 ^ 31 ∧
      sent ++ (Buffer.ofBytes (replyHeader host request)).load window.buf window.count = replyHeader host request
  | .payload _ | .leave | .returned => replyHeader host request <+: sent

theorem DonePc.inPayload_heads {sent : List UInt8} (whole : replyHeader host request <+: sent) (window : Window) :
    (DonePc.inPayload window).Heads host request sent := by
  unfold inPayload
  split <;> exact whole

theorem DonePc.inHeader_heads {sent : List UInt8} (window : Window) (small : window.count < 2 ^ 31)
    (whole : sent ++ (Buffer.ofBytes (replyHeader host request)).load window.buf window.count =
      replyHeader host request) :
    (DonePc.inHeader request window).Heads host request sent := by
  unfold inHeader
  split
  · exact ⟨small, whole⟩
  · next ended =>
      have empty : window.count = 0 := by omega
      rw [empty, Buffer.load_zero, List.append_nil] at whole
      have begun : replyHeader host request <+: sent := whole ▸ List.prefix_rfl
      split
      · exact inPayload_heads begun _
      · exact begun

/-- Each step sends the header before the data, for data of any size. -/
theorem DonePc.Heads.step {sent : List UInt8} (heads : pc.Heads host request sent) (positive : call.Positive)
    (stepped : doneStep host thread request channel pc call = some (after, next)) :
    next.Heads host request (sent ++ after.stream.drop channel.stream.length) := by
  cases doneMoves_of_doneStep stepped with
  | lock free =>
      obtain rfl : sent = [] := heads
      apply DonePc.inHeader_heads (.whole sizeofNbdReply) (by decide)
      have header := Buffer.load_ofBytes (replyHeader host request)
      rw [length_replyHeader] at header
      rw [List.drop_length, Window.whole, header]
      rfl
  | header window rest result written iterated =>
      obtain ⟨small, whole⟩ := heads
      obtain ⟨less, chunk, rfl, split⟩ := sendIteration_rest small positive iterated
      apply DonePc.inHeader_heads rest less
      rw [List.drop_left, List.append_assoc, ← split, whole]
  | payload window rest result written iterated =>
      exact DonePc.inPayload_heads (List.IsPrefix.trans heads (List.prefix_append _ _)) _
  | unlock => exact List.IsPrefix.trans heads (List.prefix_append _ _)

/-- A call that runs from its start to its end puts exactly its reply on the stream. -/
theorem doneRun_stream (nonnegative : 0 ≤ request.mSize.toInt) {calls : List DoneCall}
    (positive : ∀ call ∈ calls, call.Positive)
    (reached : run (fun state call => doneStep host thread request state.1 state.2 call) (channel, .enter) calls =
      some (after, .returned)) :
    after.stream = channel.stream ++ request.reply := by
  let total := channel.stream ++ request.reply
  have kept := run_invariant_of_meets
    (fun state => state.2.Small ∧ state.1.stream ++ state.2.rest host request = total)
    (fun state call next holds condition stepped => ?_) ⟨trivial, rfl⟩ (meets_of_forall positive _) reached
  · simpa [DonePc.rest, total] using kept.2
  · obtain ⟨small, whole⟩ := holds
    obtain ⟨fits, ⟨atEnter, -, locked, -, rest⟩ | ⟨-, -, -, chunk, moved, split⟩ | ⟨atLeave, unlocked, ended⟩⟩ :=
      doneStep_cases nonnegative small condition stepped
    · refine ⟨fits, ?_⟩
      rw [locked, rest, ← whole, atEnter, DonePc.rest]
    · refine ⟨fits, ?_⟩
      rw [moved, ← whole, split, List.append_assoc]
    · refine ⟨fits, ?_⟩
      rw [unlocked, ended, ← whole, atLeave]
      rfl

end

end DistributedNas.Proxy
