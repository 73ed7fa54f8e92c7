import DistributedNas.Proxy.Done
import Mathlib.Data.List.FinRange

/-
This file proves the integrity of the reply stream under concurrent `Done` calls.
-/

namespace DistributedNas.Proxy
open Library Posix

/-- This is a set of `Done` calls in progress on one proxy. -/
structure DoneCalls (count : Nat) where
  channel : Channel (Fin count)
  pcs : Fin count → DonePc

/-- Each thread is about to call `Done`, and nothing was written yet. -/
def DoneCalls.initial (count : Nat) : DoneCalls count := ⟨⟨[], none⟩, fun _ => .enter⟩

/-- One thread makes its next system call. -/
def DoneCalls.step (host : Endian) {count : Nat} (requests : Fin count → NBDRWReq)
    (state : DoneCalls count) (input : Fin count × DoneCall) : Option (DoneCalls count) :=
  (doneStep host input.1 (requests input.1) state.channel (state.pcs input.1) input.2).map
    fun result => ⟨result.1, Function.update state.pcs input.1 result.2⟩

section
variable (host : Endian) {count : Nat} (requests : Fin count → NBDRWReq)

/-- The calls follow a serial stream whose holder is the owner of the mutex. -/
structure Follows (state : DoneCalls count) (serial : SerialStream (Fin count) UInt8) : Prop where
  stream : serial.stream = state.channel.stream
  holder : serial.holder = state.channel.mMutex.map fun owner =>
    (owner, (state.pcs owner).rest host (requests owner))
  finished : ∀ thread, thread ∈ serial.finished ↔ state.pcs thread = .returned
  inside : ∀ thread, state.channel.mMutex = some thread ↔ (state.pcs thread).inside
  small : ∀ thread, (state.pcs thread).Small

/-- A state is sound when it follows a serial stream of whole replies. -/
def Sound (state : DoneCalls count) : Prop :=
  ∃ serial, Follows host requests state serial ∧
    SerialStream.Whole (fun thread => (requests thread).reply) serial

theorem sound_initial : Sound host requests (DoneCalls.initial count) := by
  refine ⟨.initial, ⟨rfl, rfl, ?_, ?_, ?_⟩, SerialStream.whole_initial⟩
  · simp [SerialStream.initial, DoneCalls.initial]
  · simp [DoneCalls.initial, DonePc.inside]
  · simp [DoneCalls.initial, DonePc.Small]

variable {host requests}

/-- A step of one thread keeps the relation when the other threads see no difference. -/
theorem Follows.update {state : DoneCalls count} {serial after : SerialStream (Fin count) UInt8}
    (follows : Follows host requests state serial) {thread : Fin count} {pc : DonePc}
    {channel : Channel (Fin count)} (fits : pc.Small) (stream : after.stream = channel.stream)
    (holder : after.holder = channel.mMutex.map fun owner =>
      (owner, (Function.update state.pcs thread pc owner).rest host (requests owner)))
    (finished : thread ∈ after.finished ↔ pc = .returned)
    (finishedOther : ∀ other, other ≠ thread → (other ∈ after.finished ↔ other ∈ serial.finished))
    (inside : channel.mMutex = some thread ↔ pc.inside)
    (insideOther : ∀ other, other ≠ thread →
      (channel.mMutex = some other ↔ state.channel.mMutex = some other)) :
    Follows host requests ⟨channel, Function.update state.pcs thread pc⟩ after := by
  refine ⟨stream, holder, fun other => ?_, fun other => ?_, fun other => ?_⟩ <;>
    rcases eq_or_ne other thread with rfl | different
  · simpa using finished
  · simpa [Function.update_of_ne different, finishedOther other different] using follows.finished other
  · simpa using inside
  · simpa [Function.update_of_ne different, insideOther other different] using follows.inside other
  · simpa using fits
  · simpa [Function.update_of_ne different] using follows.small other

/-- Each step of a call is one step of the serial stream. -/
theorem Follows.step (nonnegative : ∀ thread, 0 ≤ (requests thread).mSize.toInt)
    {state next : DoneCalls count} {serial : SerialStream (Fin count) UInt8}
    (follows : Follows host requests state serial) {input : Fin count × DoneCall}
    (positive : input.2.Positive) (stepped : state.step host requests input = some next) :
    ∃ after, SerialStream.Step (fun thread => (requests thread).reply) serial after ∧
      Follows host requests next after := by
  obtain ⟨thread, call⟩ := input
  obtain ⟨⟨channel, pc⟩, moved, rfl⟩ := Option.map_eq_some_iff.mp stepped
  obtain ⟨fits, enters | emits | leaves⟩ :=
    doneStep_cases (nonnegative thread) (follows.small thread) positive moved
  all_goals obtain ⟨stream, holder, finished⟩ := serial
  · obtain ⟨atEnter, free, rfl, inside, rest⟩ := enters
    have unheld : holder = none := follows.holder.trans (by rw [free, Option.map_none])
    have unfinished : thread ∉ finished := by
      rw [follows.finished, atEnter]
      simp
    have running : pc ≠ .returned := by
      rintro rfl
      cases inside
    subst unheld
    refine ⟨_, .acquire thread unfinished, follows.update fits follows.stream (by simp [rest])
      (by simp [unfinished, running]) (fun _ _ => Iff.rfl) (by simp [inside]) fun other different => ?_⟩
    simp [free, different.symm]
  · obtain ⟨before, -, inside, chunk, rfl, rest⟩ := emits
    have owned : state.channel.mMutex = some thread := (follows.inside thread).mpr before
    have held : holder = some (thread, chunk ++ pc.rest host (requests thread)) :=
      follows.holder.trans (by rw [owned, Option.map_some, rest])
    have unfinished : thread ∉ finished := by
      rw [follows.finished]
      intro ended
      rw [ended] at before
      cases before
    have running : pc ≠ .returned := by
      rintro rfl
      cases inside
    subst held
    refine ⟨_, .emit thread chunk _, follows.update fits (by simp [← follows.stream]) (by simp [owned])
      (by simp [unfinished, running]) (fun _ _ => Iff.rfl) (by simp [owned, inside]) fun _ _ => Iff.rfl⟩
  · obtain ⟨atLeave, rfl, rfl⟩ := leaves
    have owned : state.channel.mMutex = some thread :=
      (follows.inside thread).mpr (by rw [atLeave]; rfl)
    have held : holder = some (thread, []) :=
      follows.holder.trans (by rw [owned, Option.map_some, atLeave, DonePc.rest])
    subst held
    refine ⟨_, .release thread, follows.update fits follows.stream rfl (by simp) (fun other different => ?_)
      (by simp [DonePc.inside]) fun other different => ?_⟩
    · simp [different]
    · simp [owned, different.symm]

/-- Each state that the calls reach is sound. -/
theorem sound_run (nonnegative : ∀ thread, 0 ≤ (requests thread).mSize.toInt)
    {inputs : List (Fin count × DoneCall)} (positive : ∀ input ∈ inputs, input.2.Positive)
    {state : DoneCalls count}
    (reached : run (DoneCalls.step host requests) (.initial count) inputs = some state) :
    Sound host requests state := by
  refine run_invariant_of_meets (Sound host requests) (fun _ _ _ sound positive stepped => ?_)
    (sound_initial host requests) (meets_of_forall positive _) reached
  obtain ⟨serial, follows, whole⟩ := sound
  obtain ⟨after, step, next⟩ := follows.step nonnegative positive stepped
  exact ⟨after, next, whole.step step⟩

end

/-- The client knows the type and the length of each request it has sent. -/
abbrev ClientTable := List UInt8 → Option (Int32 × Nat)

/-- The client reads a reply header, looks up its handle, and reads the data the table announces. -/
def parseReplies (table : ClientTable) : Nat → List UInt8 → Option (List (List UInt8 × List UInt8))
  | 0, stream => if stream = [] then some [] else none
  | fuel + 1, stream =>
      if stream = [] then some []
      else if slice stream 0 8 = bigEndian 4 nbdReplyMagic.toNat ++ bigEndian 4 0 then
        (table (slice stream 8 8)).bind fun entry =>
          let size := if entry.1 == Int32.ofInt nbdCmdRead.toNat then entry.2 else 0
          if sizeofNbdReply + size ≤ stream.length then
            (parseReplies table fuel (stream.drop (sizeofNbdReply + size))).map
              ((slice stream 8 8, slice stream sizeofNbdReply size) :: ·)
          else none
      else none

/-- The table of a set of requests finds each request by its handle. -/
def clientTable {count : Nat} (requests : Fin count → NBDRWReq) : ClientTable := fun handle =>
  ((List.finRange count).find? fun thread => (requests thread).mHandle.toList = handle).map fun thread =>
    ((requests thread).mType, (requests thread).mSize.toInt.toNat)

/-- Distinct handles make each lookup find the request itself. -/
theorem clientTable_handle {count : Nat} {requests : Fin count → NBDRWReq}
    (distinct : Function.Injective fun thread => (requests thread).mHandle) (thread : Fin count) :
    clientTable requests (requests thread).mHandle.toList =
      some ((requests thread).mType, (requests thread).mSize.toInt.toNat) := by
  unfold clientTable
  cases found : (List.finRange count).find? fun other =>
      (requests other).mHandle.toList = (requests thread).mHandle.toList with
  | none => simpa using List.find?_eq_none.mp found thread (List.mem_finRange thread)
  | some other =>
      have same := List.find?_some found
      simp only [decide_eq_true_eq, Vector.toList_inj] at same
      rw [distinct same, Option.map_some]

theorem NBDRWReq.length_payload (request : NBDRWReq) :
    request.payload.length = if request.sendsData then request.mSize.toInt.toNat else 0 := by
  unfold payload
  split <;> simp

/-- The client takes one whole reply off the stream. -/
theorem parseReplies_reply {table : ClientTable} {request : NBDRWReq}
    (known : table request.mHandle.toList = some (request.mType, request.mSize.toInt.toNat))
    (fuel : Nat) (rest : List UInt8) :
    parseReplies table (fuel + 1) (request.reply ++ rest) =
      (parseReplies table fuel rest).map ((request.mHandle.toList, request.payload) :: ·) := by
  let prologue := bigEndian 4 nbdReplyMagic.toNat ++ bigEndian 4 0
  have shape : request.reply ++ rest = prologue ++ request.mHandle.toList ++ (request.payload ++ rest) := by
    simp [NBDRWReq.reply, prologue]
  have start : slice (request.reply ++ rest) 0 8 = prologue := by
    rw [shape, List.append_assoc]
    simpa [prologue] using slice_middle [] prologue (request.mHandle.toList ++ (request.payload ++ rest))
  have handle : slice (request.reply ++ rest) 8 8 = request.mHandle.toList := by
    rw [shape]
    simpa [prologue] using slice_middle prologue request.mHandle.toList (request.payload ++ rest)
  have width : (prologue ++ request.mHandle.toList).length = sizeofNbdReply := by
    simp [prologue, sizeofNbdReply]
  have data : slice (request.reply ++ rest) sizeofNbdReply request.payload.length = request.payload := by
    rw [shape, ← List.append_assoc, ← width]
    exact slice_middle _ _ _
  have later : (request.reply ++ rest).drop (sizeofNbdReply + request.payload.length) = rest := by
    rw [shape, ← width, ← List.drop_drop, List.drop_left, List.drop_left]
  have size : (if request.mType == Int32.ofInt nbdCmdRead.toNat then request.mSize.toInt.toNat else 0) =
      request.payload.length := request.length_payload.symm
  have nonempty : request.reply ++ rest ≠ [] := by
    intro empty
    have total := congrArg List.length shape
    rw [empty, List.length_append, width, List.length_nil, sizeofNbdReply] at total
    omega
  have total : sizeofNbdReply + request.payload.length ≤ (request.reply ++ rest).length := by
    rw [shape, List.length_append, width, List.length_append]
    omega
  rw [parseReplies, if_neg nonempty, if_pos start, handle, known, Option.bind_some]
  simp only [size]
  rw [if_pos total, later, data]

/-- The client recovers each reply with its data from a list of whole replies. -/
theorem parseReplies_flatMap {count : Nat} {requests : Fin count → NBDRWReq}
    (distinct : Function.Injective fun thread => (requests thread).mHandle)
    (order : List (Fin count)) {fuel : Nat} (enough : order.length ≤ fuel) :
    parseReplies (clientTable requests) fuel (order.flatMap fun thread => (requests thread).reply) =
      some (order.map fun thread => ((requests thread).mHandle.toList, (requests thread).payload)) := by
  induction order generalizing fuel with
  | nil => cases fuel <;> simp [parseReplies]
  | cons thread order ih =>
      cases fuel with
      | zero => simp at enough
      | succ fuel =>
          rw [List.flatMap_cons, parseReplies_reply (clientTable_handle distinct thread),
            ih (by simpa using enough)]
          rfl

/-- Each reply holds at least its header, so the stream bounds the number of replies. -/
theorem length_le_length_replies {count : Nat} (requests : Fin count → NBDRWReq) (order : List (Fin count)) :
    order.length ≤ (order.flatMap fun thread => (requests thread).reply).length := by
  induction order with
  | nil => simp
  | cons thread order ih =>
      have header := length_replyHeader .bigEndian (requests thread)
      rw [List.flatMap_cons, List.length_append, NBDRWReq.reply_eq .bigEndian, List.length_append, header,
        List.length_cons, sizeofNbdReply]
      omega

/-- The threads outside a list without duplicates complete it to an order of all threads. -/
theorem exists_order {count : Nat} {taken : List (Fin count)} (distinct : taken.Nodup) :
    ∃ later, (taken ++ later).Perm (List.finRange count) := by
  refine ⟨(List.finRange count).filter (· ∉ taken), ?_⟩
  refine (List.perm_ext_iff_of_nodup ?_ (List.nodup_finRange count)).mpr fun thread => ?_
  · refine List.nodup_append.mpr ⟨distinct, (List.nodup_finRange count).filter _, ?_⟩
    rintro thread inside other outside rfl
    simp_all
  · simpa using em (thread ∈ taken)

/-- The stream is at each moment a prefix of whole replies, and it is all of them at the end. -/
theorem replyStream_integrity (host : Endian) {count : Nat} (requests : Fin count → NBDRWReq)
    (nonnegative : ∀ thread, 0 ≤ (requests thread).mSize.toInt)
    (inputs : List (Fin count × DoneCall)) (positive : ∀ input ∈ inputs, input.2.Positive)
    (state : DoneCalls count)
    (reached : run (DoneCalls.step host requests) (.initial count) inputs = some state) :
    ∃ order : List (Fin count), order.Perm (List.finRange count) ∧
      state.channel.stream <+: order.flatMap (fun thread => (requests thread).reply) ∧
      ((∀ thread, state.pcs thread = .returned) →
        state.channel.stream = order.flatMap (fun thread => (requests thread).reply) ∧
        ((Function.Injective fun thread => (requests thread).mHandle) →
          parseReplies (clientTable requests) state.channel.stream.length state.channel.stream =
            some (order.map fun thread => ((requests thread).mHandle.toList, (requests thread).payload)))) := by
  obtain ⟨serial, follows, whole⟩ := sound_run nonnegative positive reached
  obtain ⟨later, order⟩ := exists_order whole.distinct
  refine ⟨_, order, follows.stream ▸ whole.isPrefix later, fun ended => ?_⟩
  have unowned : state.channel.mMutex = none := by
    apply Option.eq_none_iff_forall_ne_some.mpr
    intro thread owned
    have inside := (follows.inside thread).mp owned
    rw [ended thread] at inside
    cases inside
  have unheld : serial.holder = none := by rw [follows.holder, unowned, Option.map_none]
  have all : later = [] := by
    apply List.eq_nil_iff_forall_not_mem.mpr
    intro thread member
    have taken : thread ∈ serial.order := by
      simp [SerialStream.order, unheld, (follows.finished thread).mpr (ended thread)]
    exact (List.nodup_append.mp (order.nodup_iff.mpr (List.nodup_finRange count))).2.2 thread taken thread
      member rfl
  have messages := whole.messages
  rw [follows.stream, SerialStream.pending, unheld, Option.map_none, Option.getD_none,
    List.append_nil] at messages
  rw [all, List.append_nil]
  refine ⟨messages, fun distinct => ?_⟩
  rw [messages]
  exact parseReplies_flatMap distinct _ (length_le_length_replies requests _)

/-- Two threads answer a read of one byte and a write while their system calls interleave. -/
def sampleRequests : Fin 2 → NBDRWReq := fun thread =>
  { mType := Int32.ofInt thread.val, mSize := 1, mOffset := 0,
    mHandle := Vector.replicate 8 (UInt8.ofNat thread.val), mData := Buffer.ofBytes [7] }

def sampleCalls : List (Fin 2 × DoneCall) :=
  [(1, .lock), (1, .write 9), (1, .write 7), (1, .unlock), (0, .lock), (0, .write 16), (0, .write 1),
    (0, .unlock)]

theorem replyStream_integrity_sample :
    ∃ state, run (DoneCalls.step .littleEndian sampleRequests) (.initial 2) sampleCalls = some state ∧
      ∃ order : List (Fin 2), order.Perm (List.finRange 2) ∧
        state.channel.stream = order.flatMap (fun thread => (sampleRequests thread).reply) ∧
        parseReplies (clientTable sampleRequests) state.channel.stream.length state.channel.stream =
          some (order.map fun thread => ((sampleRequests thread).mHandle.toList, (sampleRequests thread).payload)) := by
  have positive : ∀ input ∈ sampleCalls, input.2.Positive := by
    simp [sampleCalls, DoneCall.Positive]
  obtain ⟨state, reached, ended⟩ : ∃ state,
      run (DoneCalls.step .littleEndian sampleRequests) (.initial 2) sampleCalls = some state ∧
        ∀ thread, state.pcs thread = .returned := by decide
  obtain ⟨order, all, -, whole⟩ := replyStream_integrity .littleEndian sampleRequests (by decide)
    sampleCalls positive state reached
  obtain ⟨stream, parsed⟩ := whole ended
  exact ⟨state, reached, order, all, stream, parsed (by decide)⟩

end DistributedNas.Proxy
