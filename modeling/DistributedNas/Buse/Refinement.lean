import DistributedNas.Buse.Device

/-
This file proves that `serve_nbd` answers each stream of requests as its block device does.
-/

namespace DistributedNas.Buse
open Library Posix Proxy

/-- The loaded header has the fields of a request. -/
structure Decodes (platform : Platform) (header : NbdRequest) (request : DeviceRequest) : Prop where
  type : ntohl platform.host header.type = request.type
  handle : header.handle = request.handle
  start : platform.ntohll header.fromOffset = request.fromOffset
  len : ntohl platform.host header.len = request.len

/-- The requests done come before the rest, none of them is a disconnect, and the device could do each of them. -/
structure Split {Content : Type*} (specification : Specification Content) (start : Content)
    (requests done rest : List DeviceRequest) : Prop where
  all : requests = done ++ rest
  goes : ∀ request ∈ done, request.type ≠ nbdCmdDisc
  fits : specification.Along specification.Fits start done

/-- These bytes are in the windows of the parts that are still to be written. -/
def outstanding (parts : List Part) : List UInt8 :=
  parts.flatMap fun part => part.memory.load part.window.buf part.window.count

section
variable {Device Content : Type*} (specification : Specification Content) (content : Device → Content)
  (platform : Platform) (start : Content) (requests : List DeviceRequest)

/-- At each place the answers to the requests done are sent or outstanding, and the device has their effect. -/
inductive Stands (server : Server Device) : Prop
  | request (done rest : List DeviceRequest) (split : Split specification start requests done rest)
      (pc : server.pc = .request) (pending : server.pending = rest.flatMap DeviceRequest.bytes)
      (answered : specification.Answered start done server.sent [] (content server.device))
  | payload (done : List DeviceRequest) (request : DeviceRequest) (rest : List DeviceRequest)
      (split : Split specification start requests done (request :: rest)) (header : NbdRequest) (chunk : Buffer)
      (moved : Nat) (pc : server.pc = .payload header chunk ⟨moved, request.length - moved⟩)
      (decodes : Decodes platform header request) (writes : request.type = nbdCmdWrite)
      (remains : moved < request.length) (stored : chunk.load 0 moved = request.payload.take moved)
      (pending : server.pending = request.payload.drop moved ++ rest.flatMap DeviceRequest.bytes)
      (answered : specification.Answered start done server.sent [] (content server.device))
  | operate (done : List DeviceRequest) (request : DeviceRequest) (rest : List DeviceRequest)
      (split : Split specification start requests done (request :: rest)) (header : NbdRequest) (chunk : Buffer)
      (pc : server.pc = .operate header chunk) (decodes : Decodes platform header request)
      (stored : request.type = nbdCmdWrite → chunk.load 0 request.length = request.payload)
      (pending : server.pending = rest.flatMap DeviceRequest.bytes)
      (answered : specification.Answered start done server.sent [] (content server.device))
  | send (done rest : List DeviceRequest) (split : Split specification start requests done rest) (part : Part)
      (later : List Part) (pc : server.pc = .send part later) (remains : part.window.count ≠ 0)
      (small : ∀ other ∈ part :: later, other.window.count < 2 ^ 32)
      (pending : server.pending = rest.flatMap DeviceRequest.bytes)
      (answered : specification.Answered start done server.sent (outstanding (part :: later)) (content server.device))
  | exit (done rest : List DeviceRequest) (split : Split specification start requests done rest) (status : Nat)
      (pc : server.pc = .exit status) (ended : status = 0 → done = untilDisc requests)
      (answered : specification.Answered start done server.sent [] (content server.device))
  | aborted (done rest : List DeviceRequest) (split : Split specification start requests done rest)
      (pc : server.pc = .aborted) (unsent : List UInt8)
      (symbols : server.sent ++ unsent = specification.transcript start done)
      (partly : content server.device = specification.states start done ∨ ∃ request later, rest = request :: later ∧
        specification.Torn (specification.states start done) request (content server.device))
  | undefined (done : List DeviceRequest) (request : DeviceRequest) (rest : List DeviceRequest)
      (split : Split specification start requests done (request :: rest)) (pc : server.pc = .undefined)
      (moves : request.type = nbdCmdRead ∨ request.type = nbdCmdWrite)
      (stray : ¬ specification.Fits (content server.device) request)
      (answered : specification.Answered start done server.sent [] (content server.device))

variable {specification content platform start requests} {aop : BuseOperations Device} {fresh : Buffer}
  {server next : Server Device} {call : ServeCall} {done rest : List DeviceRequest}

/-- One more request that is no disconnect is done. -/
theorem Split.snoc {request : DeviceRequest} (split : Split specification start requests done (request :: rest))
    (other : request.type ≠ nbdCmdDisc) (able : specification.Fits (specification.states start done) request) :
    Split specification start requests (done ++ [request]) rest where
  all := by rw [split.all, List.append_assoc, List.singleton_append]
  goes := by
    intro earlier member
    rcases List.mem_append.mp member with before | now
    · exact split.goes earlier before
    · exact List.mem_singleton.mp now ▸ other
  fits := (specification.along_append _ start done [request]).mpr ⟨split.fits, able, trivial⟩

/-- At the end of the stream, or before a disconnect, the requests done are all that are answered. -/
theorem Split.untilDisc (split : Split specification start requests done rest)
    (ends : rest = [] ∨ ∃ request later, rest = request :: later ∧ request.type = nbdCmdDisc) :
    done = untilDisc requests := by
  have goes : ∀ request ∈ done, decide (request.type ≠ nbdCmdDisc) = true :=
    fun request member => decide_eq_true (split.goes request member)
  rw [Buse.untilDisc, split.all, List.takeWhile_append_of_pos goes]
  rcases ends with rfl | ⟨request, later, rfl, disconnects⟩
  · simp
  · simp [disconnects]

/-- The requests done are among those that are answered. -/
theorem Split.isPrefix (split : Split specification start requests done rest) : done <+: Buse.untilDisc requests := by
  have goes : ∀ request ∈ done, decide (request.type ≠ nbdCmdDisc) = true :=
    fun request member => decide_eq_true (split.goes request member)
  rw [Buse.untilDisc, split.all, List.takeWhile_append_of_pos goes]
  exact List.prefix_append _ _

/-- A next request that is no disconnect is among those that are answered. -/
theorem Split.isPrefix_snoc {request : DeviceRequest}
    (split : Split specification start requests done (request :: rest)) (other : request.type ≠ nbdCmdDisc) :
    done ++ [request] <+: Buse.untilDisc requests := by
  have goes : ∀ request ∈ done, decide (request.type ≠ nbdCmdDisc) = true :=
    fun request member => decide_eq_true (split.goes request member)
  rw [Buse.untilDisc, split.all, List.takeWhile_append_of_pos goes, List.prefix_append_right_inj]
  simp [other]

/-- The state after the loops of `write_all` sends what is outstanding, or it is at the next request. -/
theorem stands_sending (split : Split specification start requests done rest) {parts : List Part} (pc : server.pc = .sending parts)
    (small : ∀ part ∈ parts, part.window.count < 2 ^ 32) (pending : server.pending = rest.flatMap DeviceRequest.bytes)
    (answered : specification.Answered start done server.sent (outstanding parts) (content server.device)) :
    Stands specification content platform start requests server := by
  induction parts with
  | nil => exact .request done rest split pc pending answered
  | cons part later ih =>
      unfold ServePc.sending at pc
      split at pc
      · next empty =>
          apply ih pc (fun other member => small other (List.mem_cons_of_mem part member))
          have nothing : outstanding (part :: later) = outstanding later := by
            simp [outstanding, empty]
          rwa [nothing] at answered
      · next remains => exact .send done rest split part later pc remains small pending answered

/-- An assertion fails between the steps of an operation. -/
theorem stands_aborted (split : Split specification start requests done rest) (pc : server.pc = .aborted) {unsent : List UInt8}
    (answered : specification.Answered start done server.sent unsent (content server.device)) :
    Stands specification content platform start requests server :=
  .aborted done rest split pc unsent answered.symbols (Or.inl answered.state)

/-- The two conversions of a word undo each other. -/
theorem htonl_ntohl (host : Endian) (value : UInt32) : htonl host (ntohl host value) = value := by
  cases host with
  | bigEndian => rfl
  | littleEndian =>
      have swapped : byteSwap 4 value.toNat < 2 ^ 32 := byteSwap_lt 4 value.toNat
      simp only [ntohl, htonl, UInt32.toNat_ofNat', Nat.mod_eq_of_lt swapped]
      rw [byteSwap_byteSwap 4 value.toNat_lt, UInt32.ofNat_toNat]

/-- The buffer that received a header decodes to the fields and the magic number that were sent. -/
theorem decodes_header (agrees : platform.Agrees) (request : DeviceRequest) {memory : Buffer}
    (stored : memory.load 0 sizeofNbdRequest = request.header) :
    Decodes platform (.ofMemory platform.host memory) request ∧
      (NbdRequest.ofMemory platform.host memory).magic = htonl platform.host nbdRequestMagic := by
  obtain ⟨type, handle, start, len⟩ := NbdRequest.ofMemory_header platform.host request.toWireRequest stored
  refine ⟨⟨type, handle, (agrees.ntohll _).trans start, len⟩, ?_⟩
  have magic := load_eq_slice stored 0 4 (by decide)
  have first : slice request.header 0 4 = Library.bigEndian 4 request.magic.toNat := by
    simpa [WireRequest.header] using slice_middle [] (Library.bigEndian 4 request.magic.toNat)
      (Library.bigEndian 4 request.type.toNat ++ request.handle.toList ++
        Library.bigEndian 8 request.fromOffset.toNat ++ Library.bigEndian 4 request.len.toNat)
  rw [Nat.cast_zero, first] at magic
  have decoded := ntohl_fromMemory platform.host request.magic
  rw [← magic] at decoded
  rw [← request.started, ← decoded, htonl_ntohl]
  rfl

/-- A reply without an error is the success reply of its request. -/
theorem nbdReply_success {header : NbdRequest} {request : DeviceRequest} (decodes : Decodes platform header request)
    {error : UInt32} (none : error = 0) : nbdReply platform.host error header.handle = request.success := by
  have zero : platform.host.toMemory 4 0 = Library.bigEndian 4 0 := by
    cases platform.host <;> rfl
  rw [nbdReply, toMemory_htonl, none, decodes.handle]
  exact congrArg (_ ++ · ++ _) zero

/-- An operation that ended is answered with the reply of its request and these parts. -/
theorem stands_answer {request : DeviceRequest} (split : Split specification start requests done (request :: rest))
    {header : NbdRequest} (decodes : Decodes platform header request) (goes : request.type ≠ nbdCmdDisc)
    (pending : server.pending = rest.flatMap DeviceRequest.bytes)
    (answered : specification.Answered start done server.sent [] (content server.device)) {error : UInt32}
    (none : error = 0) (able : specification.Fits (content server.device) request) {device : Device}
    (moved : content device = specification.next (content server.device) request)
    {parts : List Part} (small : ∀ part ∈ parts, part.window.count < 2 ^ 32)
    (answer : request.success ++ outstanding parts = specification.answer (content server.device) request) :
    Stands specification content platform start requests (server.answer platform.host header error device parts) := by
  have size : (nbdReply platform.host error header.handle).length = sizeofNbdReply := by
    rw [nbdReply_success decodes none]
    simp [DeviceRequest.success, sizeofNbdReply]
  refine stands_sending (split.snoc goes (answered.state ▸ able)) rfl ?_ pending ?_
  · intro part member
    rcases List.mem_cons.mp member with rfl | later
    · show sizeofNbdReply < 2 ^ 32
      decide
    · exact small part later
  · have extended := answered.answer request
    have loaded := Buffer.load_ofBytes (nbdReply platform.host error header.handle)
    rw [size] at loaded
    have whole : outstanding (.whole (.ofBytes (nbdReply platform.host error header.handle)) sizeofNbdReply :: parts) =
        [] ++ specification.answer (content server.device) request := by
      rw [List.nil_append, ← answer, ← nbdReply_success decodes none, ← loaded]
      rfl
    rw [whole]
    exact moved ▸ extended

/-- A whole header of a write leads to its payload, and each other header leads to its operation. -/
theorem received_header (agrees : platform.Agrees) (request : DeviceRequest) {memory : Buffer}
    (stored : memory.load 0 sizeofNbdRequest = request.header) :
    ServePc.received platform fresh memory sizeofNbdRequest =
      if request.type = nbdCmdWrite then .inPayload (.ofMemory platform.host memory) fresh (.whole request.length)
      else .operate (.ofMemory platform.host memory) fresh := by
  obtain ⟨decodes, magic⟩ := decodes_header agrees request stored
  unfold ServePc.received
  rw [if_neg (by decide), if_neg (by decide), if_neg (by simp)]
  simp only [magic, ne_eq, not_true_eq_false, if_false, decodes.type, decodes.len]
  rfl

/-- After a whole header the server stands at the payload or at the operation of its request. -/
theorem stands_header (agrees : platform.Agrees) {request : DeviceRequest}
    (split : Split specification start requests done (request :: rest)) {memory : Buffer}
    (stored : memory.load 0 sizeofNbdRequest = request.header)
    (pc : server.pc = .received platform fresh memory sizeofNbdRequest)
    (pending : server.pending = request.payload ++ rest.flatMap DeviceRequest.bytes)
    (answered : specification.Answered start done server.sent [] (content server.device)) :
    Stands specification content platform start requests server := by
  obtain ⟨decodes, -⟩ := decodes_header agrees request stored
  have framed := request.framed
  rw [received_header agrees request stored] at pc
  split at pc
  · next writes =>
      rw [if_pos writes] at framed
      unfold ServePc.inPayload at pc
      split at pc
      · next empty =>
          have nothing : request.payload = [] := List.eq_nil_of_length_eq_zero (framed.trans empty)
          refine .operate done request rest split _ fresh pc decodes (fun _ => ?_) ?_ answered
          · have short : request.length = 0 := empty
            rw [short, nothing, Buffer.load_zero]
          · rw [pending, nothing, List.nil_append]
      · next remains =>
          refine .payload done request rest split _ fresh 0 pc decodes writes (Nat.pos_of_ne_zero remains) rfl ?_
            answered
          rw [pending, List.drop_zero]
  · next other =>
      rw [if_neg other, List.length_eq_zero_iff] at framed
      refine .operate done request rest split _ fresh pc decodes (fun writes => absurd writes other) ?_ answered
      rw [pending, framed, List.nil_append]

/-- The `read` of a header keeps the place among the requests. -/
theorem stands_request (agrees : platform.Agrees) (split : Split specification start requests done rest)
    (pending : server.pending = rest.flatMap DeviceRequest.bytes)
    (answered : specification.Answered start done server.sent [] (content server.device)) {result : Int}
    (outcome : ReadResult server.pending.length sizeofNbdRequest result) :
    Stands specification content platform start requests
      { server with
        pending := server.pending.drop result.toNat
        pc := .received platform fresh (fresh.store 0 (server.pending.take result.toNat)) result } := by
  rcases outcome with rfl | ⟨positive, within, available⟩ | ⟨rfl, empty⟩
  · exact .exit done rest split 1 rfl (fun success => absurd success one_ne_zero) answered
  · by_cases whole : result = sizeofNbdRequest
    · subst whole
      cases rest with
      | nil =>
          rw [pending] at available
          simp [sizeofNbdRequest] at available
      | cons request later =>
          have header := request.length_header
          rw [List.flatMap_cons, DeviceRequest.bytes, List.append_assoc] at pending
          refine stands_header agrees split ?_ rfl ?_ answered
          · rw [pending, Int.toNat_natCast, ← header, List.take_left, Buffer.load_store]
          · show server.pending.drop _ = _
            rw [pending, Int.toNat_natCast, ← header, List.drop_left]
    · refine stands_aborted split ?_ answered
      show ServePc.received _ _ _ _ = _
      rw [ServePc.received, if_neg (by omega), if_neg (by omega), if_pos whole]
  · refine .exit done rest split 0 rfl (fun _ => split.untilDisc (Or.inl ?_)) answered
    rw [pending, List.length_eq_zero_iff, List.flatMap_eq_nil_iff] at empty
    rw [List.eq_nil_iff_forall_not_mem]
    intro request member
    have header := request.length_header
    have nothing := congrArg List.length (empty request member)
    simp only [DeviceRequest.bytes, List.length_append, header, List.length_nil, sizeofNbdRequest] at nothing
    omega

/-- The `read` of a part of a payload keeps the place among the requests. -/
theorem stands_payload {request : DeviceRequest} (split : Split specification start requests done (request :: rest))
    {header : NbdRequest} {chunk : Buffer} {moved : Nat} (decodes : Decodes platform header request) (writes : request.type = nbdCmdWrite)
    (stored : chunk.load 0 moved = request.payload.take moved)
    (pending : server.pending = request.payload.drop moved ++ rest.flatMap DeviceRequest.bytes)
    (answered : specification.Answered start done server.sent [] (content server.device)) {result : Int}
    (outcome : ReadResult server.pending.length (request.length - moved) result) :
    Stands specification content platform start requests
      { server with
        pending := server.pending.drop result.toNat
        pc := (assertedAdvance ⟨moved, request.length - moved⟩ result).elim .aborted
          (.inPayload header (chunk.store moved (server.pending.take result.toNat))) } := by
  have framed : request.payload.length = request.length := by rw [request.framed, if_pos writes, DeviceRequest.length]
  have bounded : request.length < 2 ^ 32 := request.len.toNat_lt
  obtain ⟨lower, inside, -⟩ := readResult_bounds outcome
  cases advanced : assertedAdvance ⟨moved, request.length - moved⟩ result with
  | none => exact stands_aborted split rfl answered
  | some next =>
      obtain ⟨count, rfl, positive, -, rfl⟩ :=
        (assertedAdvance_eq_some (by simp only; omega) lower inside).mp advanced
      have fits : moved + count ≤ request.length := by omega
      have taken : server.pending.take count = (request.payload.drop moved).take count := by
        rw [pending, List.take_append_of_le_length (by rw [List.length_drop]; omega)]
      have left : server.pending.drop count =
          request.payload.drop (moved + count) ++ rest.flatMap DeviceRequest.bytes := by
        rw [pending, List.drop_append_of_le_length (by rw [List.length_drop]; omega), List.drop_drop]
      have width : ((request.payload.drop moved).take count).length = count := by
        rw [List.length_take, List.length_drop]
        omega
      have grown : (chunk.store moved ((request.payload.drop moved).take count)).load 0 (moved + count) =
          request.payload.take (moved + count) := by
        have received := Buffer.load_store chunk moved ((request.payload.drop moved).take count)
        rw [width] at received
        rw [Buffer.load_add, zero_add, received, Buffer.load_store_before _ _ _ _ _ (by simp), stored,
          List.take_add]
      have joined : (⟨(moved : Int) + count, request.length - moved - count⟩ : Window) =
          ⟨((moved + count : Nat) : Int), request.length - (moved + count)⟩ := by
        rw [Nat.cast_add, Nat.sub_sub]
      simp only [Int.toNat_natCast, Option.elim_some, taken, left]
      rw [joined, ServePc.inPayload]
      split
      · next empty =>
          simp only at empty
          have all : moved + count = request.length := by omega
          refine .operate done request rest split header _ rfl decodes (fun _ => ?_) ?_ answered
          · rw [← all, grown, List.take_of_length_le (by omega)]
          · show request.payload.drop (moved + count) ++ _ = _
            rw [List.drop_of_length_le (by omega), List.nil_append]
      · next remains =>
          simp only at remains
          exact .payload done request rest split header _ (moved + count) rfl decodes writes (by omega) grown rfl
            answered

/-- A `write` of a part of the answers keeps the place among the requests. -/
theorem stands_send (split : Split specification start requests done rest) {part : Part} {later : List Part}
    (small : ∀ other ∈ part :: later, other.window.count < 2 ^ 32)
    (pending : server.pending = rest.flatMap DeviceRequest.bytes)
    (answered : specification.Answered start done server.sent (outstanding (part :: later)) (content server.device))
    {result : Int} (outcome : WriteResult part.window.count result) :
    Stands specification content platform start requests
      { server with
        sent := server.sent ++ part.memory.load part.window.buf result.toNat
        pc := (assertedAdvance part.window result).elim .aborted fun rest =>
          .sending ({ part with window := rest } :: later) } := by
  obtain ⟨bounded, others⟩ := List.forall_mem_cons.mp small
  obtain ⟨lower, within⟩ := writeResult_bounds outcome
  have total : part.window.count = result.toNat + (part.window.count - result.toNat) := by omega
  have parts : outstanding (part :: later) = part.memory.load part.window.buf result.toNat ++
      outstanding
        ({ part with window := ⟨part.window.buf + result.toNat, part.window.count - result.toNat⟩ } :: later) := by
    simp only [outstanding, List.flatMap_cons]
    rw [← List.append_assoc, ← Buffer.load_add, ← total]
  rw [parts] at answered
  have sent := answered.send
  cases advanced : assertedAdvance part.window result with
  | none => exact stands_aborted split rfl sent
  | some next =>
      obtain ⟨count, rfl, positive, -, rfl⟩ := (assertedAdvance_eq_some bounded lower within).mp advanced
      refine stands_sending split rfl ?_ pending sent
      intro other member
      rcases List.mem_cons.mp member with rfl | after
      · simp only
        omega
      · exact others other after

/-- The operation of a request keeps the place among the requests. -/
theorem stands_operate (implements : aop.Implements specification content) {request : DeviceRequest}
    (split : Split specification start requests done (request :: rest)) {header : NbdRequest} {chunk : Buffer}
    (decodes : Decodes platform header request)
    (stored : request.type = nbdCmdWrite → chunk.load 0 request.length = request.payload)
    (pending : server.pending = rest.flatMap DeviceRequest.bytes)
    (answered : specification.Answered start done server.sent [] (content server.device)) {results : List Int}
    (operated : server.operate platform aop header chunk results = some next) :
    Stands specification content platform start requests next := by
  have zero : htonl platform.host 0 = 0 := by cases platform.host <;> rfl
  have torn {device : Device} (partly : specification.Torn (content server.device) request (content device)) :
      content device = specification.states start done ∨ ∃ first later, request :: rest = first :: later ∧
        specification.Torn (specification.states start done) first (content device) :=
    Or.inr ⟨request, rest, rfl, answered.state ▸ partly⟩
  -- the operations without a transfer leave the content and are answered with the reply alone
  have simple (type : request.type = nbdCmdFlush ∨ request.type = nbdCmdTrim) {error : UInt32} (none : error = 0)
      {device : Device} (same : content device = content server.device) :
      Stands specification content platform start requests
        (server.answer platform.host header error device []) := by
    have plain : request.type ≠ nbdCmdRead ∧ request.type ≠ nbdCmdWrite ∧ request.type ≠ nbdCmdDisc := by
      rcases type with type | type <;> rw [type] <;> decide
    obtain ⟨answer, kept, able⟩ := specification.plain (content server.device) request plain.1 plain.2.1
    refine stands_answer split decodes plain.2.2 pending answered none able (same.trans kept.symm) (by simp) ?_
    exact (List.append_nil _).trans answer.symm
  cases operates_of_operate operated with
  | read results completion type called =>
      rw [decodes.type] at type
      rw [decodes.start, decodes.len] at called
      have other : request.type ≠ nbdCmdDisc := by rw [type]; decide
      have ends := implements.read _ _ _ _ _ type called
      cases completion with
      | undefined => exact .undefined done request rest split rfl (Or.inl type) ends answered
      | aborted device => exact .aborted done _ split rfl [] answered.symbols (torn ends)
      | returned value device =>
          obtain ⟨able, moved, filled⟩ := ends
          refine stands_answer split decodes other pending answered zero able moved ?_ ?_
          · intro part member
            obtain rfl := List.mem_singleton.mp member
            exact (ntohl platform.host header.len).toNat_lt
          · have block : outstanding [.whole value.2 (ntohl platform.host header.len).toNat] =
                value.2.load 0 request.length := by
              simp [outstanding, Part.whole, Window.whole, decodes.len, DeviceRequest.length]
            rw [block, filled]
  | write results completion type called =>
      rw [decodes.type] at type
      rw [decodes.start, decodes.len] at called
      have other : request.type ≠ nbdCmdDisc := by rw [type]; decide
      have ends := implements.write _ _ _ _ _ type (stored type) called
      cases completion with
      | undefined => exact .undefined done request rest split rfl (Or.inr type) ends answered
      | aborted device => exact .aborted done _ split rfl [] answered.symbols (torn ends)
      | returned value device =>
          obtain ⟨able, moved, answer⟩ := ends
          exact stands_answer split decodes other pending answered zero able moved (by simp)
            ((List.append_nil _).trans answer)
  | disc type =>
      rw [decodes.type] at type
      refine .exit done _ split 0 rfl (fun _ => split.untilDisc (Or.inr ⟨request, rest, rfl, type⟩)) ?_
      have same : content (aop.disc.elim server.device fun disc => disc server.device) = content server.device := by
        cases given : aop.disc with
        | none => rfl
        | some disc => exact implements.disc disc given server.device
      exact same.symm ▸ answered
  | ignored type =>
      rw [decodes.type] at type
      exact simple (type.imp And.left And.left) zero rfl
  | flush flush type given =>
      rw [decodes.type] at type
      obtain ⟨success, same⟩ := implements.flush flush given server.device
      exact simple (Or.inl type) (by rw [success]; rfl) same
  | trim trim type given =>
      rw [decodes.type] at type
      obtain ⟨success, same⟩ :=
        implements.trim trim given (platform.ntohll header.fromOffset) (ntohl platform.host header.len) server.device
      exact simple (Or.inr type) (by rw [success]; rfl) same
  | unknown other => exact stands_aborted split rfl answered

/-- Each step keeps the place among the requests. -/
theorem Stands.step (agrees : platform.Agrees) (implements : aop.Implements specification content)
    (stands : Stands specification content platform start requests server)
    (moves : Moves platform aop fresh server call next) :
    Stands specification content platform start requests next := by
  cases moves with
  | request result atRequest outcome =>
      cases stands with
      | request done rest split pc pending answered => exact stands_request agrees split pending answered outcome
      | _ => simp_all
  | payload header chunk window result atPayload nonempty outcome =>
      cases stands with
      | payload done request rest split other memory moved pc decodes writes remains stored pending answered =>
          rw [atPayload] at pc
          obtain ⟨rfl, rfl, rfl⟩ := ServePc.payload.inj pc
          exact stands_payload split decodes writes stored pending answered outcome
      | _ => simp_all
  | operate header chunk results after atOperate operated =>
      cases stands with
      | operate done request rest split other memory pc decodes stored pending answered =>
          rw [atOperate] at pc
          obtain ⟨rfl, rfl⟩ := ServePc.operate.inj pc
          exact stands_operate implements split decodes stored pending answered operated
      | _ => simp_all
  | send part later result atSend remains outcome =>
      cases stands with
      | send done rest split other others pc filled small pending answered =>
          rw [atSend] at pc
          obtain ⟨rfl, rfl⟩ := ServePc.send.inj pc
          exact stands_send split small pending answered outcome
      | _ => simp_all

/-- A device that starts with the content stands before the first request. -/
theorem stands_initial {device : Device} (same : content device = start) :
    Stands specification content platform start requests
      (.initial device (requests.flatMap DeviceRequest.bytes)) :=
  .request [] requests ⟨rfl, by simp, trivial⟩ rfl rfl ⟨rfl, same⟩

/-- Each state that the server reaches stands among the requests. -/
theorem stands_run (agrees : platform.Agrees) (implements : aop.Implements specification content) {device : Device}
    {calls : List ServeCall}
    (reached : run (serveStep platform aop fresh) (.initial device (requests.flatMap DeviceRequest.bytes)) calls =
      some server) : Stands specification content platform (content device) requests server :=
  run_invariant (Stands specification content platform (content device) requests)
    (fun _ _ _ stands stepped => stands.step agrees implements (moves_of_serveStep stepped))
    (stands_initial rfl) reached

end

/-- These requests are done, these bytes of their answers are not sent yet, and the device has their effect. -/
structure Stage {Device Content : Type*} (specification : Specification Content) (content : Device → Content)
    (start : Content) (requests done rest : List DeviceRequest) (unsent : List UInt8) (server : Server Device) :
    Prop where
  split : Split specification start requests done rest
  symbols : server.sent ++ unsent = specification.transcript start done
  device : content server.device = specification.states start done ∨ server.pc = .aborted ∧
    ∃ request later, rest = request :: later ∧
      specification.Torn (specification.states start done) request (content server.device)
  success : server.pc = .exit 0 → done = untilDisc requests ∧ unsent = []
  stray : server.pc = .undefined → unsent = [] ∧ content server.device = specification.states start done ∧
    ∃ request later, rest = request :: later ∧ request.type ≠ nbdCmdDisc ∧
      ¬ specification.Fits (specification.states start done) request

section
variable {Device Content : Type*} {specification : Specification Content} {content : Device → Content}
  {platform : Platform} {start : Content} {requests done rest : List DeviceRequest} {unsent : List UInt8}
  {server : Server Device}

/-- A server that neither failed nor strayed has done some requests. -/
theorem Stage.of_answered (split : Split specification start requests done rest) (defined : server.pc ≠ .undefined)
    (answered : specification.Answered start done server.sent unsent (content server.device))
    (success : server.pc = .exit 0 → done = untilDisc requests ∧ unsent = []) :
    Stage specification content start requests done rest unsent server :=
  ⟨split, answered.symbols, Or.inl answered.state, success, fun strays => absurd strays defined⟩

/-- Each place among the requests is a stage. -/
theorem Stands.stage (stands : Stands specification content platform start requests server) :
    ∃ done rest unsent, Stage specification content start requests done rest unsent server := by
  cases stands with
  | request done rest split pc pending answered =>
      exact ⟨done, rest, _, .of_answered split (by simp [pc]) answered (by simp [pc])⟩
  | payload done request rest split header chunk moved pc decodes writes remains stored pending answered =>
      exact ⟨done, _, _, .of_answered split (by simp [pc]) answered (by simp [pc])⟩
  | operate done request rest split header chunk pc decodes stored pending answered =>
      exact ⟨done, _, _, .of_answered split (by simp [pc]) answered (by simp [pc])⟩
  | send done rest split part later pc remains small pending answered =>
      exact ⟨done, rest, _, .of_answered split (by simp [pc]) answered (by simp [pc])⟩
  | exit done rest split status pc ended answered =>
      refine ⟨done, rest, _, .of_answered split (by simp [pc]) answered fun exited => ?_⟩
      rw [pc] at exited
      exact ⟨ended (ServePc.exit.inj exited), rfl⟩
  | aborted done rest split pc unsent symbols partly =>
      exact ⟨done, rest, unsent, split, symbols, partly.imp_right fun torn => ⟨pc, torn⟩, by simp [pc], by simp [pc]⟩
  | undefined done request rest split pc moves stray answered =>
      refine ⟨done, _, [], split, answered.symbols, Or.inl answered.state, by simp [pc], fun _ => ⟨rfl, answered.state,
        request, rest, rfl, ?_, answered.state ▸ stray⟩⟩
      rcases moves with type | type <;> rw [type] <;> decide

/-- What was sent begins the answers of each list that begins with the requests done. -/
theorem Stage.sent_isPrefix (stage : Stage specification content start requests done rest unsent server)
    {all : List DeviceRequest} (begins : done <+: all) : server.sent <+: specification.transcript start all := by
  obtain ⟨later, rfl⟩ := begins
  rw [specification.transcript_append, ← stage.symbols, List.append_assoc]
  exact List.prefix_append _ _

/-- A server that exited with success has answered all requests up to the disconnect. -/
theorem Stage.complete (stage : Stage specification content start requests done rest unsent server)
    (exited : server.pc = .exit 0) :
    server.sent = specification.transcript start (untilDisc requests) ∧
      content server.device = specification.states start (untilDisc requests) := by
  obtain ⟨rfl, rfl⟩ := stage.success exited
  have symbols := stage.symbols
  rw [List.append_nil] at symbols
  refine ⟨symbols, stage.device.resolve_right fun failed => ?_⟩
  rw [exited] at failed
  cases failed.1

end

/-- The requests that memory has done keep its size. -/
theorem length_states {start : List UInt8} {done : List DeviceRequest}
    (fits : memoryDevice.Along memoryDevice.Fits start done) :
    (memoryDevice.states start done).length = start.length ∧ ∀ request ∈ done, request.InRange start.length := by
  induction done generalizing start with
  | nil => exact ⟨rfl, by simp⟩
  | cons request rest ih =>
      obtain ⟨here, later⟩ := fits
      have size : (memoryDevice.next start request).length = start.length := by
        show (if request.type = nbdCmdWrite then _ else start).length = _
        split
        · next writes =>
            refine length_overwrite_of_le 0 ?_
            rw [request.length_payload writes]
            exact here (Or.inr writes)
        · rfl
      obtain ⟨length, ranges⟩ := ih later
      rw [size] at length ranges
      exact ⟨length, List.forall_mem_cons.mpr ⟨here, ranges⟩⟩

/-- The answers sent are the first ones of the block device, and the device has the effect of the requests done. -/
structure Serves {Device : Type*} (content : Device → List UInt8) (start : List UInt8) (requests : List DeviceRequest)
    (server : Server Device) : Prop where
  defined : server.pc ≠ .undefined
  sent : server.sent <+: blockDevice.transcript start (untilDisc requests)
  device : ∃ done written place, done <+: untilDisc requests ∧
    content server.device = overwrite 0 (blockDevice.states start done) place written ∧
      (written ≠ [] → server.pc = .aborted ∧ ∃ request, done ++ [request] <+: untilDisc requests ∧
        request.type = nbdCmdWrite ∧ place = request.start ∧ written <+: request.payload)
  success : server.pc = .exit 0 → server.sent = blockDevice.transcript start (untilDisc requests) ∧
    content server.device = blockDevice.states start (untilDisc requests)

/-- Requests inside the memory keep a server of it defined, and it answers as a block device. -/
theorem Stage.serves {start : Xmp} {requests done rest : List DeviceRequest} {unsent : List UInt8}
    {server : Server Xmp} (stage : Stage memoryDevice id start requests done rest unsent server)
    (ranges : ∀ request ∈ requests, request.InRange start.length) : Serves id start requests server where
  defined := by
    intro strays
    obtain ⟨-, -, request, later, rfl, -, outside⟩ := stage.stray strays
    apply outside
    show request.InRange (memoryDevice.states start done).length
    rw [(length_states stage.split.fits).1]
    exact ranges request (stage.split.all ▸ by simp)
  sent := stage.sent_isPrefix stage.split.isPrefix
  device := by
    refine ⟨done, [], 0, stage.split.isPrefix, ?_, fun some => absurd rfl some⟩
    rw [overwrite_nil]
    rcases stage.device with same | ⟨-, request, later, -, torn⟩
    · exact same
    · exact torn.elim
  success := stage.complete

/-- Inside its bytes the device of `loopback` answers as a block device. -/
theorem Stage.serves_positioned {file : OpenFile} {requests done rest : List DeviceRequest} {unsent : List UInt8}
    {server : Server OpenFile} (stage : Stage positionedDevice id file requests done rest unsent server)
    (ranges : ∀ request ∈ requests, request.InRange file.bytes.length) :
    Serves OpenFile.bytes file.bytes requests server := by
  have among {list : List DeviceRequest} (begins : list <+: untilDisc requests) :
      ∀ request ∈ list, request.InRange file.bytes.length := fun request member =>
    ranges request ((List.takeWhile_prefix _).subset (begins.subset member))
  obtain ⟨answers, contents, length⟩ := positionedDevice_refines (among stage.split.isPrefix)
  constructor
  · intro strays
    obtain ⟨-, -, request, later, rfl, -, outside⟩ := stage.stray strays
    apply outside
    intro moves _
    have inside := ranges request (stage.split.all ▸ by simp) moves
    have place : request.place (positionedDevice.states file done) = request.start := if_pos (by omega)
    rw [place, length]
    exact inside
  · rw [← (positionedDevice_refines (among List.prefix_rfl)).1]
    exact stage.sent_isPrefix stage.split.isPrefix
  · rcases stage.device with same | ⟨aborted, request, later, rfl, torn⟩
    · refine ⟨done, [], 0, stage.split.isPrefix, ?_, fun some => absurd rfl some⟩
      rw [overwrite_nil, ← contents, ← same]
      rfl
    · rcases torn with ⟨-, kept⟩ | ⟨writes, written, begins, partly⟩
      · refine ⟨done, [], 0, stage.split.isPrefix, ?_, fun some => absurd rfl some⟩
        rw [overwrite_nil, ← contents, ← kept]
        rfl
      · have other : request.type ≠ nbdCmdDisc := by rw [writes]; decide
        have inside := ranges request (stage.split.all ▸ by simp) (Or.inr writes)
        have place : request.place (positionedDevice.states file done) = request.start := if_pos (by omega)
        rw [place, contents] at partly
        exact ⟨done, written, request.start, stage.split.isPrefix, partly,
          fun _ => ⟨aborted, request, stage.split.isPrefix_snoc other, writes, rfl, begins⟩⟩
  · intro exited
    obtain ⟨symbols, state, -⟩ := positionedDevice_refines (among (List.prefix_refl (untilDisc requests)))
    obtain ⟨sent, device⟩ := stage.complete exited
    rw [← symbols, ← state]
    exact ⟨sent, congrArg OpenFile.bytes device⟩

/-- For each list of requests inside the device, `busexmp` answers as a block device at each moment of each run. -/
theorem busexmp_serves {platform : Platform} (agrees : platform.Agrees) (fresh : Buffer) {data : Xmp}
    {requests : List DeviceRequest} (ranges : ∀ request ∈ requests, request.InRange data.length)
    {calls : List ServeCall} {server : Server Xmp}
    (reached : run (serveStep platform xmpOperations fresh)
      (.initial data (requests.flatMap DeviceRequest.bytes)) calls = some server) :
    Serves id data requests server := by
  obtain ⟨done, rest, unsent, stage⟩ := (stands_run agrees xmp_implements reached).stage
  exact stage.serves ranges

theorem nbdCmdWrite_known : nbdCmdWrite = nbdCmdRead ∨ nbdCmdWrite = nbdCmdWrite ∨ nbdCmdWrite = nbdCmdDisc ∨
    nbdCmdWrite = nbdCmdFlush ∨ nbdCmdWrite = nbdCmdTrim := Or.inr (Or.inl rfl)

theorem nbdCmdRead_plain : nbdCmdRead = nbdCmdRead ∨ nbdCmdRead = nbdCmdDisc ∨ nbdCmdRead = nbdCmdFlush ∨
    nbdCmdRead = nbdCmdTrim := Or.inl rfl

/-- This write puts two bytes at the second place. -/
def smallWrite : DeviceRequest where
  magic := nbdRequestMagic
  type := nbdCmdWrite
  handle := Vector.replicate 8 5
  fromOffset := 1
  len := 2
  payload := [6, 7]
  started := rfl
  known := nbdCmdWrite_known
  framed := rfl

/-- A request of another type has no payload. -/
def plainRequest (type : UInt32) (fromOffset : UInt64) (len : UInt32)
    (known : type = nbdCmdRead ∨ type = nbdCmdDisc ∨ type = nbdCmdFlush ∨ type = nbdCmdTrim) : DeviceRequest where
  magic := nbdRequestMagic
  type := type
  handle := Vector.replicate 8 6
  fromOffset := fromOffset
  len := len
  payload := []
  started := rfl
  known := by rcases known with rfl | rfl | rfl | rfl <;> simp
  framed := by
    rcases known with rfl | rfl | rfl | rfl <;> rfl

/-- The kernel writes, flushes, reads and disconnects. -/
def smallSession : List DeviceRequest :=
  [smallWrite, plainRequest nbdCmdFlush 0 0 (by simp), plainRequest nbdCmdRead 0 3 nbdCmdRead_plain,
    plainRequest nbdCmdDisc 0 0 (by simp)]

/-- The payload and the answers are cut into pieces. -/
def smallSessionCalls : List ServeCall :=
  [.read 28, .read 1, .read 1, .operate [], .write 7, .write 9, .read 28, .operate [], .write 16,
    .read 28, .operate [], .write 16, .write 2, .write 1, .read 28, .operate []]

theorem smallSession_runs : ∃ server, run (serveStep ⟨.littleEndian, false⟩ xmpOperations fun _ => 7)
    (.initial [1, 2, 3, 4] (smallSession.flatMap DeviceRequest.bytes)) smallSessionCalls = some server :=
  Option.isSome_iff_exists.mp (by decide +kernel)

theorem busexmp_serves_smallSession : ∃ server,
    run (serveStep ⟨.littleEndian, false⟩ xmpOperations fun _ => 7)
      (.initial [1, 2, 3, 4] (smallSession.flatMap DeviceRequest.bytes)) smallSessionCalls = some server ∧
      Serves id [1, 2, 3, 4] smallSession server := by
  have agrees : Platform.Agrees ⟨.littleEndian, false⟩ := rfl
  obtain ⟨server, reached⟩ := smallSession_runs
  exact ⟨server, reached, busexmp_serves agrees _ (by decide) reached⟩

end DistributedNas.Buse
