import DistributedNas.Buse.Containment
import Mathlib.Data.List.TakeWhile

/-
This file proves when `serve_nbd` fails an assertion, that it ends otherwise, and what it does outside its device.
-/

namespace DistributedNas.Buse
open Library Posix Proxy

/-- The server goes on at these places. -/
def ServePc.live : ServePc → Bool
  | .request | .payload .. | .operate .. | .send .. => true
  | .exit _ | .aborted | .undefined => false

instance decidableExit (status : Nat) : (pc : ServePc) → Decidable (pc = .exit status)
  | .exit other => decidable_of_iff (other = status) (by simp)
  | .request | .payload .. | .operate .. | .send .. | .aborted | .undefined => isFalse (by simp)

/-- The next step calls an operation. -/
def ServePc.operating : ServePc → Bool
  | .operate .. => true
  | _ => false

/-- A transfer of this size passes the assertion of its loop. -/
def Transfers (result : Int) : Prop := 1 ≤ result ∧ result < 2 ^ 31

/-- These are the types that the switch of `serve_nbd` knows. -/
def knownTypes : List UInt32 := [nbdCmdRead, nbdCmdWrite, nbdCmdDisc, nbdCmdFlush, nbdCmdTrim]

/-- A header comes whole with the magic number, its type is known, and each other call transfers a positive `int`. -/
def Whole {Device : Type*} (platform : Platform) (server : Server Device) : ServeCall → Prop
  | .read result =>
      match server.pc with
      | .request => result = -1 ∨ result = 0 ∨ result = sizeofNbdRequest ∧
          server.pending.take 4 = Library.bigEndian 4 nbdRequestMagic.toNat
      | _ => Transfers result
  | .write result => Transfers result
  | .operate _ =>
      match server.pc with
      | .operate request _ => ntohl platform.host request.type ∈ knownTypes
      | _ => True

/-- These are the bytes that the client and the server have still to send, each step counted. -/
def Server.remaining {Device : Type*} (answers : List UInt8) (server : Server Device) : Nat :=
  2 * server.pending.length + (answers.length - server.sent.length) + server.pc.operating.toNat + server.pc.live.toNat

section
variable {Device : Type*} {content : Device → List UInt8} {platform : Platform} {start : List UInt8}
  {requests : List DeviceRequest} {aop : BuseOperations Device} {fresh : Buffer} {server next : Server Device}
  {call : ServeCall}

theorem ServePc.sending_live (parts : List Part) :
    (ServePc.sending parts).live = true ∧ (ServePc.sending parts).operating = false := by
  induction parts with
  | nil => exact ⟨rfl, rfl⟩
  | cons part later ih =>
      unfold sending
      split
      · exact ih
      · exact ⟨rfl, rfl⟩

theorem ServePc.inPayload_live (header : NbdRequest) (chunk : Buffer) (window : Window) :
    (ServePc.inPayload header chunk window).live = true := by
  unfold inPayload
  split <;> rfl

/-- A server that goes on has neither failed nor strayed. -/
theorem ServePc.ne_of_live {pc : ServePc} (live : pc.live = true) : pc ≠ .aborted ∧ pc ≠ .undefined := by
  constructor
  · rintro rfl
    cases live
  · rintro rfl
    cases live

/-- A loop with an assertion goes on exactly after a transfer. -/
theorem assertedAdvance_isSome_iff {window : Window} {result : Int} (bounded : window.count < 2 ^ 32)
    (lower : -1 ≤ result) (within : result ≤ window.count) :
    (assertedAdvance window result).isSome ↔ Transfers result := by
  rw [Option.isSome_iff_exists]
  constructor
  · rintro ⟨next, advanced⟩
    obtain ⟨count, rfl, positive, small, -⟩ := (assertedAdvance_eq_some bounded lower within).mp advanced
    exact ⟨by omega, by omega⟩
  · rintro ⟨positive, small⟩
    exact ⟨_, (assertedAdvance_eq_some bounded lower within).mpr
      ⟨result.toNat, by omega, by omega, by omega, rfl⟩⟩

/-- The operation of a request is followed by its answer, by the end, or by a failed assertion. -/
theorem operate_spec {header : NbdRequest} {chunk : Buffer} {results : List Int}
    (operated : server.operate platform aop header chunk results = some next) :
    next.pending = server.pending ∧ next.sent = server.sent ∧ next.pc.operating = false := by
  have answer (error : UInt32) (device : Device) (parts : List Part) :
      (server.answer platform.host header error device parts).pending = server.pending ∧
        (server.answer platform.host header error device parts).sent = server.sent ∧
          (server.answer platform.host header error device parts).pc.operating = false :=
    ⟨rfl, rfl, (ServePc.sending_live _).2⟩
  cases operates_of_operate operated with
  | read results completion type called =>
      cases completion with
      | returned value device => exact answer ..
      | aborted device => exact ⟨rfl, rfl, rfl⟩
      | undefined => exact ⟨rfl, rfl, rfl⟩
  | write results completion type called =>
      cases completion with
      | returned value device => exact answer ..
      | aborted device => exact ⟨rfl, rfl, rfl⟩
      | undefined => exact ⟨rfl, rfl, rfl⟩
  | disc type => exact ⟨rfl, rfl, rfl⟩
  | ignored type => exact answer ..
  | flush flush type given => exact answer ..
  | trim trim type given => exact answer ..
  | unknown other => exact ⟨rfl, rfl, rfl⟩

/-- A failed call and the end of a stream fail the assertion of each loop. -/
theorem assertedAdvance_of_nothing (window : Window) {result : Int} (nothing : result = -1 ∨ result = 0) :
    assertedAdvance window result = none := by
  rcases nothing with rfl | rfl <;> exact if_neg (by decide)

/-- A step that moves bytes leaves less to send, and so does a step that only ends an operation or the server. -/
theorem remaining_lt {answers : List UInt8} (live : server.pc.live = true) (taken given : Nat)
    (pending : next.pending.length + taken = server.pending.length)
    (sent : next.sent.length = server.sent.length + given) (within : next.sent.length ≤ answers.length)
    (less : next.pc.operating.toNat + next.pc.live.toNat < 2 * taken + given + server.pc.operating.toNat + 1) :
    next.remaining answers < server.remaining answers := by
  unfold Server.remaining
  rw [live, Bool.toNat_true]
  omega

/-- Each step leaves less to send. -/
theorem remaining_falls {answers : List UInt8} (sent : next.sent.length ≤ answers.length)
    (moves : Moves platform aop fresh server call next) : next.remaining answers < server.remaining answers := by
  have flags (pc : ServePc) : pc.operating.toNat + pc.live.toNat ≤ 2 := by
    cases pc <;> simp [ServePc.operating, ServePc.live]
  have dropped {result : Int} (positive : 1 ≤ result) (available : result ≤ server.pending.length) :
      (server.pending.drop result.toNat).length + result.toNat = server.pending.length := by
    rw [List.length_drop]
    omega
  have nonzero {result : Int} (positive : 1 ≤ result) : 1 ≤ result.toNat := by omega
  cases moves with
  | request result atRequest outcome =>
      have live : server.pc.live = true := by rw [atRequest]; rfl
      rcases outcome with rfl | ⟨positive, -, available⟩ | ⟨rfl, empty⟩
      · exact remaining_lt live 0 0 rfl rfl sent (Nat.succ_pos _)
      · refine remaining_lt live result.toNat 0 (dropped positive available) rfl sent ?_
        have := flags (ServePc.received platform fresh (fresh.store 0 (server.pending.take result.toNat)) result)
        have := nonzero positive
        simp only
        omega
      · exact remaining_lt live 0 0 rfl rfl sent (Nat.succ_pos _)
  | payload header chunk window result atPayload remains outcome =>
      have live : server.pc.live = true := by rw [atPayload]; rfl
      rcases outcome with rfl | ⟨positive, -, available⟩ | ⟨rfl, empty⟩
      · refine remaining_lt live 0 0 rfl rfl sent ?_
        rw [assertedAdvance_of_nothing window (Or.inl rfl)]
        exact Nat.succ_pos _
      · refine remaining_lt live result.toNat 0 (dropped positive available) rfl sent ?_
        have := flags ((assertedAdvance window result).elim .aborted
          (.inPayload header (chunk.store window.buf (server.pending.take result.toNat))))
        have := nonzero positive
        simp only
        omega
      · refine remaining_lt live 0 0 rfl rfl sent ?_
        rw [assertedAdvance_of_nothing window (Or.inr rfl)]
        exact Nat.succ_pos _
  | operate header chunk results after atOperate operated =>
      have live : server.pc.live = true := by rw [atOperate]; rfl
      have operating : server.pc.operating = true := by rw [atOperate]; rfl
      obtain ⟨pending, same, done⟩ := operate_spec operated
      have flag := Bool.toNat_le next.pc.live
      refine remaining_lt live 0 0 (congrArg List.length pending) (congrArg List.length same) sent ?_
      rw [operating, done, Bool.toNat_true, Bool.toNat_false]
      omega
  | send part later result atSend remains outcome =>
      have live : server.pc.live = true := by rw [atSend]; rfl
      rcases outcome with rfl | ⟨positive, -⟩
      · refine remaining_lt live 0 0 rfl (congrArg List.length (List.append_nil _)) sent ?_
        rw [assertedAdvance_of_nothing part.window (Or.inl rfl)]
        exact Nat.succ_pos _
      · refine remaining_lt live 0 result.toNat rfl (by simp) sent ?_
        have flag : ((assertedAdvance part.window result).elim ServePc.aborted fun rest =>
            .sending ({ part with window := rest } :: later)).operating = false := by
          cases assertedAdvance part.window result with
          | none => rfl
          | some rest => exact (ServePc.sending_live _).2
        have := Bool.toNat_le ((assertedAdvance part.window result).elim ServePc.aborted fun rest =>
            .sending ({ part with window := rest } :: later)).live
        have := nonzero positive
        simp only [flag, Bool.toNat_false]
        omega

end

/-- The server goes on, or it ended with success. -/
def ServePc.Well (pc : ServePc) : Prop := pc.live ∨ pc = .exit 0

section
variable {platform : Platform} {start : Xmp} {requests : List DeviceRequest} {fresh : Buffer}
  {server next : Server Xmp} {call : ServeCall}

/-- The first word of a header is the magic number exactly when its bytes are the ones that a client sends. -/
theorem magic_ofMemory_iff (host : Endian) (memory : Buffer) {bytes : List UInt8} (whole : bytes.length = sizeofNbdRequest) :
    (NbdRequest.ofMemory host (memory.store 0 bytes)).magic = htonl host nbdRequestMagic ↔
      bytes.take 4 = Library.bigEndian 4 nbdRequestMagic.toNat := by
  have stored : (memory.store 0 bytes).load 0 sizeofNbdRequest = bytes := by rw [← whole, Buffer.load_store]
  have word : (memory.store 0 bytes).load 0 4 = bytes.take 4 := load_eq_slice stored 0 4 (by decide)
  have width : (bytes.take 4).length = 4 := by
    rw [List.length_take, whole]
    rfl
  have small := fromBigEndian_lt (bytes.take 4)
  have digits := bigEndian_fromBigEndian (bytes.take 4)
  rw [width] at small digits
  have number : (UInt32.ofNat (fromBigEndian (bytes.take 4))).toNat = fromBigEndian (bytes.take 4) :=
    Nat.mod_eq_of_lt small
  have decoded := ntohl_fromMemory host (UInt32.ofNat (fromBigEndian (bytes.take 4)))
  rw [number, digits] at decoded
  show UInt32.ofNat (host.fromMemory ((memory.store 0 bytes).load 0 4)) = _ ↔ _
  rw [word]
  constructor
  · intro same
    rw [same] at decoded
    have value : nbdRequestMagic = UInt32.ofNat (fromBigEndian (bytes.take 4)) :=
      (htonl_ntohl host nbdRequestMagic).symm.trans decoded
    rw [value, number, digits]
  · intro same
    rw [same]
    have sent := ntohl_fromMemory host nbdRequestMagic
    rw [← htonl_ntohl host (UInt32.ofNat _), sent]

/-- An operation of `busexmp` fails its assertion exactly on an unknown type. -/
theorem operate_ne_aborted_iff {header : NbdRequest} {chunk : Buffer} {results : List Int}
    (operated : server.operate platform xmpOperations header chunk results = some next) :
    next.pc ≠ .aborted ↔ ntohl platform.host header.type ∈ knownTypes := by
  have goes (parts : List Part) : ServePc.sending parts ≠ .aborted :=
    (ServePc.ne_of_live (ServePc.sending_live parts).1).1
  cases operates_of_operate operated with
  | read results completion type called =>
      refine iff_of_true ?_ (by rw [type]; decide)
      change xmpRead _ _ _ _ _ = _ at called
      unfold xmpRead at called
      split at called
      · cases called
      · split at called
        · obtain rfl := Option.some.inj called
          exact goes _
        · obtain rfl := Option.some.inj called
          exact nofun
  | write results completion type called =>
      refine iff_of_true ?_ (by rw [type]; decide)
      change xmpWrite _ _ _ _ _ = _ at called
      unfold xmpWrite at called
      split at called
      · cases called
      · split at called
        · obtain rfl := Option.some.inj called
          exact goes _
        · obtain rfl := Option.some.inj called
          exact nofun
  | disc type => exact iff_of_true nofun (by rw [type]; decide)
  | ignored type =>
      refine iff_of_true (goes _) ?_
      rcases type with ⟨type, -⟩ | ⟨type, -⟩ <;> rw [type] <;> decide
  | flush flush type given => exact iff_of_true (goes _) (by rw [type]; decide)
  | trim trim type given => exact iff_of_true (goes _) (by rw [type]; decide)
  | unknown other => exact iff_of_false (fun defined => defined rfl) fun known => other _ known rfl

/-- A header passes its assertions exactly when nothing of it came, or all of it with the magic number. -/
theorem received_ne_aborted_iff {bytes : List UInt8} {result : Int}
    (outcome : ReadResult bytes.length sizeofNbdRequest result) :
    ServePc.received platform fresh (fresh.store 0 (bytes.take result.toNat)) result ≠ .aborted ↔
      result = -1 ∨ result = 0 ∨
        result = sizeofNbdRequest ∧ bytes.take 4 = Library.bigEndian 4 nbdRequestMagic.toNat := by
  rcases outcome with rfl | ⟨positive, within, available⟩ | ⟨rfl, empty⟩
  · exact iff_of_true (fun stopped => by cases stopped) (Or.inl rfl)
  · by_cases all : result = sizeofNbdRequest
    · subst all
      have length : (bytes.take sizeofNbdRequest).length = sizeofNbdRequest := by
        rw [List.length_take]
        omega
      have magic := magic_ofMemory_iff platform.host fresh length
      rw [List.take_take, Nat.min_eq_left (by decide)] at magic
      simp only [Int.toNat_natCast]
      rw [ServePc.received, if_neg (by decide), if_neg (by decide), if_neg (by simp)]
      dsimp only
      by_cases same : (NbdRequest.ofMemory platform.host (fresh.store 0 (bytes.take sizeofNbdRequest))).magic =
          htonl platform.host nbdRequestMagic
      · rw [if_neg (not_not.mpr same)]
        refine iff_of_true ?_ (Or.inr (Or.inr ⟨trivial, magic.mp same⟩))
        split
        · exact (ServePc.ne_of_live (ServePc.inPayload_live ..)).1
        · intro stopped
          cases stopped
      · rw [if_pos same]
        refine iff_of_false (fun goes => goes rfl) ?_
        rintro (failed | ended | ⟨-, sent⟩)
        · cases failed
        · cases ended
        · exact same (magic.mpr sent)
    · refine iff_of_false (fun goes => goes ?_) (by omega)
      rw [ServePc.received, if_neg (by omega), if_neg (by omega), if_pos all]
  · exact iff_of_true (fun stopped => by cases stopped) (Or.inr (Or.inl rfl))

/-- A step fails its assertion exactly when its call is not whole. -/
theorem ne_aborted_iff_whole (contained : server.pc.Contained platform)
    (moves : Moves platform xmpOperations fresh server call next) : next.pc ≠ .aborted ↔ Whole platform server call := by
  cases moves with
  | request result atRequest outcome =>
      have whole : Whole platform server (.read result) ↔ result = -1 ∨ result = 0 ∨ result = sizeofNbdRequest ∧
          server.pending.take 4 = Library.bigEndian 4 nbdRequestMagic.toNat := by
        simp only [Whole, atRequest]
      rw [whole]
      exact received_ne_aborted_iff outcome
  | payload header chunk window result atPayload remains outcome =>
      have whole : Whole platform server (.read result) ↔ Transfers result := by simp only [Whole, atPayload]
      rw [atPayload] at contained
      have ends : EndsAt (ntohl platform.host header.len).toNat window := contained
      have bounded : window.count < 2 ^ 32 := by
        have := ends.start
        have := ends.stop
        have := (ntohl platform.host header.len).toNat_lt
        omega
      obtain ⟨lower, within, -⟩ := readResult_bounds outcome
      rw [whole, ← assertedAdvance_isSome_iff bounded lower within]
      cases assertedAdvance window result with
      | none => simp
      | some rest =>
          exact iff_of_true (ServePc.ne_of_live (ServePc.inPayload_live ..)).1 rfl
  | operate header chunk results after atOperate operated =>
      have whole : Whole platform server (.operate results) ↔ ntohl platform.host header.type ∈ knownTypes := by
        simp only [Whole, atOperate]
      rw [whole]
      exact operate_ne_aborted_iff operated
  | send part later result atSend remains outcome =>
      rw [atSend] at contained
      obtain ⟨ends, size⟩ := contained part List.mem_cons_self
      have bounded : part.window.count < 2 ^ 32 := by
        have := ends.start
        have := ends.stop
        omega
      obtain ⟨lower, within⟩ := writeResult_bounds outcome
      have whole : Whole platform server (.write result) ↔ Transfers result := Iff.rfl
      rw [whole, ← assertedAdvance_isSome_iff bounded lower within]
      cases assertedAdvance part.window result with
      | none => simp
      | some rest =>
          exact iff_of_true (ServePc.ne_of_live (ServePc.sending_live _).1).1 rfl

/-- In each run `busexmp` fails no assertion exactly as long as each call on its socket is whole. -/
theorem busexmp_asserts_iff {data : Xmp} {bytes : List UInt8} {calls : List ServeCall}
    (reached : run (serveStep platform xmpOperations fresh) (.initial data bytes) calls = some server) :
    Throughout (serveStep platform xmpOperations fresh) (fun state => state.pc ≠ .aborted) (.initial data bytes) calls ↔
      Meets (serveStep platform xmpOperations fresh) (Whole platform) (.initial data bytes) calls := by
  let Sound (state : Server Xmp) : Prop := state.pc.Contained platform
  have start : Sound (.initial data bytes) := trivial
  refine throughout_iff_meets ?_ ?_ start reached
  · intro state call next contained stepped
    exact ne_aborted_iff_whole contained (moves_of_serveStep stepped)
  · intro state call next contained _ stepped
    exact contained_step contained (moves_of_serveStep stepped)

end

theorem busexmp_asserts_smallSession : ∃ server,
    run (serveStep ⟨.littleEndian, false⟩ xmpOperations fun _ => 7)
      (.initial [1, 2, 3, 4] (smallSession.flatMap DeviceRequest.bytes)) smallSessionCalls = some server ∧
      (Throughout (serveStep ⟨.littleEndian, false⟩ xmpOperations fun _ => 7) (fun state => state.pc ≠ .aborted)
          (.initial [1, 2, 3, 4] (smallSession.flatMap DeviceRequest.bytes)) smallSessionCalls ↔
        Meets (serveStep ⟨.littleEndian, false⟩ xmpOperations fun _ => 7) (Whole ⟨.littleEndian, false⟩)
          (.initial [1, 2, 3, 4] (smallSession.flatMap DeviceRequest.bytes)) smallSessionCalls) := by
  obtain ⟨server, reached⟩ := smallSession_runs
  exact ⟨server, reached, busexmp_asserts_iff reached⟩

section
variable {platform : Platform} {start : Xmp} {requests : List DeviceRequest} {fresh : Buffer}
  {server next : Server Xmp} {call : ServeCall}

/-- Each operation of `busexmp` is made without a system call, and it strays or the server goes on. -/
theorem operate_xmp {header : NbdRequest} {request : DeviceRequest} (decodes : Decodes platform header request)
    (chunk : Buffer) :
    ∃ next, server.operate platform xmpOperations header chunk [] = some next ∧
      (next.pc.Well ∨ next.pc = .undefined) := by
  have answer (error : UInt32) (device : Xmp) (parts : List Part) :
      (server.answer platform.host header error device parts).pc.Well := Or.inl (ServePc.sending_live _).1
  unfold Server.operate
  simp only [decodes.type, decodes.len, decodes.start]
  rcases request.known with reads | writes | disconnects | flushes | trims
  · simp only [reads, if_true, xmpOperations, xmpRead, ne_eq, not_true_eq_false, if_false]
    split
    · exact ⟨_, rfl, Or.inl (answer ..)⟩
    · exact ⟨_, rfl, Or.inr rfl⟩
  · simp only [writes, nbdCmdWrite_ne_read, if_true, xmpOperations, xmpWrite, ne_eq, not_true_eq_false, if_false]
    split
    · exact ⟨_, rfl, Or.inl (answer ..)⟩
    · exact ⟨_, rfl, Or.inr rfl⟩
  · rw [disconnects]
    exact ⟨_, rfl, Or.inl (Or.inr rfl)⟩
  · rw [flushes]
    exact ⟨_, rfl, Or.inl (answer ..)⟩
  · rw [trims]
    exact ⟨_, rfl, Or.inl (answer ..)⟩

/-- A whole header of a request is no reason to stop. -/
theorem received_well (agrees : platform.Agrees) (request : DeviceRequest) (later : List UInt8) :
    (ServePc.received platform fresh (fresh.store 0 ((request.bytes ++ later).take sizeofNbdRequest))
      sizeofNbdRequest).Well := by
  have header := request.length_header
  have stored : (fresh.store 0 ((request.bytes ++ later).take sizeofNbdRequest)).load 0 sizeofNbdRequest =
      request.header := by
    rw [DeviceRequest.bytes, List.append_assoc, ← header, List.take_left, Buffer.load_store]
  rw [received_header agrees request stored]
  split
  · exact Or.inl (ServePc.inPayload_live ..)
  · exact Or.inl rfl

/-- A server that has not ended can make a step after which it has not failed. -/
theorem exists_well_step (agrees : platform.Agrees) (fresh : Buffer)
    (stands : Stands memoryDevice id platform start requests server) (live : server.pc.live = true) :
    ∃ call next, serveStep platform xmpOperations fresh server call = some next ∧
      (next.pc.Well ∨ next.pc = .undefined) := by
  cases stands with
  | request done rest split pc pending answered =>
      cases rest with
      | nil =>
          have outcome : ReadResult server.pending.length sizeofNbdRequest 0 :=
            Or.inr (Or.inr ⟨rfl, by rw [pending]; rfl⟩)
          refine ⟨.read 0, { server with pending := server.pending.drop 0, pc := .exit 0 }, ?_, Or.inl (Or.inr rfl)⟩
          simp only [serveStep, pc]
          exact if_pos outcome
      | cons request later =>
          have header := request.length_header
          have size : sizeofNbdRequest ≤ server.pending.length := by
            rw [pending, List.flatMap_cons, DeviceRequest.bytes, List.length_append, List.length_append, header]
            omega
          have outcome : ReadResult server.pending.length sizeofNbdRequest sizeofNbdRequest :=
            Or.inr (Or.inl ⟨by decide, le_rfl, by exact_mod_cast size⟩)
          refine ⟨.read sizeofNbdRequest, _, by simp only [serveStep, pc]; exact if_pos outcome, Or.inl ?_⟩
          simp only [pending, List.flatMap_cons, Int.toNat_natCast]
          exact received_well agrees request _
  | payload done request rest split header chunk moved pc decodes writes remains stored pending answered =>
      have left : 1 ≤ request.length - moved := by omega
      have size : 1 ≤ server.pending.length := by
        have framed := request.length_payload writes
        rw [pending, List.length_append, List.length_drop]
        omega
      have outcome : ReadResult server.pending.length (request.length - moved) 1 :=
        Or.inr (Or.inl ⟨le_rfl, by exact_mod_cast left, by exact_mod_cast size⟩)
      have bounded : request.length < 2 ^ 32 := request.len.toNat_lt
      have window : ((⟨moved, request.length - moved⟩ : Window).count) < 2 ^ 32 := by
        simp only
        omega
      obtain ⟨next, advanced⟩ := Option.isSome_iff_exists.mp
        ((assertedAdvance_isSome_iff window (by decide) (by exact_mod_cast left)).mpr ⟨le_rfl, by decide⟩)
      refine ⟨.read 1, _, by simp only [serveStep, pc]; exact if_pos ⟨by omega, outcome⟩, Or.inl ?_⟩
      simp only [advanced, Option.elim_some]
      exact Or.inl (ServePc.inPayload_live ..)
  | operate done request rest split header chunk pc decodes stored pending answered =>
      obtain ⟨next, operated, well⟩ := operate_xmp decodes chunk
      exact ⟨.operate [], next, by simp only [serveStep, pc]; exact operated, well⟩
  | send done rest split part later pc remains small pending answered =>
      have left : 1 ≤ part.window.count := by omega
      have outcome : WriteResult part.window.count 1 := Or.inr ⟨le_rfl, by exact_mod_cast left⟩
      obtain ⟨next, advanced⟩ := Option.isSome_iff_exists.mp ((assertedAdvance_isSome_iff
        (small part List.mem_cons_self) (by decide) (by exact_mod_cast left)).mpr ⟨le_rfl, by decide⟩)
      refine ⟨.write 1, _, by simp only [serveStep, pc]; exact if_pos ⟨remains, outcome⟩, Or.inl ?_⟩
      simp only [advanced, Option.elim_some]
      exact Or.inl (ServePc.sending_live _).1
  | exit done rest split status pc ended answered => rw [pc] at live; cases live
  | aborted done rest split pc => rw [pc] at live; cases live
  | undefined done request rest split pc => rw [pc] at live; cases live

/-- The answers to the requests before the disconnect bound what is sent. -/
theorem Stands.length_sent_le (stands : Stands memoryDevice id platform start requests server) :
    server.sent.length ≤ (blockDevice.transcript start (untilDisc requests)).length := by
  obtain ⟨done, rest, unsent, stage⟩ := stands.stage
  exact (stage.sent_isPrefix stage.split.isPrefix).length_le

/-- From each place the server can go on until it exits with success or strays. -/
theorem exists_run_to_end (agrees : platform.Agrees) (fresh : Buffer)
    (stands : Stands memoryDevice id platform start requests server) (live : server.pc.live = true) :
    ∃ later final, run (serveStep platform xmpOperations fresh) server later = some final ∧
      Stands memoryDevice id platform start requests final ∧ (final.pc = .exit 0 ∨ final.pc = .undefined) := by
  let answers := blockDevice.transcript start (untilDisc requests)
  have continues (state : Server Xmp)
      (sound : Stands memoryDevice id platform start requests state ∧ (state.pc.Well ∨ state.pc = .undefined))
      (unfinished : ¬ (state.pc = .exit 0 ∨ state.pc = .undefined)) :
      ∃ call next, serveStep platform xmpOperations fresh state call = some next ∧
        (Stands memoryDevice id platform start requests next ∧ (next.pc.Well ∨ next.pc = .undefined)) ∧
        next.remaining answers < state.remaining answers := by
    obtain ⟨running, defined⟩ := not_or.mp unfinished
    have goes := (sound.2.resolve_right defined).resolve_right running
    obtain ⟨call, next, stepped, well⟩ := exists_well_step agrees fresh sound.1 goes
    have moves := moves_of_serveStep stepped
    have kept := sound.1.step agrees xmp_implements moves
    exact ⟨call, next, stepped, ⟨kept, well⟩, remaining_falls kept.length_sent_le moves⟩
  obtain ⟨later, final, continued, ⟨after, -⟩, ended⟩ := exists_run_of_falls (Server.remaining answers) continues
    ⟨stands, Or.inl (Or.inl live)⟩
  exact ⟨later, final, continued, after, ended⟩

end

/-- A run of `busexmp` is bounded by its traffic, and while it goes on it can end with all answers sent. -/
theorem busexmp_ends {platform : Platform} (agrees : platform.Agrees) (fresh : Buffer) {data : Xmp}
    {requests : List DeviceRequest} (ranges : ∀ request ∈ requests, request.InRange data.length)
    {calls : List ServeCall} {server : Server Xmp}
    (reached : run (serveStep platform xmpOperations fresh)
      (.initial data (requests.flatMap DeviceRequest.bytes)) calls = some server) :
    calls.length ≤ 2 * (requests.flatMap DeviceRequest.bytes).length +
        (blockDevice.transcript data (untilDisc requests)).length + 1 ∧
      (server.pc.live → ∃ later final, run (serveStep platform xmpOperations fresh) server later = some final ∧
        final.pc = .exit 0 ∧ final.sent = blockDevice.transcript data (untilDisc requests) ∧
          final.device = blockDevice.states data (untilDisc requests)) := by
  constructor
  · have kept (state : Server Xmp) (call : ServeCall) (next : Server Xmp)
        (stands : Stands memoryDevice id platform data requests state)
        (stepped : serveStep platform xmpOperations fresh state call = some next) :
        Stands memoryDevice id platform data requests next :=
      stands.step agrees xmp_implements (moves_of_serveStep stepped)
    have falls (state : Server Xmp) (call : ServeCall) (next : Server Xmp)
        (stands : Stands memoryDevice id platform data requests state)
        (stepped : serveStep platform xmpOperations fresh state call = some next) :=
      remaining_falls (kept state call next stands stepped).length_sent_le (moves_of_serveStep stepped)
    exact (Nat.le_add_right _ _).trans (run_length_add_le _ kept falls (stands_initial rfl) reached)
  · intro live
    have stands := stands_run agrees xmp_implements reached
    obtain ⟨later, final, continued, after, ended⟩ := exists_run_to_end agrees fresh stands live
    obtain ⟨done, rest, unsent, stage⟩ := after.stage
    have serves := stage.serves ranges
    have exited := ended.resolve_right serves.defined
    obtain ⟨sent, device⟩ := serves.success exited
    exact ⟨later, final, continued, exited, sent, device⟩

theorem busexmp_ends_smallSession : ∃ server,
    run (serveStep ⟨.littleEndian, false⟩ xmpOperations fun _ => 7)
      (.initial [1, 2, 3, 4] (smallSession.flatMap DeviceRequest.bytes)) (smallSessionCalls.take 6) = some server ∧
      server.pc.live ∧ ∃ later final,
        run (serveStep ⟨.littleEndian, false⟩ xmpOperations fun _ => 7) server later = some final ∧
          final.pc = .exit 0 ∧ final.sent = blockDevice.transcript [1, 2, 3, 4] (untilDisc smallSession) ∧
            final.device = blockDevice.states [1, 2, 3, 4] (untilDisc smallSession) := by
  have agrees : Platform.Agrees ⟨.littleEndian, false⟩ := rfl
  obtain ⟨server, reached, live⟩ : ∃ server,
      run (serveStep ⟨.littleEndian, false⟩ xmpOperations fun _ => 7)
        (.initial [1, 2, 3, 4] (smallSession.flatMap DeviceRequest.bytes)) (smallSessionCalls.take 6) = some server ∧
        server.pc.live = true := by decide +kernel
  exact ⟨server, reached, live, (busexmp_ends agrees _ (by decide) reached).2 live⟩

/-- After a complete run `loopback` has sent the bytes that `busexmp` sends, and both devices have one content. -/
theorem loopback_interchangeable {platform : Platform} (agrees : platform.Agrees) {fresh other : Buffer} {data : Xmp}
    {position : Nat} {requests : List DeviceRequest} (ranges : ∀ request ∈ requests, request.InRange data.length)
    {calls others : List ServeCall} {server : Server Xmp} {twin : Server OpenFile}
    (reached : run (serveStep platform xmpOperations fresh)
      (.initial data (requests.flatMap DeviceRequest.bytes)) calls = some server)
    (ended : server.pc = .exit 0)
    (reaches : run (serveStep platform loopbackOperations other)
      (.initial ⟨data, position⟩ (requests.flatMap DeviceRequest.bytes)) others = some twin) :
    twin.sent <+: server.sent ∧ (twin.pc = .exit 0 → twin.sent = server.sent ∧ twin.device.bytes = server.device) := by
  obtain ⟨_, _, _, first⟩ := (stands_run agrees xmp_implements reached).stage
  obtain ⟨_, _, _, second⟩ := (stands_run agrees loopback_implements reaches).stage
  have first := first.serves ranges
  have second := second.serves_positioned ranges
  obtain ⟨sent, device⟩ := first.success ended
  refine ⟨sent ▸ second.sent, fun exited => ?_⟩
  obtain ⟨same, content⟩ := second.success exited
  exact ⟨same.trans sent.symm, content.trans device.symm⟩

/-- The operations of `loopback` make system calls of their own. -/
def smallSessionTwin : List ServeCall :=
  [.read 28, .read 2, .operate [1, 1], .write 16, .read 28, .operate [], .write 16,
    .read 28, .operate [2, 1], .write 16, .write 3, .read 28, .operate []]

theorem loopback_interchangeable_smallSession : ∃ server twin,
    run (serveStep ⟨.littleEndian, false⟩ xmpOperations fun _ => 7)
      (.initial [1, 2, 3, 4] (smallSession.flatMap DeviceRequest.bytes)) smallSessionCalls = some server ∧
    run (serveStep ⟨.littleEndian, false⟩ loopbackOperations fun _ => 9)
      (.initial ⟨[1, 2, 3, 4], 3⟩ (smallSession.flatMap DeviceRequest.bytes)) smallSessionTwin = some twin ∧
    twin.pc = .exit 0 ∧ twin.sent = server.sent ∧ twin.device.bytes = server.device := by
  have agrees : Platform.Agrees ⟨.littleEndian, false⟩ := rfl
  obtain ⟨server, reached, ended⟩ : ∃ server,
      run (serveStep ⟨.littleEndian, false⟩ xmpOperations fun _ => 7)
        (.initial [1, 2, 3, 4] (smallSession.flatMap DeviceRequest.bytes)) smallSessionCalls = some server ∧
        server.pc = .exit 0 := by decide +kernel
  obtain ⟨twin, reaches, exited⟩ : ∃ twin,
      run (serveStep ⟨.littleEndian, false⟩ loopbackOperations fun _ => 9)
        (.initial ⟨[1, 2, 3, 4], 3⟩ (smallSession.flatMap DeviceRequest.bytes)) smallSessionTwin = some twin ∧
        twin.pc = .exit 0 := by decide +kernel
  have same := (loopback_interchangeable agrees (by decide) reached ended reaches).2 exited
  exact ⟨server, twin, reached, reaches, exited, same⟩

/-- The requests before the first disconnect are served up to the first one outside the device. -/
def untilStray (size : Nat) (requests : List DeviceRequest) : List DeviceRequest :=
  (untilDisc requests).takeWhile fun request => request.InRange size

/-- The server is a block device up to the first request outside its memory, and it strays exactly there. -/
structure ServesUntilStray (data : Xmp) (requests : List DeviceRequest) (server : Server Xmp) : Prop where
  sent : server.sent <+: blockDevice.transcript data (untilStray data.length requests)
  device : ∃ done, done <+: untilStray data.length requests ∧ server.device = blockDevice.states data done
  success : server.pc = .exit 0 → untilStray data.length requests = untilDisc requests ∧
    server.sent = blockDevice.transcript data (untilDisc requests) ∧
    server.device = blockDevice.states data (untilDisc requests)
  stray : server.pc = .undefined → server.sent = blockDevice.transcript data (untilStray data.length requests) ∧
    server.device = blockDevice.states data (untilStray data.length requests) ∧
    ∃ request, untilStray data.length requests ++ [request] <+: untilDisc requests ∧ ¬ request.InRange data.length

/-- What the memory has done comes before the first request outside it. -/
theorem Split.prefix_untilStray {data : Xmp} {requests done rest : List DeviceRequest}
    (split : Split memoryDevice data requests done rest) :
    untilStray data.length requests = done ++ untilStray data.length rest := by
  have goes : ∀ request ∈ done, decide (request.type ≠ nbdCmdDisc) = true :=
    fun request member => decide_eq_true (split.goes request member)
  have inside : ∀ request ∈ done, decide (request.InRange data.length) = true :=
    fun request member => decide_eq_true ((length_states split.fits).2 request member)
  rw [untilStray, Buse.untilDisc, split.all, List.takeWhile_append_of_pos goes, List.takeWhile_append_of_pos inside]
  rfl

theorem Stage.servesUntilStray {data : Xmp} {requests done rest : List DeviceRequest} {unsent : List UInt8}
    {server : Server Xmp} (stage : Stage memoryDevice id data requests done rest unsent server) :
    ServesUntilStray data requests server := by
  have split := stage.split.prefix_untilStray
  have state : server.device = blockDevice.states data done := by
    rcases stage.device with same | ⟨-, request, later, -, torn⟩
    · exact same
    · exact torn.elim
  constructor
  · exact stage.sent_isPrefix ⟨_, split.symm⟩
  · exact ⟨done, ⟨_, split.symm⟩, state⟩
  · intro exited
    obtain ⟨all, -⟩ := stage.success exited
    refine ⟨?_, stage.complete exited⟩
    apply List.takeWhile_eq_self_iff.mpr
    intro request member
    rw [← all] at member
    exact decide_eq_true ((length_states stage.split.fits).2 request member)
  · intro strays
    obtain ⟨rfl, -, request, later, rfl, other, outside⟩ := stage.stray strays
    have size := (length_states stage.split.fits).1
    have here : ¬ request.InRange data.length := by
      rw [← size]
      exact outside
    have stops : untilStray data.length (request :: later) = [] := by
      simp [untilStray, untilDisc, other, here]
    rw [stops, List.append_nil] at split
    have symbols := stage.symbols
    rw [List.append_nil] at symbols
    rw [split]
    exact ⟨symbols, state, request, stage.split.isPrefix_snoc other, here⟩

/-- On requests of any range `busexmp` is a block device up to the first stray one, and there it can always stray. -/
theorem busexmp_strays {platform : Platform} (agrees : platform.Agrees) (fresh : Buffer) {data : Xmp}
    {requests : List DeviceRequest} {calls : List ServeCall} {server : Server Xmp}
    (reached : run (serveStep platform xmpOperations fresh)
      (.initial data (requests.flatMap DeviceRequest.bytes)) calls = some server) :
    ServesUntilStray data requests server ∧
      (server.pc.live → ((∃ later final, run (serveStep platform xmpOperations fresh) server later = some final ∧
        final.pc = .undefined) ↔ ∃ request ∈ untilDisc requests, ¬ request.InRange data.length)) := by
  have stands := stands_run agrees xmp_implements reached
  obtain ⟨_, _, _, stage⟩ := stands.stage
  refine ⟨stage.servesUntilStray, fun live => ⟨?_, ?_⟩⟩
  · rintro ⟨later, final, continued, strays⟩
    have after : run (serveStep platform xmpOperations fresh)
        (.initial data (requests.flatMap DeviceRequest.bytes)) (calls ++ later) = some final := by
      rw [run_append reached, continued]
    obtain ⟨_, _, _, last⟩ := (stands_run agrees xmp_implements after).stage
    obtain ⟨-, -, request, begins, outside⟩ := last.servesUntilStray.stray strays
    exact ⟨request, begins.subset (by simp), outside⟩
  · rintro ⟨request, member, outside⟩
    obtain ⟨later, final, continued, after, ended⟩ := exists_run_to_end agrees fresh stands live
    refine ⟨later, final, continued, ended.resolve_left fun exited => outside ?_⟩
    obtain ⟨_, _, _, last⟩ := after.stage
    have all := List.takeWhile_eq_self_iff.mp (last.servesUntilStray.success exited).1
    exact of_decide_eq_true (all request member)

/-- This read asks for bytes past the end of a small device. -/
def strayRead : DeviceRequest := plainRequest nbdCmdRead 9 2 nbdCmdRead_plain

theorem busexmp_strays_strayRead : ∃ server,
    run (serveStep ⟨.littleEndian, false⟩ xmpOperations fun _ => 7)
      (.initial [1, 2, 3, 4] ([smallWrite, strayRead].flatMap DeviceRequest.bytes)) (smallSessionCalls.take 7) =
        some server ∧ server.sent = blockDevice.transcript [1, 2, 3, 4] [smallWrite] ∧
      ∃ later final, run (serveStep ⟨.littleEndian, false⟩ xmpOperations fun _ => 7) server later = some final ∧
        final.pc = .undefined := by
  have agrees : Platform.Agrees ⟨.littleEndian, false⟩ := rfl
  obtain ⟨server, reached, live, sent⟩ : ∃ server, run (serveStep ⟨.littleEndian, false⟩ xmpOperations fun _ => 7)
      (.initial [1, 2, 3, 4] ([smallWrite, strayRead].flatMap DeviceRequest.bytes)) (smallSessionCalls.take 7) =
        some server ∧ server.pc.live = true ∧ server.sent = blockDevice.transcript [1, 2, 3, 4] [smallWrite] := by
    decide +kernel
  have all : untilDisc [smallWrite, strayRead] = [smallWrite, strayRead] := rfl
  have strays : ∃ request ∈ untilDisc [smallWrite, strayRead], ¬ request.InRange 4 :=
    ⟨strayRead, by rw [all]; simp, by decide⟩
  exact ⟨server, reached, sent, ((busexmp_strays agrees _ reached).2 live).mpr strays⟩

/-- The server answers as a device with a position, and it finished only requests that fit between place and end. -/
structure ServesPositioned (file : OpenFile) (requests : List DeviceRequest) (server : Server OpenFile) : Prop where
  progress : ∃ done, done <+: untilDisc requests ∧ positionedDevice.Along positionedDevice.Fits file done ∧
    server.sent <+: positionedDevice.transcript file done ∧
    (server.device = positionedDevice.states file done ∨ server.pc = .aborted ∧
      ∃ request, done ++ [request] <+: untilDisc requests ∧
        positionedDevice.Torn (positionedDevice.states file done) request server.device)
  success : server.pc = .exit 0 → positionedDevice.Along positionedDevice.Fits file (untilDisc requests) ∧
    server.sent = positionedDevice.transcript file (untilDisc requests) ∧
    server.device = positionedDevice.states file (untilDisc requests)

/-- On requests of any range `loopback` is a device whose seek past the end leaves the position where it was. -/
theorem loopback_positioned {platform : Platform} (agrees : platform.Agrees) (fresh : Buffer) {file : OpenFile}
    {requests : List DeviceRequest} {calls : List ServeCall} {server : Server OpenFile}
    (reached : run (serveStep platform loopbackOperations fresh)
      (.initial file (requests.flatMap DeviceRequest.bytes)) calls = some server) :
    ServesPositioned file requests server := by
  obtain ⟨done, rest, unsent, stage⟩ := (stands_run agrees loopback_implements reached).stage
  constructor
  · refine ⟨done, stage.split.isPrefix, stage.split.fits, stage.sent_isPrefix List.prefix_rfl, ?_⟩
    refine stage.device.imp_right ?_
    rintro ⟨aborted, request, later, rfl, torn⟩
    refine ⟨aborted, request, stage.split.isPrefix_snoc ?_, torn⟩
    rcases torn with ⟨type, -⟩ | ⟨type, -⟩ <;> rw [type] <;> decide
  · intro exited
    obtain ⟨rfl, -⟩ := stage.success exited
    exact ⟨stage.split.fits, stage.complete exited⟩

/-- The read past the end is answered with the bytes behind the write. -/
theorem loopback_positioned_strayRead : ∃ server,
    run (serveStep ⟨.littleEndian, false⟩ loopbackOperations fun _ => 7)
      (.initial ⟨[1, 2, 3, 4, 5], 0⟩ ([smallWrite, strayRead].flatMap DeviceRequest.bytes))
      [.read 28, .read 2, .operate [2], .write 16, .read 28, .operate [1, 1], .write 16, .write 2, .read 0] =
        some server ∧ server.pc = .exit 0 ∧ server.sent = smallWrite.success ++ (strayRead.success ++ [4, 5]) ∧
      ServesPositioned ⟨[1, 2, 3, 4, 5], 0⟩ [smallWrite, strayRead] server := by
  have agrees : Platform.Agrees ⟨.littleEndian, false⟩ := rfl
  obtain ⟨server, reached, ended, sent⟩ : ∃ server,
      run (serveStep ⟨.littleEndian, false⟩ loopbackOperations fun _ => 7)
        (.initial ⟨[1, 2, 3, 4, 5], 0⟩ ([smallWrite, strayRead].flatMap DeviceRequest.bytes))
        [.read 28, .read 2, .operate [2], .write 16, .read 28, .operate [1, 1], .write 16, .write 2, .read 0] =
          some server ∧ server.pc = .exit 0 ∧ server.sent = smallWrite.success ++ (strayRead.success ++ [4, 5]) := by
    decide +kernel
  exact ⟨server, reached, ended, sent, loopback_positioned agrees _ reached⟩

end DistributedNas.Buse
