import DistributedNas.Proxy.Framing
import DistributedNas.Storage.MemoryFile

/-
This file decides when `read_all` and its callers return on a source that ends.
The end of a source gives zero for ever, and the loop makes no progress on it.
-/

namespace DistributedNas.Proxy
open Library Posix

/-- The system gives at most this many bytes in one call of `read`. -/
def maxTransfer : Nat := 0x7ffff000

/-- Each `read` before the end gives at least one byte, and it keeps to the window and to the limit of the system. -/
structure ReadSizes (split : Nat → Nat → Nat) : Prop where
  splits : Splits split
  limit : ∀ calls count, split calls count ≤ maxTransfer

section
variable {split : Nat → Nat → Nat}

theorem ReadSizes.small (sizes : ReadSizes split) (calls count : Nat) : split calls count < 2 ^ 31 :=
  lt_of_le_of_lt (sizes.limit calls count) (by decide)

/-- The loop never returns when the source ends before the window does. -/
theorem readAll_short (sizes : ReadSizes split) {fuel : Nat} {source : Source} {memory : Buffer} {window : Window}
    (bounded : window.count < 2 ^ 64) (short : source.bytes.length < window.count) :
    readAll split fuel source memory window = none := by
  induction fuel generalizing source memory window with
  | zero => rfl
  | succ fuel ih =>
      have remains : window.count ≠ 0 := by omega
      obtain ⟨-, within⟩ := sizes.splits source.calls window.count (by omega)
      have small := sizes.small source.calls window.count
      rw [readAll, if_neg remains]
      generalize chosen : min (split source.calls window.count) source.bytes.length = received
      have moved := window.advance_of_fits (by omega : received ≤ window.count) (by omega) bounded
      simp only [moved]
      -- what the call gives is missing from the source and from the window alike
      apply ih
      · simp only
        omega
      · simp only [List.length_drop]
        omega

/-- The loop returns exactly when the source holds the whole window. -/
theorem readAll_returns_iff (sizes : ReadSizes split) (source : Source) (memory : Buffer) {window : Window}
    (bounded : window.count < 2 ^ 64) :
    (∃ fuel result, readAll split fuel source memory window = some result) ↔ window.count ≤ source.bytes.length := by
  constructor
  · rintro ⟨fuel, result, returned⟩
    by_contra short
    rw [readAll_short sizes bounded (by omega)] at returned
    cases returned
  · intro enough
    obtain ⟨later, returned⟩ := readAll_block sizes.splits (fun calls count _ => sizes.small calls count) bounded
      (Nat.lt_succ_self window.count) (source.bytes.take window.count) (source.bytes.drop window.count)
      (by rw [List.length_take]; omega) source.calls memory
    rw [List.take_append_drop] at returned
    exact ⟨_, _, returned⟩

variable (host : Endian) (fresh : Buffer)

/-- A call that returned returns the same with more fuel. -/
theorem onSocketReady_more {fuel more : Nat} (within : fuel ≤ more) {source : Source}
    {result : CallbackArgument × Source} (returned : onSocketReady host fresh split fuel source = some result) :
    onSocketReady host fresh split more source = some result := by
  obtain ⟨header, read, later⟩ := Option.bind_eq_some_iff.mp returned
  rw [onSocketReady, readAll_more within read, Option.bind_some]
  simp only at later ⊢
  split at later
  · next isWrite =>
      obtain ⟨data, received, same⟩ := Option.map_eq_some_iff.mp later
      rw [if_pos isWrite, readAll_more within received, Option.map_some, same]
  · next notWrite => rw [if_neg notWrite, later]

/-- A call returns only when the next request of the stream was received completely. -/
theorem onSocketReady_complete (sizes : ReadSizes split) {requests : List ClientRequest} {source : Source}
    (received : source.bytes <+: requests.flatMap ClientRequest.bytes) {fuel : Nat}
    {result : CallbackArgument × Source} (returned : onSocketReady host fresh split fuel source = some result) :
    ∃ first, requests.head? = some first ∧ first.bytes <+: source.bytes := by
  obtain ⟨bytes, calls⟩ := source
  obtain ⟨header, read, later⟩ := Option.bind_eq_some_iff.mp returned
  have enough := (readAll_returns_iff sizes _ _ (by decide)).mp ⟨fuel, header, read⟩
  simp only [Window.whole] at enough received
  cases requests with
  | nil =>
      obtain rfl := List.prefix_nil.mp received
      cases enough
  | cons first rest =>
      refine ⟨first, rfl, ?_⟩
      rw [List.flatMap_cons] at received
      have whole := List.prefix_append first.bytes (rest.flatMap ClientRequest.bytes)
      apply List.prefix_of_prefix_length_le whole received
      have start := (List.prefix_append first.header first.payload).trans whole
      have width := first.length_header
      obtain ⟨more, rfl⟩ := List.prefix_of_prefix_length_le start received (by omega)
      obtain ⟨middle, block⟩ := readAll_block sizes.splits (fun calls count _ => sizes.small calls count) (by decide)
        (by simp only [Window.whole, sizeofNbdRequest]; omega : (Window.whole sizeofNbdRequest).count < fuel + 29)
        first.header more width calls fresh
      have same := Option.some.inj ((readAll_more (Nat.le_add_right fuel 29) read).symm.trans block)
      subst same
      have stored : (fresh.store 0 first.header).load 0 sizeofNbdRequest = first.header := by
        rw [← width, Buffer.load_store]
      obtain ⟨type, -, -, len⟩ := NbdRequest.ofMemory_header host first.toWireRequest stored
      have framed := first.framed
      rw [ClientRequest.bytes, List.length_append, List.length_append]
      split at framed
      · next isWrite =>
          simp only [Window.whole, type, len, if_pos isWrite] at later
          obtain ⟨data, filled, -⟩ := Option.map_eq_some_iff.mp later
          have bounded : (Window.whole first.len.toNat).count < 2 ^ 64 := lt_trans first.len.toNat_lt (by decide)
          have payload := (readAll_returns_iff sizes _ _ bounded).mp ⟨fuel, data, filled⟩
          simp only [Window.whole] at payload
          omega
      · omega

/-- A call on a part of the stream returns exactly when the next request was received completely. -/
theorem onSocketReady_returns_iff (sizes : ReadSizes split) {requests : List ClientRequest} {source : Source}
    (received : source.bytes <+: requests.flatMap ClientRequest.bytes) :
    (∃ fuel result, onSocketReady host fresh split fuel source = some result) ↔
      ∃ first, requests.head? = some first ∧ first.bytes <+: source.bytes := by
  constructor
  · rintro ⟨fuel, result, returned⟩
    exact onSocketReady_complete host fresh sizes received returned
  · rintro ⟨first, -, rest, same⟩
    obtain ⟨argument, later, -, returned⟩ := onSocketReady_request host fresh sizes.splits sizes.small le_rfl first
      rest source.calls
    rw [same] at returned
    exact ⟨_, _, returned⟩

/-- A call that returns passes the next request on and leaves what follows it. -/
theorem onSocketReady_passes (sizes : ReadSizes split) {requests : List ClientRequest} {source rest : Source}
    (received : source.bytes <+: requests.flatMap ClientRequest.bytes) {fuel : Nat} {argument : CallbackArgument}
    (returned : onSocketReady host fresh split fuel source = some (argument, rest)) :
    ∃ first, requests.head? = some first ∧ source.bytes = first.bytes ++ rest.bytes ∧ Passes first argument := by
  obtain ⟨first, head, left, same⟩ := onSocketReady_complete host fresh sizes received returned
  obtain ⟨passed, later, passes, whole⟩ := onSocketReady_request host fresh sizes.splits sizes.small
    (Nat.le_add_left (2 ^ 32) fuel) first left source.calls
  rw [same, onSocketReady_more host fresh (Nat.le_add_right fuel (2 ^ 32)) returned] at whole
  obtain ⟨rfl, rfl⟩ := Prod.mk.inj (Option.some.inj whole)
  exact ⟨first, head, same.symm, passes⟩

end

end DistributedNas.Proxy

namespace DistributedNas.Storage
open Library Posix Proxy

/-- `MemoryFile::read` seeks and then reads from the file position on. -/
def memoryFileRead (split : Nat → Nat → Nat) (fuel : Nat) (file : OpenFile) (request : NBDRWReq) (succeeds : Bool) :
    Option (Source × Buffer) :=
  let sought := file.lseek request.mOffset.toInt succeeds
  readAll split fuel ⟨sought.bytes.drop sought.position, 0⟩ request.mData (.whole (toSizeT request.mSize.toInt))

section
variable {split : Nat → Nat → Nat}

/-- A loop that returns on a file is a run of the single system calls of the operation. -/
theorem run_of_readAll (splits : Splits split) {fuel : Nat} {file : OpenFile} {calls : Nat} {request : NBDRWReq}
    {window : Window} {result : Source × Buffer}
    (returned : readAll split fuel ⟨file.bytes.drop file.position, calls⟩ request.mData window = some result) :
    ∃ (results : List Int) (position : Nat) (rest : Window), rest.count = 0 ∧
      run (accessStep .read) ⟨file, request, .loop window⟩ (results.map .transfer) =
        some ⟨⟨file.bytes, position⟩, { request with mData := result.2 }, .loop rest⟩ := by
  induction fuel generalizing file calls request window with
  | zero => cases returned
  | succ fuel ih =>
      rw [readAll] at returned
      split at returned
      · next empty =>
          obtain rfl := Option.some.inj returned
          exact ⟨[], file.position, window, empty, rfl⟩
      · next remains =>
          obtain ⟨positive, within⟩ := splits calls window.count (by omega)
          simp only [List.length_drop] at returned
          generalize chosen : min (split calls window.count) (file.bytes.length - file.position) = received at returned
          have possible : ReadResult (file.bytes.length - file.position) window.count received := by
            unfold ReadResult
            omega
          rw [List.drop_drop] at returned
          have later := @ih ⟨file.bytes, file.position + received⟩ (calls + 1)
            { request with mData := request.mData.store window.buf (slice file.bytes file.position received) }
            (window.advance received) returned
          obtain ⟨results, position, rest, empty, reached⟩ := later
          refine ⟨received :: results, position, rest, empty, ?_⟩
          have stepped : accessStep .read ⟨file, request, .loop window⟩ (.transfer received) =
              some ⟨⟨file.bytes, file.position + received⟩,
                { request with mData := request.mData.store window.buf (slice file.bytes file.position received) },
                .loop (window.advance received)⟩ := by
            simp only [accessStep, readIteration, if_pos (And.intro remains possible), Option.map_some]
            rfl
          rw [List.map_cons, run_cons, stepped, Option.bind_some, reached]

/-- An operation that returns is a run of its single system calls. -/
theorem run_of_memoryFileRead (splits : Splits split) {fuel : Nat} {file : OpenFile} {request : NBDRWReq}
    {succeeds : Bool} {result : Source × Buffer}
    (returned : memoryFileRead split fuel file request succeeds = some result) :
    ∃ (results : List Int) (final : AccessState),
      run (accessStep .read) ⟨file, request, .seek⟩ (.lseek succeeds :: results.map .transfer) = some final ∧
        final.pc.returned ∧ final.request = { request with mData := result.2 } := by
  obtain ⟨results, position, rest, empty, reached⟩ := run_of_readAll splits returned
  refine ⟨results, _, reached, ?_, rfl⟩
  exact beq_iff_eq.mpr empty

/-- The operation returns exactly when the file holds the whole length after the position of its first call. -/
theorem memoryFileRead_returns_iff (sizes : ReadSizes split) (file : OpenFile) (request : NBDRWReq)
    (succeeds : Bool) :
    (∃ fuel result, memoryFileRead split fuel file request succeeds = some result) ↔
      toSizeT request.mSize.toInt ≤ file.bytes.length - (file.lseek request.mOffset.toInt succeeds).position := by
  have bounded : (Window.whole (toSizeT request.mSize.toInt)).count < 2 ^ 64 := by
    simp only [Window.whole, toSizeT]
    omega
  have decided := readAll_returns_iff sizes ⟨(file.lseek request.mOffset.toInt succeeds).bytes.drop
    (file.lseek request.mOffset.toInt succeeds).position, 0⟩ request.mData bounded
  simp only [List.length_drop, OpenFile.lseek_bytes, Window.whole] at decided
  simp only [memoryFileRead, OpenFile.lseek_bytes, Window.whole]
  exact decided

/-- Each of the three functions returns exactly when its source holds all that it asks for before the end. -/
theorem reading_ends_iff (sizes : ReadSizes split) :
    (∀ (source : Source) (memory : Buffer) (count : Nat), count < 2 ^ 64 →
      ((∃ fuel result, readAll split fuel source memory (.whole count) = some result) ↔
        count ≤ source.bytes.length)) ∧
    (∀ (host : Endian) (fresh : Buffer) (requests : List ClientRequest) (source : Source),
      source.bytes <+: requests.flatMap ClientRequest.bytes →
        ((∃ fuel result, onSocketReady host fresh split fuel source = some result) ↔
          ∃ first, requests.head? = some first ∧ first.bytes <+: source.bytes) ∧
        ∀ fuel argument rest, onSocketReady host fresh split fuel source = some (argument, rest) →
          ∃ first, requests.head? = some first ∧ source.bytes = first.bytes ++ rest.bytes ∧ Passes first argument) ∧
    ∀ (file : OpenFile) (request : NBDRWReq) (succeeds : Bool),
      (∃ fuel result, memoryFileRead split fuel file request succeeds = some result) ↔
        toSizeT request.mSize.toInt ≤
          file.bytes.length - (file.lseek request.mOffset.toInt succeeds).position := by
  refine ⟨?_, ?_, memoryFileRead_returns_iff sizes⟩
  · intro source memory count bounded
    exact readAll_returns_iff sizes source memory bounded
  · intro host fresh requests source received
    refine ⟨onSocketReady_returns_iff host fresh sizes received, ?_⟩
    intro fuel argument rest returned
    exact onSocketReady_passes host fresh sizes received returned

end

/-- Each call gives a single byte. -/
theorem readSizes_bytewise : ReadSizes fun _ _ => 1 :=
  ⟨fun _ _ positive => ⟨le_rfl, positive⟩, fun _ _ => by decide⟩

/-- The second write of the stream was received up to its payload. -/
theorem reading_bytewise :
    ((∃ fuel result, readAll (fun _ _ => 1) fuel ⟨[7, 8], 0⟩ (fun _ => 0) (.whole 2) = some result) ↔ 2 ≤ 2) ∧
    ((∃ fuel result, onSocketReady .littleEndian (fun _ => 0) (fun _ _ => 1) fuel
        ⟨smallWrite.bytes ++ smallWrite.header, 0⟩ = some result) ↔
      ∃ first, [smallWrite, smallWrite].head? = some first ∧
        first.bytes <+: smallWrite.bytes ++ smallWrite.header) := by
  obtain ⟨all, calls, -⟩ := reading_ends_iff readSizes_bytewise
  refine ⟨all ⟨[7, 8], 0⟩ _ 2 (by decide), ?_⟩
  refine (calls .littleEndian _ [smallWrite, smallWrite] ⟨smallWrite.bytes ++ smallWrite.header, 0⟩ ?_).1
  exact ⟨smallWrite.payload, by simp [ClientRequest.bytes]⟩

/-- This read asks for two bytes. -/
def twoByteRead : NBDRWReq where
  mType := 0
  mSize := 2
  mOffset := 0
  mHandle := Vector.replicate 8 0
  mData := fun _ => 0

/-- After a closed socket, a header without its payload, or the end of a short file the functions never return. -/
theorem reading_hangs :
    (∀ fuel, onSocketReady .littleEndian (fun _ => 0) (fun _ _ => 1) fuel ⟨[], 0⟩ = none) ∧
    (∀ fuel, onSocketReady .littleEndian (fun _ => 0) (fun _ _ => 1) fuel ⟨smallWrite.header, 0⟩ = none) ∧
    ∀ fuel, memoryFileRead (fun _ _ => 1) fuel ⟨[5], 0⟩ twoByteRead true = none := by
  have incomplete (source : Source) (received : source.bytes <+: [smallWrite].flatMap ClientRequest.bytes)
      (shorter : source.bytes.length < smallWrite.bytes.length) (fuel : Nat) :
      onSocketReady .littleEndian (fun _ => 0) (fun _ _ => 1) fuel source = none := by
    by_contra returned
    obtain ⟨result, returned⟩ := Option.ne_none_iff_exists'.mp returned
    obtain ⟨first, head, whole⟩ := onSocketReady_complete _ _ readSizes_bytewise received returned
    obtain rfl := Option.some.inj head
    have := whole.length_le
    omega
  refine ⟨incomplete ⟨[], 0⟩ List.nil_prefix (by decide), incomplete ⟨smallWrite.header, 0⟩ ?_ (by decide), ?_⟩
  · exact ⟨smallWrite.payload, by simp [ClientRequest.bytes]⟩
  · intro fuel
    exact readAll_short readSizes_bytewise (by decide) (by decide)

end DistributedNas.Storage
