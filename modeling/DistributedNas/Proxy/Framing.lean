import DistributedNas.Proxy.Request
import DistributedNas.Proxy.Transfer

/-
This file models `NBDProxy::OnSocketReady` and proves the framing of the request stream.
-/

namespace DistributedNas.Proxy
open Library Posix

/-- The socket holds the bytes not yet read; the count of earlier calls selects the next split. -/
structure Source where
  bytes : List UInt8
  calls : Nat

/-- This function runs `read_all` for at most `fuel` tests of its loop condition. -/
def readAll (split : Nat → Nat → Nat) : Nat → Source → Buffer → Window → Option (Source × Buffer)
  | 0, _, _, _ => none
  | fuel + 1, source, memory, window =>
      if window.count = 0 then some (source, memory)
      else
        let received := min (split source.calls window.count) source.bytes.length
        readAll split fuel ⟨source.bytes.drop received, source.calls + 1⟩
          (memory.store window.buf (source.bytes.take received)) (window.advance received)

/-- The callback receives a null pointer, a plain request, or a read or write request. -/
inductive CallbackArgument where
  | null
  | plain (request : Request)
  | readWrite (request : NBDRWReq)

/-- The switch on the type builds the request; it has no default branch. -/
def makeRequest (host : Endian) (request : NbdRequest) (data : Buffer) : CallbackArgument :=
  if ntohl host request.type = nbdCmdRead then .readWrite (.ofHeader host request data)
  else if ntohl host request.type = nbdCmdWrite then .readWrite (.ofHeader host request data)
  else if ntohl host request.type = nbdCmdDisc then .plain ⟨Int32.ofInt request.type.toNat⟩
  else .null

/-- `OnSocketReady` reads a header and, for a write, its data, and gives the callback's argument. -/
def onSocketReady (host : Endian) (fresh : Buffer) (split : Nat → Nat → Nat) (fuel : Nat)
    (source : Source) : Option (CallbackArgument × Source) :=
  (readAll split fuel source fresh (.whole sizeofNbdRequest)).bind fun header =>
    let request := NbdRequest.ofMemory host header.2
    if ntohl host request.type = nbdCmdWrite then
      (readAll split fuel header.1 fresh (.whole (ntohl host request.len).toNat)).map fun data =>
        (makeRequest host request data.2, data.1)
    else some (makeRequest host request fresh, header.1)

/-- This function calls `OnSocketReady` repeatedly and records each argument and what is left. -/
def serve (host : Endian) (fresh : Buffer) (split : Nat → Nat → Nat) (fuel : Nat) :
    Nat → Source → Option (List (CallbackArgument × List UInt8))
  | 0, _ => some []
  | calls + 1, source =>
      (onSocketReady host fresh split fuel source).bind fun served =>
        (serve host fresh split fuel calls served.2).map ((served.1, served.2.bytes) :: ·)

/-- Each call of `read` gives between one byte and the requested number. -/
def Splits (split : Nat → Nat → Nat) : Prop :=
  ∀ calls count, 1 ≤ count → 1 ≤ split calls count ∧ split calls count ≤ count

/-- The loop stores the next block of the stream and leaves the rest. -/
theorem readAll_block {split : Nat → Nat → Nat} (splits : Splits split) {fuel : Nat} {window : Window}
    (small : ∀ calls count, count ≤ window.count → split calls count < 2 ^ 31)
    (bounded : window.count < 2 ^ 64) (enough : window.count < fuel) (block rest : List UInt8)
    (size : block.length = window.count) (calls : Nat) (memory : Buffer) :
    ∃ later, readAll split fuel ⟨block ++ rest, calls⟩ memory window =
      some (⟨rest, later⟩, memory.store window.buf block) := by
  induction fuel generalizing window block calls memory with
  | zero => omega
  | succ fuel ih =>
      by_cases empty : window.count = 0
      · obtain rfl := List.length_eq_zero_iff.mp (size.trans empty)
        exact ⟨calls, by simp [readAll, empty]⟩
      · obtain ⟨positive, within⟩ := splits calls window.count (by omega)
        have moved := window.advance_of_fits within (small calls _ le_rfl) bounded
        generalize chosen : split calls window.count = count at positive within moved
        have received : min count (block ++ rest).length = count := by
          rw [List.length_append]
          omega
        have taken : (block ++ rest).take count = block.take count :=
          List.take_append_of_le_length (by omega)
        have left : (block ++ rest).drop count = block.drop count ++ rest :=
          List.drop_append_of_le_length (by omega)
        obtain ⟨later, done⟩ := @ih ⟨window.buf + count, window.count - count⟩
          (fun other size inside => small other size (by simp only at inside; omega))
          (by simp only; omega) (by simp only; omega) (block.drop count)
          (by simp only [List.length_drop]; omega) (calls + 1)
          (memory.store window.buf (block.take count))
        refine ⟨later, ?_⟩
        have width : (block.take count).length = count := by
          rw [List.length_take]
          omega
        have whole := Buffer.store_append memory window.buf (block.take count) (block.drop count)
        rw [width, List.take_append_drop] at whole
        rw [readAll, if_neg empty]
        simp only [chosen, received, taken, left]
        rw [moved, done, whole]

/-- A loop that returned returns the same with more fuel. -/
theorem readAll_more {split : Nat → Nat → Nat} {fuel more : Nat} (within : fuel ≤ more) {source : Source}
    {memory : Buffer} {window : Window} {result : Source × Buffer}
    (returned : readAll split fuel source memory window = some result) :
    readAll split more source memory window = some result := by
  induction fuel generalizing more source memory window with
  | zero => cases returned
  | succ fuel ih =>
      cases more with
      | zero => omega
      | succ more =>
          rw [readAll] at returned ⊢
          split
          · next empty => rwa [if_pos empty] at returned
          · next remains =>
              rw [if_neg remains] at returned
              exact ih (by omega) returned

/-- The loop never returns when the stream ends before the window does. -/
theorem readAll_exhausted (split : Nat → Nat → Nat) (fuel calls : Nat) (memory : Buffer) {window : Window}
    (remains : window.count ≠ 0) (bounded : window.count < 2 ^ 64) :
    readAll split fuel ⟨[], calls⟩ memory window = none := by
  have stays : window.advance ((0 : Nat) : Int) = window := by
    have same := window.advance_of_fits (Nat.zero_le window.count) (by decide) bounded
    rwa [Nat.cast_zero, add_zero] at same
  induction fuel generalizing calls memory with
  | zero => rfl
  | succ fuel ih =>
      rw [readAll, if_neg remains]
      simp only [List.length_nil, Nat.min_zero, List.drop_nil, List.take_nil, Buffer.store_nil, stays, ih]

/-- A request of the client has one of three types, and a write carries its data. -/
structure ClientRequest extends WireRequest where
  payload : List UInt8
  known : type = nbdCmdRead ∨ type = nbdCmdWrite ∨ type = nbdCmdDisc
  framed : payload.length = if type = nbdCmdWrite then len.toNat else 0

/-- The client sends the header and then the payload. -/
def ClientRequest.bytes (request : ClientRequest) : List UInt8 := request.header ++ request.payload

/-- The argument of the callback carries the type, the handle, and the payload that were sent. -/
def Passes (request : ClientRequest) (argument : CallbackArgument) : Prop :=
  match argument with
  | .null => False
  | .plain _ => request.type = nbdCmdDisc
  | .readWrite decoded =>
      request.type ≠ nbdCmdDisc ∧ decoded.mType = Int32.ofInt request.type.toNat ∧
        decoded.mHandle = request.handle ∧
        (request.type = nbdCmdWrite → decoded.mData.load 0 request.len.toNat = request.payload)

/-- Each call passes its own request on and leaves exactly the bytes of the later requests. -/
def Framed : List ClientRequest → List (CallbackArgument × List UInt8) → Prop
  | [], [] => True
  | request :: later, (argument, left) :: more =>
      Passes request argument ∧ left = later.flatMap ClientRequest.bytes ∧ Framed later more
  | _, _ => False

/-- One call per request returns, and the calls undo the serialisation. -/
def Undoes (host : Endian) (fresh : Buffer) (split : Nat → Nat → Nat) (requests : List ClientRequest) : Prop :=
  ∃ fuel results,
    serve host fresh split fuel requests.length ⟨requests.flatMap ClientRequest.bytes, 0⟩ = some results ∧
      Framed requests results

section
variable (host : Endian) (fresh : Buffer) {split : Nat → Nat → Nat}

/-- One call consumes exactly one request and passes it on. -/
theorem onSocketReady_request (splits : Splits split) (small : ∀ calls count, split calls count < 2 ^ 31)
    {fuel : Nat} (enough : 2 ^ 32 ≤ fuel) (request : ClientRequest) (rest : List UInt8) (calls : Nat) :
    ∃ argument later, Passes request argument ∧
      onSocketReady host fresh split fuel ⟨request.bytes ++ rest, calls⟩ = some (argument, ⟨rest, later⟩) := by
  obtain ⟨middle, header⟩ := readAll_block splits (fun calls count _ => small calls count) (by decide)
    (by simp only [Window.whole, sizeofNbdRequest]; omega : (Window.whole sizeofNbdRequest).count < fuel)
    request.header (request.payload ++ rest) request.length_header calls fresh
  have stored : (fresh.store 0 request.header).load 0 sizeofNbdRequest = request.header := by
    rw [← request.length_header, Buffer.load_store]
  have decoded := NbdRequest.ofMemory_header host request.toWireRequest stored
  obtain ⟨type, handle, -, len⟩ := decoded
  have framed := request.framed
  unfold onSocketReady
  rw [ClientRequest.bytes, List.append_assoc, header, Option.bind_some]
  simp only [Window.whole, type, len]
  have bound : request.len.toNat < 2 ^ 32 := request.len.toNat_lt
  split
  · next isWrite =>
      rw [if_pos isWrite] at framed
      obtain ⟨later, data⟩ := readAll_block splits (fun calls count _ => small calls count)
        (by simp only [Window.whole]; omega)
        (by simp only [Window.whole]; omega : (Window.whole request.len.toNat).count < fuel)
        request.payload rest framed middle fresh
      refine ⟨_, later, ?_, by rw [← Window.whole, data]; rfl⟩
      have notRead : request.type ≠ nbdCmdRead := by rw [isWrite]; decide
      have notDisc : request.type ≠ nbdCmdDisc := by rw [isWrite]; decide
      rw [makeRequest, type, if_neg notRead, if_pos isWrite]
      refine ⟨notDisc, by simp only [NBDRWReq.ofHeader, type], handle, fun _ => ?_⟩
      rw [← framed]
      exact Buffer.load_store _ _ _
  · next notWrite =>
      rw [if_neg notWrite, List.length_eq_zero_iff] at framed
      refine ⟨_, middle, ?_, by rw [framed, List.nil_append]⟩
      rcases request.known with isRead | isWrite | isDisc
      · have notDisc : request.type ≠ nbdCmdDisc := by rw [isRead]; decide
        rw [makeRequest, type, if_pos isRead]
        exact ⟨notDisc, by simp only [NBDRWReq.ofHeader, type], handle, fun isWrite => absurd isWrite notWrite⟩
      · exact absurd isWrite notWrite
      · have notRead : request.type ≠ nbdCmdRead := by rw [isDisc]; decide
        rw [makeRequest, type, if_neg notRead, if_neg notWrite, if_pos isDisc]
        exact isDisc

/-- The calls undo the serialisation for each split into chunks that fit an `int`. -/
theorem onSocketReady_framing (requests : List ClientRequest) (splits : Splits split)
    (small : ∀ calls count, split calls count < 2 ^ 31) : Undoes host fresh split requests := by
  refine ⟨2 ^ 32, ?_⟩
  generalize 0 = calls
  induction requests generalizing calls with
  | nil => exact ⟨[], rfl, trivial⟩
  | cons request requests ih =>
      obtain ⟨argument, later, passes, served⟩ := onSocketReady_request host fresh splits small le_rfl
        request (requests.flatMap ClientRequest.bytes) calls
      obtain ⟨results, remaining, framed⟩ := ih later
      refine ⟨(argument, requests.flatMap ClientRequest.bytes) :: results, ?_, passes, rfl, framed⟩
      rw [List.length_cons, serve, List.flatMap_cons, served, Option.bind_some, remaining]
      rfl

end

/-- This write carries two bytes. -/
def smallWrite : ClientRequest where
  magic := 0
  type := nbdCmdWrite
  handle := Vector.replicate 8 5
  fromOffset := 3
  len := 2
  payload := [8, 9]
  known := Or.inr (Or.inl rfl)
  framed := rfl

theorem onSocketReady_framing_bytewise :
    Undoes .littleEndian (fun _ => 0) (fun _ _ => 1) [smallWrite, smallWrite] :=
  onSocketReady_framing .littleEndian _ _ (fun _ _ positive => ⟨le_rfl, positive⟩) fun _ _ => by decide

/-- This write has a payload of two gibibytes. -/
def hugeWrite : ClientRequest where
  magic := 0
  type := nbdCmdWrite
  handle := Vector.replicate 8 0
  fromOffset := 0
  len := 2147483648
  payload := List.replicate 2147483648 0
  known := Or.inr (Or.inl rfl)
  framed := by rw [List.length_replicate, if_pos rfl]; rfl

/-- One chunk of two gibibytes becomes a negative `int`, and the loop never returns. -/
theorem onSocketReady_framing_fails :
    ¬ ∀ (requests : List ClientRequest) (split : Nat → Nat → Nat), Splits split →
      Undoes .littleEndian (fun _ => 0) split requests := by
  intro all
  let whole : Nat → Nat → Nat := fun _ count => count
  have splits : Splits whole := fun _ _ positive => ⟨positive, le_rfl⟩
  obtain ⟨fuel, results, served, -⟩ := all [hugeWrite] whole splits
  have bounded : (Window.whole sizeofNbdRequest).count < 2 ^ 64 := by decide
  have enough : (Window.whole sizeofNbdRequest).count < fuel + 29 := by
    simp only [Window.whole, sizeofNbdRequest]
    omega
  obtain ⟨middle, header⟩ := readAll_block splits (fun calls count inside => lt_of_le_of_lt inside (by decide))
    bounded enough hugeWrite.header hugeWrite.payload hugeWrite.length_header 0 fun _ => 0
  rw [List.length_singleton, serve, List.flatMap_singleton, Option.bind_eq_some_iff] at served
  obtain ⟨⟨argument, source⟩, called, -⟩ := served
  obtain ⟨⟨first, memory⟩, read, called⟩ := Option.bind_eq_some_iff.mp called
  have same := readAll_more (Nat.le_add_right fuel 29) read
  rw [ClientRequest.bytes, header, Option.some.injEq, Prod.mk.injEq] at same
  obtain ⟨rfl, rfl⟩ := same
  have stored : (Buffer.store (fun _ => 0) 0 hugeWrite.header).load 0 sizeofNbdRequest = hugeWrite.header := by
    rw [← hugeWrite.length_header, Buffer.load_store]
  obtain ⟨type, -, -, len⟩ := NbdRequest.ofMemory_header .littleEndian hugeWrite.toWireRequest stored
  have isWrite : hugeWrite.type = nbdCmdWrite := rfl
  rw [isWrite] at type
  simp only [Window.whole, type, len, ↓reduceIte] at called
  obtain ⟨result, read, -⟩ := Option.map_eq_some_iff.mp called
  cases fuel with
  | zero => cases read
  | succ fuel =>
      have wraps : (⟨0, 2147483648⟩ : Window).advance ((2147483648 : Nat) : Int) =
          ⟨-2147483648, 4294967296⟩ := by decide
      have size : hugeWrite.payload.length = 2147483648 := List.length_replicate
      have chunk : min (whole middle 2147483648) hugeWrite.payload.length = 2147483648 := by
        rw [size]
        rfl
      have count : hugeWrite.len.toNat = 2147483648 := rfl
      rw [readAll, count, if_neg (by decide)] at read
      simp only [chunk, wraps] at read
      rw [List.drop_of_length_le size.le, readAll_exhausted _ _ _ _ (by decide) (by decide)] at read
      cases read

end DistributedNas.Proxy
