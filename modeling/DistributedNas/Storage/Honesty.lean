import DistributedNas.Storage.MemoryFile

/-
This file compares what a reply with error 0 promises with each outcome of the system calls before it.
-/

namespace DistributedNas.Proxy
open Library Posix

/-- `Done` passes this part of the buffer to its loop over the data of a read. -/
def NBDRWReq.sent (request : NBDRWReq) : List UInt8 := request.mData.load 0 (toSizeT request.mSize.toInt)

/-- These bytes follow the header with error 0 in the reply to a read. -/
theorem NBDRWReq.reply_eq_sent (host : Endian) {request : NBDRWReq} (reads : request.sendsData)
    (size : 0 ≤ request.mSize.toInt) : request.reply = replyHeader host request ++ request.sent := by
  rw [reply_eq host, payload, if_pos reads, sent, toSizeT_mSize size, length]

end DistributedNas.Proxy

namespace DistributedNas.Storage
open Library Posix Proxy

/-- An operation makes one `lseek` call and then one transfer for each result. -/
def accessCalls (succeeds : Bool) (results : List Int) : List AccessCall :=
  .lseek succeeds :: results.map .transfer

/-- An operation whose transfers all move a byte makes only successful calls. -/
theorem positive_accessCalls {results : List Int} (all : ∀ result ∈ results, 1 ≤ result) :
    ∀ call ∈ accessCalls true results, call.Positive := by
  intro call member
  rcases List.mem_cons.mp member with rfl | transfer
  · rfl
  · obtain ⟨result, inside, rfl⟩ := List.mem_map.mp transfer
    exact all result inside

/-- A loop with these results fails or makes progress at each call and then returns. -/
def Ends : Window → List Int → Prop
  | window, [] => window.count = 0
  | window, result :: rest => window.count ≠ 0 ∧ WriteResult window.count result ∧ Ends (window.advance result) rest

/-- These are the addresses of the transferred bytes, in the order of the transfers. -/
def addresses : Window → List Int → List Int
  | _, [] => []
  | window, result :: rest =>
      (List.range result.toNat).map (fun index : Nat => window.buf + index) ++ addresses (window.advance result) rest

/-- A file has no byte at a negative place. -/
def byteAt (content : List UInt8) (place : Int) : Option UInt8 :=
  if 0 ≤ place then content[place.toNat]? else none

/-- A write put its payload and changed no other byte; a read sends the bytes of its range. -/
def Access.Honest (access : Access) (request : NBDRWReq) (before : List UInt8) (after : AccessState) : Prop :=
  match access with
  | .write =>
      (∀ index : Nat, (index : Int) < request.mSize.toInt →
        byteAt after.file.bytes (request.mOffset.toInt + index) = some (request.mData index)) ∧
      ∀ place : Nat, place < before.length →
        (place : Int) < request.mOffset.toInt ∨ request.mOffset.toInt + request.mSize.toInt ≤ place →
          after.file.bytes[place]? = before[place]?
  | .read =>
      after.request.sent.map some =
        (List.range request.length).map fun index : Nat => byteAt before (request.mOffset.toInt + index)

/-- The outcomes lead to an honest reply whatever the file and the buffer hold. -/
def HonestFor (request : NBDRWReq) (succeeds : Bool) (results : List Int) : Prop :=
  ∀ file memory final,
    run (accessStep request.access) ⟨file, { request with mData := memory }, .seek⟩ (accessCalls succeeds results) =
      some final → final.pc.returned →
    request.access.Honest { request with mData := memory } file.bytes final

/-- The request is empty, or no call fails, or a write of negative size fails until its count wraps. -/
def CarriedOut (request : NBDRWReq) (succeeds : Bool) (results : List Int) : Prop :=
  request.mSize.toInt = 0 ∨
    (0 < request.mSize.toInt ∧ succeeds = true ∧ 0 ≤ request.mOffset.toInt ∧ ∀ result ∈ results, 1 ≤ result) ∨
    (request.mSize.toInt < 0 ∧ request.access = .write ∧ ∀ result ∈ results, result = -1)

section
variable {window : Window} {results : List Int}

/-- A failed call transfers nothing, and a successful one transfers bytes from the window's start. -/
theorem addresses_cons (results : List Int) {result : Int} (outcome : WriteResult window.count result) :
    (result = -1 ∧ addresses window (result :: results) =
        addresses ⟨window.buf - 1, toSizeT (window.count + 1)⟩ results) ∨
      ∃ count : Nat, result = count ∧ 1 ≤ count ∧ count ≤ window.count ∧
        addresses window (result :: results) =
          (List.range count).map (fun index : Nat => window.buf + index) ++
            addresses (window.advance count) results := by
  rcases outcome with rfl | ⟨positive, within⟩
  · left
    exact ⟨rfl, by rw [addresses, Window.advance_failed]; rfl⟩
  · obtain ⟨count, rfl⟩ := Int.eq_ofNat_of_zero_le (by omega : 0 ≤ result)
    right
    exact ⟨count, rfl, by omega, by omega, rfl⟩

theorem getElem?_addresses {count : Nat} (index : Nat) (later : List Int) :
    ((List.range count).map (fun place : Nat => window.buf + place) ++ later)[index]? =
      if index < count then some (window.buf + index) else later[index - count]? := by
  split
  · next inside =>
      rw [List.getElem?_append_left (by simpa using inside), List.getElem?_map, List.getElem?_range inside,
        Option.map_some]
  · next outside => rw [List.getElem?_append_right (by simpa using outside)]; simp

/-- The first transferred byte is at or before the start of the window. -/
theorem addresses_head_le {first : Int} (ends : Ends window results)
    (head : (addresses window results)[0]? = some first) : first ≤ window.buf := by
  induction results generalizing window with
  | nil => simp [addresses] at head
  | cons result rest ih =>
      obtain ⟨-, outcome, later⟩ := ends
      rcases addresses_cons rest outcome with ⟨rfl, same⟩ | ⟨count, -, positive, -, same⟩
      · rw [same] at head
        rw [Window.advance_failed] at later
        have before := ih later head
        simp only at before
        omega
      · rw [same, getElem?_addresses, if_pos (by omega)] at head
        have start := Option.some.inj head
        omega

/-- After a failed call some byte of the window is not transferred at its turn. -/
theorem exists_misplaced (small : window.count < 2 ^ 31) (ends : Ends window results)
    (failed : ¬ ∀ result ∈ results, 1 ≤ result) :
    ∃ index < window.count, (addresses window results)[index]? ≠ some (window.buf + index) := by
  induction results generalizing window with
  | nil => simp at failed
  | cons result rest ih =>
      obtain ⟨remains, outcome, later⟩ := ends
      rcases addresses_cons rest outcome with ⟨rfl, same⟩ | ⟨count, rfl, positive, within, same⟩
      · refine ⟨0, by omega, fun head => ?_⟩
        rw [same] at head
        rw [Window.advance_failed] at later
        have before := addresses_head_le later head
        simp only at before
        omega
      · have moved := window.advance_of_fits within (by omega) (by omega)
        rw [moved] at later same
        obtain ⟨index, inside, misplaced⟩ := ih (by simp only; omega) later fun all =>
          failed (List.forall_mem_cons.mpr ⟨by omega, all⟩)
        simp only at inside misplaced
        refine ⟨count + index, by omega, ?_⟩
        rw [same, getElem?_addresses, if_neg (by omega), Nat.add_sub_cancel_left]
        rwa [Nat.cast_add, ← add_assoc]

theorem addresses_eq_nil (window : Window) (all : ∀ result ∈ results, result = -1) :
    addresses window results = [] := by
  induction results generalizing window with
  | nil => rfl
  | cons result rest ih =>
      obtain ⟨rfl, later⟩ := List.forall_mem_cons.mp all
      simpa [addresses] using ih (window.advance (-1)) later

theorem addresses_ne_nil (ends : Ends window results) (some : ¬ ∀ result ∈ results, result = -1) :
    addresses window results ≠ [] := by
  induction results generalizing window with
  | nil => simp at some
  | cons result rest ih =>
      obtain ⟨-, outcome, later⟩ := ends
      rcases addresses_cons rest outcome with ⟨rfl, same⟩ | ⟨count, -, positive, -, same⟩
      · rw [same, ← Window.advance_failed]
        exact ih later fun all => some (List.forall_mem_cons.mpr ⟨rfl, all⟩)
      · rw [same]
        simp only [ne_eq, List.append_eq_nil_iff, List.map_eq_nil_iff, List.range_eq_nil, not_and]
        omega

variable (file : OpenFile) (request : NBDRWReq)

/-- The loop of a write puts the bytes from these addresses at the position. -/
theorem exists_writeRun (ends : Ends window results) :
    ∃ rest : Window, rest.count = 0 ∧
      run (accessStep .write) ⟨file, request, .loop window⟩ (results.map .transfer) =
        some ⟨file.writeBytes ((addresses window results).map request.mData), request, .loop rest⟩ := by
  induction results generalizing window file with
  | nil => exact ⟨window, ends, by simp [addresses, OpenFile.writeBytes]⟩
  | cons result later ih =>
      obtain ⟨remains, outcome, ends⟩ := ends
      obtain ⟨rest, empty, reached⟩ := ih (file.writeBytes (request.mData.load window.buf result.toNat)) ends
      refine ⟨rest, empty, ?_⟩
      have stepped : accessStep .write ⟨file, request, .loop window⟩ (.transfer result) =
          some ⟨file.writeBytes (request.mData.load window.buf result.toNat), request,
            .loop (window.advance result)⟩ := by
        simp only [accessStep, writeIteration, if_pos (And.intro remains outcome), Option.map_some]
      rw [List.map_cons, run_cons, stepped, Option.bind_some, reached, OpenFile.writeBytes_writeBytes, addresses,
        List.map_append, List.map_map]
      rfl

/-- The loop of a read fills these addresses from the position on and leaves other zeros alone. -/
theorem exists_readRun (ends : Ends window results)
    (available : file.position + (addresses window results).length ≤ file.bytes.length) :
    ∃ (rest : Window) (position : Nat) (memory : Buffer), rest.count = 0 ∧
      run (accessStep .read) ⟨file, request, .loop window⟩ (results.map .transfer) =
        some ⟨⟨file.bytes, position⟩, { request with mData := memory }, .loop rest⟩ ∧
      ∀ place, request.mData place = 0 →
        (∀ index : Nat, (addresses window results)[index]? = some place →
          file.bytes[file.position + index]? = some 0) → memory place = 0 := by
  induction results generalizing window file request with
  | nil => exact ⟨window, file.position, request.mData, ends, rfl, fun _ zero _ => zero⟩
  | cons result later ih =>
      obtain ⟨remains, outcome, ends⟩ := ends
      have width : ((List.range result.toNat).map fun index : Nat => window.buf + index).length = result.toNat := by
        simp
      have room : file.position + result.toNat + (addresses (window.advance result) later).length ≤
          file.bytes.length := by
        simpa only [addresses, List.length_append, width, Nat.add_assoc] using available
      have possible : ReadResult (file.bytes.length - file.position) window.count result := by
        rcases outcome with rfl | ⟨positive, within⟩
        · left
          rfl
        · right
          left
          exact ⟨positive, within, by omega⟩
      let received := slice file.bytes file.position result.toNat
      have stepped : accessStep .read ⟨file, request, .loop window⟩ (.transfer result) =
          some ⟨⟨file.bytes, file.position + result.toNat⟩,
            { request with mData := request.mData.store window.buf received }, .loop (window.advance result)⟩ := by
        simp only [accessStep, readIteration, if_pos (And.intro remains possible), Option.map_some]
        rfl
      obtain ⟨rest, position, memory, empty, reached, zeros⟩ :=
        ih ⟨file.bytes, file.position + result.toNat⟩
          { request with mData := request.mData.store window.buf received } ends room
      refine ⟨rest, position, memory, empty, ?_, fun place zero filled => zeros place ?_ fun index found => ?_⟩
      · rw [List.map_cons, run_cons, stepped, Option.bind_some, reached]
      · have size : received.length = result.toNat := length_slice_of_le (by omega)
        by_cases inside : window.buf ≤ place ∧ place < window.buf + result.toNat
        · obtain ⟨index, rfl⟩ : ∃ index : Nat, place = window.buf + index :=
            ⟨(place - window.buf).toNat, by omega⟩
          have turn : index < result.toNat := by omega
          have value := filled index (by rw [addresses, getElem?_addresses, if_pos turn])
          simp only
          rw [Buffer.store_apply_inside _ _ _ _ (by omega)]
          have same : received[index]? = some 0 := by rw [getElem?_slice, if_pos turn, value]
          exact (List.getElem?_eq_some_iff.mp same).2
        · simp only
          rw [Buffer.store_apply_outside _ _ _ _ (by omega), zero]
      · rw [Nat.add_assoc]
        apply filled (result.toNat + index)
        rw [addresses, getElem?_addresses, if_neg (by omega), Nat.add_sub_cancel_left, found]

end

section
variable {request : NBDRWReq} {succeeds : Bool} {results : List Int}

/-- This is the state after the seek of an operation. -/
def seeked (file : OpenFile) (request : NBDRWReq) (succeeds : Bool) : AccessState :=
  ⟨file.lseek request.mOffset.toInt succeeds, request, .loop (.whole (toSizeT request.mSize.toInt))⟩

theorem run_accessCalls (access : Access) (file : OpenFile) (request : NBDRWReq) :
    run (accessStep access) ⟨file, request, .seek⟩ (accessCalls succeeds results) =
      run (accessStep access) (seeked file request succeeds) (results.map .transfer) := rfl

theorem byteAt_natCast (content : List UInt8) (place : Nat) : byteAt content place = content[place]? := by
  simp [byteAt]

/-- An operation that moved its whole range is honest. -/
theorem Access.Moved.honest {access : Access} {before : List UInt8} {after : AccessState}
    (size : 0 ≤ request.mSize.toInt) (offset : 0 ≤ request.mOffset.toInt)
    (fields : ∃ memory, after.request = { request with mData := memory })
    (payload : access = .write → after.request = request)
    (moved : access.Moved before request.start after.file after.request.mData request.length) :
    access.Honest request before after := by
  have place (index : Nat) : request.mOffset.toInt + index = ((request.start + index : Nat) : Int) := by
    rw [NBDRWReq.start]
    omega
  have length : (request.length : Int) = request.mSize.toInt := Int.toNat_of_nonneg size
  obtain ⟨-, content⟩ := moved
  cases access with
  | write =>
      simp only [payload rfl] at content
      constructor
      · intro index inside
        rw [place, byteAt_natCast, content, getElem?_overwrite, Buffer.length_load, if_pos ⟨by omega, by omega⟩,
          Nat.add_sub_cancel_left, Buffer.getElem?_load, if_pos (by omega), zero_add]
      · intro other known outside
        have apart := place 0
        rw [content, getElem?_overwrite, Buffer.length_load, if_neg (by omega), if_neg (by omega)]
  | read =>
      obtain ⟨-, loaded⟩ := content
      obtain ⟨memory, same⟩ := fields
      have sent : after.request.sent = slice before request.start request.length := by
        rw [← loaded, NBDRWReq.sent, ← NBDRWReq.toSizeT_mSize size, same]
      rw [Access.Honest, sent]
      apply List.ext_getElem?
      intro index
      rw [List.getElem?_map, getElem?_slice, List.getElem?_map]
      split
      · next inside =>
          have present : (slice before request.start request.length)[index]? = some (after.request.mData index) := by
            rw [← loaded, Buffer.getElem?_load, if_pos inside, zero_add]
          rw [getElem?_slice, if_pos inside] at present
          rw [List.getElem?_range inside, Option.map_some, place, byteAt_natCast, present, Option.map_some]
      · next outside => rw [List.getElem?_eq_none (by simpa using outside), Option.map_none, Option.map_none]

/-- A request without failures is carried out. -/
theorem honestFor_of_success (size : 0 ≤ request.mSize.toInt) (offset : 0 ≤ request.mOffset.toInt)
    (all : ∀ result ∈ results, 1 ≤ result) : HonestFor request true results := by
  intro file memory final reached returned
  have fits : 0 ≤ ({ request with mData := memory } : NBDRWReq).mSize.toInt := size
  obtain ⟨moved, payload⟩ := accessRun_moved fits offset (positive_accessCalls all) reached returned
  exact moved.honest size offset (accessRun_request reached) payload

/-- A write with nothing to put is carried out when no call transfers a byte. -/
theorem honestFor_of_idle_write (writes : request.access = .write) (size : request.mSize.toInt ≤ 0)
    (ends : Ends (.whole (toSizeT request.mSize.toInt)) results) (all : ∀ result ∈ results, result = -1) :
    HonestFor request succeeds results := by
  intro file memory final reached returned
  obtain ⟨rest, -, same⟩ := exists_writeRun (file.lseek request.mOffset.toInt succeeds)
    { request with mData := memory } ends
  rw [run_accessCalls, writes, seeked, same, addresses_eq_nil _ all] at reached
  obtain rfl := Option.some.inj reached
  rw [writes]
  constructor
  · intro index inside
    simp only at inside
    omega
  · intro place known outside
    simp [OpenFile.writeBytes]

/-- An empty read is carried out. -/
theorem honestFor_of_empty_read (reads : request.access = .read) (empty : request.mSize.toInt = 0) :
    HonestFor request succeeds results := by
  intro file memory final reached returned
  obtain ⟨stored, same⟩ := accessRun_request reached
  rw [reads, Access.Honest, NBDRWReq.sent, NBDRWReq.length, same]
  simp [empty, toSizeT]

/-- An empty request ends without any transfer. -/
theorem Ends.eq_nil (empty : request.mSize.toInt = 0)
    (ends : Ends (.whole (toSizeT request.mSize.toInt)) results) : results = [] := by
  cases results with
  | nil => rfl
  | cons result rest => exact absurd (by rw [empty]; rfl) ends.1

/-- The condition is enough for an honest reply. -/
theorem honestFor_of_carriedOut (ends : Ends (.whole (toSizeT request.mSize.toInt)) results)
    (carriedOut : CarriedOut request succeeds results) : HonestFor request succeeds results := by
  rcases carriedOut with empty | ⟨positive, rfl, offset, all⟩ | ⟨negative, writes, all⟩
  · cases access : request.access with
    | read => exact honestFor_of_empty_read access empty
    | write =>
        obtain rfl := ends.eq_nil empty
        exact honestFor_of_idle_write access empty.le ends (by simp)
  · exact honestFor_of_success positive.le offset all
  · exact honestFor_of_idle_write writes negative.le ends all

/-- This file holds zeros and has one byte of value 1 at the given place. -/
def marked (size place : Nat) : List UInt8 := (List.replicate size 0).set place 1

theorem getElem?_marked {size place index : Nat} (inside : index < size) :
    (marked size place)[index]? = some (if place = index then 1 else 0) := by
  rw [marked, List.getElem?_set]
  split
  · next same => rw [if_pos (by simpa [same] using inside)]
  · next different => rw [List.getElem?_replicate_of_lt inside]

/-- The position after the seek is the offset unless the seek fails. -/
def seekPosition (start : Nat) (offset : Int) (succeeds : Bool) : Nat :=
  if succeeds ∧ 0 ≤ offset then offset.toNat else start

theorem lseek_eq (bytes : List UInt8) (start : Nat) (offset : Int) (succeeds : Bool) :
    OpenFile.lseek ⟨bytes, start⟩ offset succeeds = ⟨bytes, seekPosition start offset succeeds⟩ := by
  unfold OpenFile.lseek seekPosition
  split <;> rfl

/-- From this start a byte of the range is not moved between its own two places. -/
structure Displaced (request : NBDRWReq) (succeeds : Bool) (results : List Int) (start byte : Nat) : Prop where
  inside : (byte : Int) < request.mSize.toInt
  apart : ∀ index : Nat, (addresses (.whole (toSizeT request.mSize.toInt)) results)[index]? = some (byte : Int) →
    (seekPosition start request.mOffset.toInt succeeds + index : Int) ≠ request.mOffset.toInt + byte

/-- A failed call displaces some byte of a nonempty request. -/
theorem exists_displaced (size : 0 < request.mSize.toInt)
    (ends : Ends (.whole (toSizeT request.mSize.toInt)) results)
    (failed : ¬ (succeeds = true ∧ 0 ≤ request.mOffset.toInt ∧ ∀ result ∈ results, 1 ≤ result)) :
    ∃ start byte, Displaced request succeeds results start byte := by
  rcases lt_or_ge request.mOffset.toInt 0 with negative | offset
  · exact ⟨0, 0, by omega, fun index _ => by omega⟩
  cases succeeds with
  | false =>
      refine ⟨request.mOffset.toInt.toNat + 1, 0, by omega, fun index _ => ?_⟩
      simp only [seekPosition, Bool.false_eq_true, false_and, if_false]
      omega
  | true =>
      have bounded := request.mSize.toInt_lt
      have count := NBDRWReq.toSizeT_mSize size.le
      have small := request.length_lt
      obtain ⟨byte, inside, misplaced⟩ := exists_misplaced (by simpa [Window.whole, count] using small) ends
        fun all => failed ⟨rfl, offset, all⟩
      have length : (request.length : Int) = request.mSize.toInt := Int.toNat_of_nonneg size.le
      simp only [Window.whole, count, zero_add] at inside misplaced
      refine ⟨0, byte, by omega, fun index found same => misplaced ?_⟩
      rw [seekPosition, if_pos ⟨rfl, offset⟩] at same
      obtain rfl : index = byte := by omega
      rwa [Window.whole, count] at found

/-- An honest outcome promises what the loop of a write leaves in any file. -/
theorem HonestFor.write (honest : HonestFor request succeeds results) (writes : request.access = .write)
    (ends : Ends (.whole (toSizeT request.mSize.toInt)) results) (bytes : List UInt8) (start : Nat)
    (memory : Buffer) :
    ∃ rest, Access.write.Honest { request with mData := memory } bytes
      ⟨OpenFile.writeBytes ⟨bytes, seekPosition start request.mOffset.toInt succeeds⟩
        ((addresses (.whole (toSizeT request.mSize.toInt)) results).map memory),
        { request with mData := memory }, .loop rest⟩ := by
  obtain ⟨rest, empty, reached⟩ := exists_writeRun (OpenFile.lseek ⟨bytes, start⟩ request.mOffset.toInt succeeds)
    { request with mData := memory } ends
  have promised := honest ⟨bytes, start⟩ memory _ (by rw [writes]; exact reached)
    (by simp [AccessPc.returned, empty])
  rw [writes, lseek_eq] at promised
  exact ⟨rest, promised⟩

/-- An honest outcome promises what the loop of a read leaves in a buffer of zeros. -/
theorem HonestFor.read (honest : HonestFor request succeeds results) (reads : request.access = .read)
    (ends : Ends (.whole (toSizeT request.mSize.toInt)) results) {bytes : List UInt8} {start : Nat}
    (available : seekPosition start request.mOffset.toInt succeeds +
      (addresses (.whole (toSizeT request.mSize.toInt)) results).length ≤ bytes.length) :
    ∃ file rest memory, Access.read.Honest { request with mData := fun _ => 0 } bytes
        ⟨file, { request with mData := memory }, .loop rest⟩ ∧
      ∀ place, (∀ index : Nat, (addresses (.whole (toSizeT request.mSize.toInt)) results)[index]? = some place →
        bytes[seekPosition start request.mOffset.toInt succeeds + index]? = some 0) → memory place = 0 := by
  obtain ⟨rest, final, memory, empty, reached, zeros⟩ := exists_readRun
    (OpenFile.lseek ⟨bytes, start⟩ request.mOffset.toInt succeeds) { request with mData := fun _ => 0 } ends
    (by rwa [lseek_eq])
  have promised := honest ⟨bytes, start⟩ (fun _ => 0) _ (by rw [reads]; exact reached)
    (by simp [AccessPc.returned, empty])
  rw [reads] at promised
  refine ⟨_, rest, memory, promised, fun place filled => zeros place rfl fun index found => ?_⟩
  rw [lseek_eq]
  exact filled index found

/-- A displaced byte makes a write dishonest. -/
theorem Displaced.not_honestFor_write {start byte : Nat} (displaced : Displaced request succeeds results start byte)
    (writes : request.access = .write) (ends : Ends (.whole (toSizeT request.mSize.toInt)) results) :
    ¬ HonestFor request succeeds results := by
  intro honest
  let memory : Buffer := fun address => if address = byte then 1 else 0
  let zeros : List UInt8 := List.replicate ((request.mOffset.toInt + byte).toNat + 1) 0
  obtain ⟨rest, promised⟩ := honest.write writes ends zeros start memory
  have put := promised.1 byte displaced.inside
  have one : memory byte = 1 := if_pos rfl
  simp only [one, OpenFile.writeBytes] at put
  unfold byteAt at put
  split at put
  · next nonnegative =>
      rw [getElem?_overwrite] at put
      split at put
      · next within =>
          rw [List.getElem?_map] at put
          obtain ⟨address, found, isOne⟩ := Option.map_eq_some_iff.mp put
          obtain rfl : address = byte := by
            by_contra different
            simp [memory, different] at isOne
          have apart := displaced.apart _ found
          omega
      · rw [if_neg (by simp only [zeros, List.length_replicate]; omega), List.getElem?_replicate_of_lt (by omega)]
          at put
        cases put
  · cases put

/-- An honest read sends each byte of its range. -/
theorem honest_read_apply {before : List UInt8} {after : AccessState} (same : after.request.mSize = request.mSize)
    (size : 0 ≤ request.mSize.toInt) (honest : Access.read.Honest request before after) {byte : Nat}
    (inside : byte < request.length) :
    byteAt before (request.mOffset.toInt + byte) = some (after.request.mData byte) := by
  have here : (after.request.sent.map some)[byte]? = _ := congrArg (fun sent => sent[byte]?) honest
  rw [List.getElem?_map, NBDRWReq.sent, same, NBDRWReq.toSizeT_mSize size, Buffer.getElem?_load, if_pos inside,
    zero_add, List.getElem?_map, List.getElem?_range inside] at here
  exact (Option.some.inj here).symm

/-- A displaced byte makes a read dishonest. -/
theorem Displaced.not_honestFor_read {start byte : Nat} (displaced : Displaced request succeeds results start byte)
    (reads : request.access = .read) (ends : Ends (.whole (toSizeT request.mSize.toInt)) results) :
    ¬ HonestFor request succeeds results := by
  intro honest
  let place := (request.mOffset.toInt + byte).toNat
  let moved := addresses (.whole (toSizeT request.mSize.toInt)) results
  let position := seekPosition start request.mOffset.toInt succeeds
  let bytes := marked (place + 1 + position + moved.length) place
  have total : bytes.length = place + 1 + position + moved.length := by simp [bytes, marked]
  have available : position + moved.length ≤ bytes.length := by omega
  obtain ⟨file, rest, memory, promised, zeros⟩ := honest.read reads ends available
  have inside := displaced.inside
  have size : 0 ≤ request.mSize.toInt := by omega
  have length : (request.length : Int) = request.mSize.toInt := Int.toNat_of_nonneg size
  have sent : byteAt bytes (request.mOffset.toInt + byte) = some (memory byte) :=
    honest_read_apply rfl size promised (show byte < request.length by omega)
  unfold byteAt at sent
  split at sent
  · next nonnegative =>
      have zero : memory byte = 0 := by
        apply zeros byte
        intro index found
        have turn : index < moved.length := (List.getElem?_eq_some_iff.mp found).1
        have apart := displaced.apart index found
        change bytes[position + index]? = some 0
        rw [getElem?_marked (by omega), if_neg (by omega)]
      rw [zero, getElem?_marked (by omega), if_pos rfl] at sent
      cases sent
  · cases sent

/-- A read of negative size sends bytes that no range has. -/
theorem not_honestFor_of_negative_read (reads : request.access = .read) (negative : request.mSize.toInt < 0)
    (ends : Ends (.whole (toSizeT request.mSize.toInt)) results) : ¬ HonestFor request succeeds results := by
  intro honest
  let moved := addresses (.whole (toSizeT request.mSize.toInt)) results
  let position := seekPosition 0 request.mOffset.toInt succeeds
  have available : position + moved.length ≤ (marked (position + moved.length) 0).length := by simp [marked]
  obtain ⟨file, rest, memory, promised, -⟩ := honest.read reads ends available
  have count := congrArg List.length promised
  have lower := request.mSize.le_toInt
  simp only [List.length_map, List.length_range, NBDRWReq.sent, Buffer.length_load, NBDRWReq.length,
    toSizeT] at count
  omega

/-- A write of negative size that transfers a byte changes the file outside its empty range. -/
theorem not_honestFor_of_negative_write (writes : request.access = .write) (negative : request.mSize.toInt < 0)
    (ends : Ends (.whole (toSizeT request.mSize.toInt)) results) (transferred : ¬ ∀ result ∈ results, result = -1) :
    ¬ HonestFor request succeeds results := by
  intro honest
  let position := seekPosition 0 request.mOffset.toInt succeeds
  let zeros : List UInt8 := List.replicate (position + 1) 0
  obtain ⟨rest, promised⟩ := honest.write writes ends zeros 0 fun _ => 1
  have moved := addresses_ne_nil ends transferred
  have width : 0 < (addresses (.whole (toSizeT request.mSize.toInt)) results).length :=
    List.length_pos_of_ne_nil moved
  have kept := promised.2 position (by simp [zeros]) (by simp only; omega)
  simp only [OpenFile.writeBytes] at kept
  change (overwrite 0 zeros position _)[position]? = zeros[position]? at kept
  rw [getElem?_overwrite, List.length_map, if_pos ⟨le_rfl, by omega⟩, Nat.sub_self, List.getElem?_map,
    List.getElem?_eq_getElem width, Option.map_some, List.getElem?_replicate_of_lt (by omega)] at kept
  cases kept

end

/-- A request is answered honestly by exactly those outcomes that carry it out. -/
theorem honestFor_iff {request : NBDRWReq} {succeeds : Bool} {results : List Int}
    (ends : Ends (.whole (toSizeT request.mSize.toInt)) results) :
    HonestFor request succeeds results ↔ CarriedOut request succeeds results := by
  refine ⟨fun honest => ?_, honestFor_of_carriedOut ends⟩
  rcases lt_trichotomy request.mSize.toInt 0 with negative | empty | positive
  · right
    right
    refine ⟨negative, ?_⟩
    cases access : request.access with
    | read => exact absurd honest (not_honestFor_of_negative_read access negative ends)
    | write =>
        refine ⟨rfl, ?_⟩
        by_contra transferred
        exact not_honestFor_of_negative_write access negative ends transferred honest
  · left
    exact empty
  · right
    left
    refine ⟨positive, ?_⟩
    by_contra failed
    obtain ⟨start, byte, displaced⟩ := exists_displaced positive ends failed
    cases access : request.access with
    | read => exact displaced.not_honestFor_read access ends honest
    | write => exact displaced.not_honestFor_write access ends honest

/-- A client writes one byte at place 1. -/
def oneByteWrite : NBDRWReq where
  mType := 1
  mSize := 1
  mOffset := 1
  mHandle := Vector.replicate 8 0
  mData := fun _ => 0

/-- The write of one byte is answered honestly when its two calls succeed. -/
theorem honestFor_oneByteWrite : HonestFor oneByteWrite true [1] := by
  have ends : Ends (.whole (toSizeT oneByteWrite.mSize.toInt)) [1] :=
    ⟨by decide, Or.inr (by decide), (by decide : (Window.advance (.whole 1) 1).count = 0)⟩
  exact (honestFor_iff ends).mpr (Or.inr (Or.inl ⟨by decide, rfl, by decide, by decide⟩))

/-- The seek fails, the byte goes to place 0, and the reply still has error 0. -/
theorem honestFor_oneByteWrite_fails : ¬ HonestFor oneByteWrite false [1] := by
  intro honest
  have put := (honest ⟨[0, 0], 0⟩ (fun _ => 7) ⟨⟨[7, 0], 1⟩, { oneByteWrite with mData := fun _ => 7 }, .loop ⟨1, 0⟩⟩
    rfl rfl).1 0 (by decide)
  revert put
  decide

end DistributedNas.Storage
