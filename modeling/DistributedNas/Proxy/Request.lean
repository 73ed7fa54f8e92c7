import DistributedNas.Library.BigEndian
import DistributedNas.Posix.Descriptor

/-
This file decodes the 28-byte request header of the network block device.
-/

namespace DistributedNas.Proxy
open Library Posix

/-- The byte order of the host decides how a number lies in memory. -/
inductive Endian where
  | littleEndian
  | bigEndian
  deriving DecidableEq, Repr

/-- This function gives the bytes of a number in address order. -/
def Endian.toMemory (host : Endian) (width value : Nat) : List UInt8 :=
  match host with
  | .littleEndian => (Library.bigEndian width value).reverse
  | .bigEndian => Library.bigEndian width value

/-- This function reads a number from bytes in address order. -/
def Endian.fromMemory (host : Endian) (bytes : List UInt8) : Nat :=
  match host with
  | .littleEndian => fromBigEndian bytes.reverse
  | .bigEndian => fromBigEndian bytes

/-- `htonl` swaps the bytes of a word on a little-endian host. -/
def htonl (host : Endian) (value : UInt32) : UInt32 :=
  match host with
  | .littleEndian => UInt32.ofNat (byteSwap 4 value.toNat)
  | .bigEndian => value

/-- `ntohl` is the same conversion as `htonl`. -/
def ntohl (host : Endian) (value : UInt32) : UInt32 := htonl host value

/-- `be64toh` swaps the bytes of a double word on a little-endian host. -/
def be64toh (host : Endian) (value : UInt64) : UInt64 :=
  match host with
  | .littleEndian => UInt64.ofNat (byteSwap 8 value.toNat)
  | .bigEndian => value

/-- The host stores a converted word in network order. -/
theorem toMemory_htonl (host : Endian) (value : UInt32) :
    host.toMemory 4 (htonl host value).toNat = Library.bigEndian 4 value.toNat := by
  cases host with
  | bigEndian => rfl
  | littleEndian =>
      have fits : byteSwap 4 value.toNat < 2 ^ 32 := byteSwap_lt 4 value.toNat
      simp only [Endian.toMemory, htonl, UInt32.toNat_ofNat', Nat.mod_eq_of_lt fits]
      rw [bigEndian_byteSwap, List.reverse_reverse]

/-- The conversion of a loaded network word gives the word that was sent. -/
theorem ntohl_fromMemory (host : Endian) (value : UInt32) :
    ntohl host (UInt32.ofNat (host.fromMemory (Library.bigEndian 4 value.toNat))) = value := by
  have fits : value.toNat < 256 ^ 4 := value.toNat_lt
  cases host with
  | bigEndian =>
      simp only [ntohl, htonl, Endian.fromMemory, fromBigEndian_bigEndian fits, UInt32.ofNat_toNat]
  | littleEndian =>
      have swapped : byteSwap 4 value.toNat < 2 ^ 32 := byteSwap_lt 4 value.toNat
      simp only [ntohl, htonl, Endian.fromMemory]
      change UInt32.ofNat (byteSwap 4 (UInt32.ofNat (byteSwap 4 value.toNat)).toNat) = value
      rw [UInt32.toNat_ofNat', Nat.mod_eq_of_lt swapped, byteSwap_byteSwap _ fits, UInt32.ofNat_toNat]

/-- The conversion of a loaded network double word gives the number that was sent. -/
theorem be64toh_fromMemory (host : Endian) (value : UInt64) :
    be64toh host (UInt64.ofNat (host.fromMemory (Library.bigEndian 8 value.toNat))) = value := by
  have fits : value.toNat < 256 ^ 8 := value.toNat_lt
  cases host with
  | bigEndian => simp only [be64toh, Endian.fromMemory, fromBigEndian_bigEndian fits, UInt64.ofNat_toNat]
  | littleEndian =>
      have swapped : byteSwap 8 value.toNat < 2 ^ 64 := byteSwap_lt 8 value.toNat
      simp only [be64toh, Endian.fromMemory]
      change UInt64.ofNat (byteSwap 8 (UInt64.ofNat (byteSwap 8 value.toNat)).toNat) = value
      rw [UInt64.toNat_ofNat', Nat.mod_eq_of_lt swapped, byteSwap_byteSwap _ fits, UInt64.ofNat_toNat]

/-- These are the command codes of the wire protocol. -/
def nbdCmdRead : UInt32 := 0
def nbdCmdWrite : UInt32 := 1
def nbdCmdDisc : UInt32 := 2

/-- This number starts each reply. -/
def nbdReplyMagic : UInt32 := 0x67446698

/-- A handle is the client's name for one outstanding request. -/
abbrev Handle := Vector UInt8 8

/-- These are the fields of `struct nbd_request` as the host loads them, before any conversion. -/
structure NbdRequest where
  magic : UInt32
  type : UInt32
  handle : Handle
  fromOffset : UInt64
  len : UInt32

/-- The packed header lies at fixed offsets of the buffer that `read_all` filled. -/
def NbdRequest.ofMemory (host : Endian) (memory : Buffer) : NbdRequest where
  magic := UInt32.ofNat (host.fromMemory (memory.load 0 4))
  type := UInt32.ofNat (host.fromMemory (memory.load 4 4))
  handle := Vector.ofFn fun index => memory (8 + index.val)
  fromOffset := UInt64.ofNat (host.fromMemory (memory.load 16 8))
  len := UInt32.ofNat (host.fromMemory (memory.load 24 4))

/-- This is the size of the packed header. -/
def sizeofNbdRequest : Nat := 28

/-- A request carries its type as an `int`. -/
structure Request where
  mType : Int32
  deriving DecidableEq, Repr

/-- A read or write request has `int` fields for its size and its offset. -/
structure NBDRWReq extends Request where
  mSize : Int32
  mOffset : Int32
  mHandle : Handle
  mData : Buffer

/-- The constructor converts each field and stores the wide numbers in `int` fields. -/
def NBDRWReq.ofHeader (host : Endian) (nbdr : NbdRequest) (data : Buffer) : NBDRWReq where
  mType := Int32.ofInt (ntohl host nbdr.type).toNat
  mSize := Int32.ofInt (ntohl host nbdr.len).toNat
  mOffset := Int32.ofInt (be64toh host nbdr.fromOffset).toNat
  mHandle := nbdr.handle
  mData := data

/-- This is a request as a client sends it. -/
structure WireRequest where
  magic : UInt32
  type : UInt32
  handle : Handle
  fromOffset : UInt64
  len : UInt32

/-- The header of a request is in network order. -/
def WireRequest.header (request : WireRequest) : List UInt8 :=
  Library.bigEndian 4 request.magic.toNat ++ Library.bigEndian 4 request.type.toNat ++
    request.handle.toList ++ Library.bigEndian 8 request.fromOffset.toNat ++
      Library.bigEndian 4 request.len.toNat

@[simp] theorem WireRequest.length_header (request : WireRequest) :
    request.header.length = sizeofNbdRequest := by
  simp [header, sizeofNbdRequest]

/-- A load of a stored list is its slice. -/
theorem load_eq_slice {memory : Buffer} {bytes : List UInt8} {total : Nat}
    (stored : memory.load 0 total = bytes) (offset count : Nat) (inside : offset + count ≤ total) :
    memory.load offset count = slice bytes offset count := by
  apply List.ext_getElem?
  intro index
  rw [Buffer.getElem?_load, getElem?_slice, ← stored, Buffer.getElem?_load]
  split
  · rw [if_pos (by omega)]
    congr 2
    omega
  · rfl

/-- The buffer that received a header decodes to the sent fields. -/
theorem NbdRequest.ofMemory_header (host : Endian) (request : WireRequest) {memory : Buffer}
    (stored : memory.load 0 sizeofNbdRequest = request.header) :
    let decoded := NbdRequest.ofMemory host memory
    ntohl host decoded.type = request.type ∧ decoded.handle = request.handle ∧
      be64toh host decoded.fromOffset = request.fromOffset ∧ ntohl host decoded.len = request.len := by
  have field (offset count : Nat) (inside : offset + count ≤ sizeofNbdRequest) :=
    load_eq_slice stored offset count inside
  have type := field 4 4 (by decide)
  have handle := field 8 8 (by decide)
  have start := field 16 8 (by decide)
  have len := field 24 4 (by decide)
  have typeSlice : slice request.header 4 4 = bigEndian 4 request.type.toNat := by
    simpa [WireRequest.header] using slice_middle (bigEndian 4 request.magic.toNat)
      (bigEndian 4 request.type.toNat)
      (request.handle.toList ++ bigEndian 8 request.fromOffset.toNat ++ bigEndian 4 request.len.toNat)
  have handleSlice : slice request.header 8 8 = request.handle.toList := by
    simpa [WireRequest.header] using slice_middle
      (bigEndian 4 request.magic.toNat ++ bigEndian 4 request.type.toNat) request.handle.toList
      (bigEndian 8 request.fromOffset.toNat ++ bigEndian 4 request.len.toNat)
  have startSlice : slice request.header 16 8 = bigEndian 8 request.fromOffset.toNat := by
    simpa [WireRequest.header] using slice_middle
      (bigEndian 4 request.magic.toNat ++ bigEndian 4 request.type.toNat ++ request.handle.toList)
      (bigEndian 8 request.fromOffset.toNat) (bigEndian 4 request.len.toNat)
  have lenSlice : slice request.header 24 4 = bigEndian 4 request.len.toNat := by
    simpa [WireRequest.header] using slice_middle
      (bigEndian 4 request.magic.toNat ++ bigEndian 4 request.type.toNat ++ request.handle.toList ++
        bigEndian 8 request.fromOffset.toNat) (bigEndian 4 request.len.toNat) []
  refine ⟨?_, ?_, ?_, ?_⟩
  · change ntohl host (UInt32.ofNat (host.fromMemory (memory.load (4 : Nat) 4))) = _
    rw [type, typeSlice, ntohl_fromMemory]
  · apply Vector.toList_inj.mp
    rw [← handleSlice, ← handle]
    simp [ofMemory, Buffer.load]
    rfl
  · change be64toh host (UInt64.ofNat (host.fromMemory (memory.load (16 : Nat) 8))) = _
    rw [start, startSlice, be64toh_fromMemory]
  · change ntohl host (UInt32.ofNat (host.fromMemory (memory.load (24 : Nat) 4))) = _
    rw [len, lenSlice, ntohl_fromMemory]

end DistributedNas.Proxy
