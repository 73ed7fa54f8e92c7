import DistributedNas.Proxy.Request
import DistributedNas.Proxy.Transfer

/-
This file models `struct buse_operations`, the operations of both programs that use it, and `ntohll`.
-/

namespace DistributedNas.Buse
open Library Posix Proxy

/-- The program is built for a host, and the build may define the macro `WORDS_BIGENDIAN`. -/
structure Platform where
  host : Endian
  wordsBigendian : Bool
  deriving DecidableEq, Repr

/-- The macro is defined exactly on a big-endian host. -/
def Platform.Agrees (platform : Platform) : Prop := platform.wordsBigendian = decide (platform.host = .bigEndian)

/-- Without the macro `ntohll` converts both halves and exchanges them, and with it the function does nothing. -/
def Platform.ntohll (platform : Platform) (a : UInt64) : UInt64 :=
  if platform.wordsBigendian then a
  else
    let lo := ntohl platform.host a.toUInt32
    let hi := ntohl platform.host (a >>> 32).toUInt32
    lo.toUInt64 <<< 32 ||| hi.toUInt64

/-- Each loop with an assertion goes on only after a positive `int` result. -/
def assertedAdvance (window : Window) (result : Int) : Option Window :=
  if 0 < (Int32.ofInt result).toInt then some (window.advance result) else none

/-- A call of an operation returns, fails an assertion, or touches memory outside its blocks. -/
inductive Completion (Value Device : Type*) where
  | returned (value : Value) (device : Device)
  | aborted (device : Device)
  | undefined

/-- The operations of a device are given the results of their system calls; an optional one may be missing. -/
structure BuseOperations (Device : Type*) where
  read : Device → Buffer → UInt32 → UInt64 → List Int → Option (Completion (Int32 × Buffer) Device)
  write : Device → Buffer → UInt32 → UInt64 → List Int → Option (Completion Int32 Device)
  disc : Option (Device → Device)
  flush : Option (Device → Int32 × Device)
  trim : Option (UInt64 → UInt32 → Device → Int32 × Device)

/-- `busexmp` keeps its device in one block of memory. -/
abbrev Xmp := List UInt8

/-- `xmp_read` copies from the block without a check. -/
def xmpRead (data : Xmp) (buf : Buffer) (len : UInt32) (offset : UInt64) (results : List Int) :
    Option (Completion (Int32 × Buffer) Xmp) :=
  if results ≠ [] then none
  else if offset.toNat + len.toNat ≤ data.length then
    some (.returned (0, buf.store 0 (slice data offset.toNat len.toNat)) data)
  else some .undefined

/-- `xmp_write` copies into the block without a check. -/
def xmpWrite (data : Xmp) (buf : Buffer) (len : UInt32) (offset : UInt64) (results : List Int) :
    Option (Completion Int32 Xmp) :=
  if results ≠ [] then none
  else if offset.toNat + len.toNat ≤ data.length then
    some (.returned 0 (overwrite 0 data offset.toNat (buf.load 0 len.toNat)))
  else some .undefined

/-- These are the operations of `busexmp`. -/
def xmpOperations : BuseOperations Xmp where
  read := xmpRead
  write := xmpWrite
  disc := some id
  flush := some fun data => (0, data)
  trim := some fun _ _ data => (0, data)

/-- `lseek64` refuses each offset past the end of a block device, whose size fits a signed offset. -/
def lseek64 (file : OpenFile) (offset : UInt64) : OpenFile :=
  if offset.toNat ≤ file.bytes.length then { file with position := offset.toNat } else file

/-- The loop of `loopback_read` runs on the results of its `read` calls. -/
def loopbackReadLoop (file : OpenFile) (memory : Buffer) (window : Window) :
    List Int → Option (Completion (Int32 × Buffer) OpenFile)
  | [] => if window.count = 0 then some (.returned (0, memory) file) else none
  | result :: later =>
      if window.count ≠ 0 ∧ ReadResult (file.bytes.length - file.position) window.count result then
        let received := file.readBytes result.toNat
        match assertedAdvance window result with
        | none => if later = [] then some (.aborted file) else none
        | some rest => loopbackReadLoop received.2 (memory.store window.buf received.1) rest later
      else none

/-- A `write` at the end of a block device fails, and it never goes past the end. -/
def DeviceWriteResult (available count : Nat) (result : Int) : Prop :=
  WriteResult count result ∧ result ≤ available

instance (available count : Nat) (result : Int) : Decidable (DeviceWriteResult available count result) :=
  inferInstanceAs (Decidable (_ ∧ _))

/-- The loop of `loopback_write` runs on the results of its `write` calls. -/
def loopbackWriteLoop (file : OpenFile) (memory : Buffer) (window : Window) :
    List Int → Option (Completion Int32 OpenFile)
  | [] => if window.count = 0 then some (.returned 0 file) else none
  | result :: later =>
      if window.count ≠ 0 ∧ DeviceWriteResult (file.bytes.length - file.position) window.count result then
        let written := file.writeBytes (memory.load window.buf result.toNat)
        match assertedAdvance window result with
        | none => if later = [] then some (.aborted written) else none
        | some rest => loopbackWriteLoop written memory rest later
      else none

/-- `loopback_read` ignores the outcome of its seek. -/
def loopbackRead (file : OpenFile) (buf : Buffer) (len : UInt32) (offset : UInt64) (results : List Int) :
    Option (Completion (Int32 × Buffer) OpenFile) :=
  loopbackReadLoop (lseek64 file offset) buf (.whole len.toNat) results

/-- `loopback_write` ignores the outcome of its seek. -/
def loopbackWrite (file : OpenFile) (buf : Buffer) (len : UInt32) (offset : UInt64) (results : List Int) :
    Option (Completion Int32 OpenFile) :=
  loopbackWriteLoop (lseek64 file offset) buf (.whole len.toNat) results

/-- `loopback` has no operation for a disconnect, a flush or a trim. -/
def loopbackOperations : BuseOperations OpenFile where
  read := loopbackRead
  write := loopbackWrite
  disc := none
  flush := none
  trim := none

/-- The halves of a double word are its remainder and its quotient. -/
theorem toNat_halves (a : UInt64) :
    a.toUInt32.toNat = a.toNat % 256 ^ 4 ∧ (a >>> 32).toUInt32.toNat = a.toNat / 256 ^ 4 := by
  have bound : a.toNat < 2 ^ 64 := a.toNat_lt
  constructor
  · rfl
  · have shifted : (a >>> 32).toNat = a.toNat / 2 ^ 32 := by
      rw [UInt64.toNat_shiftRight, Nat.shiftRight_eq_div_pow]
      rfl
    have narrow : (a >>> 32).toUInt32.toNat = (a >>> 32).toNat % 2 ^ 32 := rfl
    rw [narrow, shifted]
    omega

/-- Two words in one double word weigh the first one more. -/
theorem toNat_join (high low : UInt32) :
    (high.toUInt64 <<< 32 ||| low.toUInt64).toNat = high.toNat * 256 ^ 4 + low.toNat := by
  have first : high.toNat < 2 ^ 32 := high.toNat_lt
  have second : low.toNat < 2 ^ 32 := low.toNat_lt
  have shifted : (high.toUInt64 <<< 32).toNat = high.toNat * 2 ^ 32 := by
    rw [UInt64.toNat_shiftLeft, Nat.shiftLeft_eq]
    exact Nat.mod_eq_of_lt (by simpa using (by omega : high.toNat * 2 ^ 32 < 2 ^ 64))
  rw [UInt64.toNat_or, shifted, UInt32.toNat_toUInt64, Nat.mul_comm, ← Nat.two_pow_add_eq_or_of_lt second]
  omega

/-- Without the macro the function is `be64toh` on a little-endian host. -/
theorem ntohll_littleEndian (a : UInt64) : Platform.ntohll ⟨.littleEndian, false⟩ a = be64toh .littleEndian a := by
  obtain ⟨low, high⟩ := toNat_halves a
  apply UInt64.toNat_inj.mp
  have swapped : byteSwap 8 a.toNat < 2 ^ 64 := byteSwap_lt 8 a.toNat
  have lo : byteSwap 4 (a.toNat % 256 ^ 4) < 2 ^ 32 := byteSwap_lt 4 _
  have hi : byteSwap 4 (a.toNat / 256 ^ 4) < 2 ^ 32 := byteSwap_lt 4 _
  show (_ ||| _ : UInt64).toNat = _
  rw [toNat_join, be64toh, UInt64.toNat_ofNat', Nat.mod_eq_of_lt swapped]
  simp only [ntohl, htonl, low, high, UInt32.toNat_ofNat', Nat.mod_eq_of_lt lo, Nat.mod_eq_of_lt hi]
  exact (byteSwap_add 4 4 a.toNat).symm

/-- The function is `be64toh` where the macro agrees with the host. -/
theorem Platform.Agrees.ntohll {platform : Platform} (agrees : platform.Agrees) (a : UInt64) :
    platform.ntohll a = be64toh platform.host a := by
  obtain ⟨host, defined⟩ := platform
  cases host with
  | littleEndian =>
      obtain rfl : defined = false := agrees
      exact ntohll_littleEndian a
  | bigEndian =>
      obtain rfl : defined = true := agrees
      rfl

/-- The function decodes each offset that a client sends exactly when the macro agrees with the host. -/
theorem ntohll_decodes_iff (platform : Platform) :
    (∀ value : UInt64, platform.ntohll
      (UInt64.ofNat (platform.host.fromMemory (Library.bigEndian 8 value.toNat))) = value) ↔ platform.Agrees := by
  constructor
  · intro decodes
    by_contra disagrees
    obtain ⟨host, defined⟩ := platform
    revert disagrees
    have first := decodes 1
    revert first
    cases host <;> cases defined <;> simp [Platform.Agrees] <;> decide
  · intro agrees value
    rw [agrees.ntohll, be64toh_fromMemory]

section
variable {window next : Window} {result : Int}

/-- A loop goes on exactly after a positive result below the range of an `int`, and then past the moved bytes. -/
theorem assertedAdvance_eq_some (bounded : window.count < 2 ^ 32) (lower : -1 ≤ result)
    (within : result ≤ window.count) :
    assertedAdvance window result = some next ↔
      ∃ count : Nat, result = count ∧ 1 ≤ count ∧ count < 2 ^ 31 ∧
        next = ⟨window.buf + count, window.count - count⟩ := by
  unfold assertedAdvance
  rcases lt_or_ge result (2 ^ 31) with small | large
  · have exact : (Int32.ofInt result).toInt = result :=
      Int32.toInt_ofInt_of_le (by omega) (by exact_mod_cast small)
    rw [exact]
    constructor
    · intro advanced
      split at advanced
      · next positive =>
          obtain ⟨count, rfl⟩ := Int.eq_ofNat_of_zero_le (by omega : 0 ≤ result)
          obtain rfl := Option.some.inj advanced
          exact ⟨count, rfl, by omega, by omega, window.advance_of_fits (by omega) (by omega) (by omega)⟩
      · cases advanced
    · rintro ⟨count, rfl, positive, -, rfl⟩
      rw [if_pos (by omega), window.advance_of_fits (by omega) (by omega) (by omega)]
  · have wraps : (Int32.ofInt result).toInt = result - 2 ^ 32 := by
      have size : (Int32.size : Int) = 2 ^ 32 := rfl
      rw [Int32.toInt_ofInt, Int.bmod_def, size]
      split <;> omega
    rw [wraps, if_neg (by omega)]
    constructor
    · rintro ⟨⟩
    · rintro ⟨count, rfl, -, fits, -⟩
      omega

end

end DistributedNas.Buse
