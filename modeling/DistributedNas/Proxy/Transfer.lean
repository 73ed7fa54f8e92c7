import DistributedNas.Posix.Descriptor

/-
This file models the loops `read_all` and `write_all`.
-/

namespace DistributedNas.Proxy
open Library Posix

/-- The conversion to `size_t` keeps a number modulo its range. -/
def toSizeT (value : Int) : Nat := (value % 2 ^ 64).toNat

theorem toSizeT_of_fits {value : Int} (nonnegative : 0 ≤ value) (fits : value < 2 ^ 64) :
    toSizeT value = value.toNat := by
  rw [toSizeT, Int.emod_eq_of_lt nonnegative fits]

/-- The window is the part of the buffer that the loop still has to transfer. -/
structure Window where
  buf : Int
  count : Nat
  deriving DecidableEq, Repr

/-- Each loop starts with the whole buffer. -/
def Window.whole (count : Nat) : Window := ⟨0, count⟩

/-- One iteration adds the result, as an `int`, to the pointer and takes it from the count. -/
def Window.advance (window : Window) (result : Int) : Window :=
  let bytes := (Int32.ofInt result).toInt
  ⟨window.buf + bytes, toSizeT (window.count - bytes)⟩

/-- A positive result that fits an `int` shrinks the window from its start. -/
theorem Window.advance_of_fits (window : Window) {result : Nat} (within : result ≤ window.count)
    (small : result < 2 ^ 31) (bounded : window.count < 2 ^ 64) :
    window.advance result = ⟨window.buf + result, window.count - result⟩ := by
  have exact : (Int32.ofInt (result : Int)).toInt = result :=
    Int32.toInt_ofInt_of_le (by omega) (by exact_mod_cast small)
  simp only [advance, exact, mk.injEq, true_and]
  rw [toSizeT_of_fits (by omega) (by omega)]
  omega

/-- A positive result of a loop that fits an `int` moves the window past its first bytes. -/
theorem Window.advance_of_positive {window : Window} {result : Int} (small : window.count < 2 ^ 31)
    (positive : 1 ≤ result) (within : result ≤ window.count) :
    ∃ count : Nat, result = count ∧ 1 ≤ count ∧ count ≤ window.count ∧
      window.advance result = ⟨window.buf + count, window.count - count⟩ := by
  obtain ⟨count, rfl⟩ := Int.eq_ofNat_of_zero_le (by omega : 0 ≤ result)
  have fits : count ≤ window.count := by omega
  exact ⟨count, rfl, by omega, fits, window.advance_of_fits fits (by omega) (by omega)⟩

/-- A `write` call that does not fail moves the window past its first bytes. -/
theorem Window.advance_of_written {window : Window} {result : Int} (small : window.count < 2 ^ 31)
    (positive : 1 ≤ result) (outcome : WriteResult window.count result) :
    ∃ count : Nat, result = count ∧ 1 ≤ count ∧ count ≤ window.count ∧
      window.advance result = ⟨window.buf + count, window.count - count⟩ := by
  rcases outcome with failed | ⟨-, within⟩
  · omega
  · exact Window.advance_of_positive small positive within

/-- A failed call moves the pointer one byte back and adds one to the count. -/
theorem Window.advance_failed (window : Window) :
    window.advance (-1) = ⟨window.buf - 1, toSizeT (window.count + 1)⟩ := by
  have exact : (Int32.ofInt (-1)).toInt = -1 := by decide
  simp only [advance, exact, mk.injEq]
  exact ⟨rfl, by rw [sub_neg_eq_add]⟩

/-- This is one iteration of `read_all` on a file. -/
def readIteration (file : OpenFile) (memory : Buffer) (window : Window) (result : Int) :
    Option (OpenFile × Buffer × Window) :=
  if window.count ≠ 0 ∧ ReadResult (file.bytes.length - file.position) window.count result then
    let received := file.readBytes result.toNat
    some (received.2, memory.store window.buf received.1, window.advance result)
  else none

/-- This is one iteration of `write_all` on a file. -/
def writeIteration (file : OpenFile) (memory : Buffer) (window : Window) (result : Int) :
    Option (OpenFile × Window) :=
  if window.count ≠ 0 ∧ WriteResult window.count result then
    some (file.writeBytes (memory.load window.buf result.toNat), window.advance result)
  else none

/-- This is one iteration of `write_all` on a stream socket. -/
def sendIteration (stream : List UInt8) (memory : Buffer) (window : Window) (result : Int) :
    Option (List UInt8 × Window) :=
  if window.count ≠ 0 ∧ WriteResult window.count result then
    some (stream ++ memory.load window.buf result.toNat, window.advance result)
  else none

/-- A successful iteration of `read_all` stores the next bytes of the file. -/
theorem readIteration_success {file next : OpenFile} {memory stored : Buffer} {window rest : Window}
    {result : Int} (small : window.count < 2 ^ 31) (positive : 1 ≤ result)
    (stepped : readIteration file memory window result = some (next, stored, rest)) :
    ∃ count : Nat, result = count ∧ 1 ≤ count ∧ count ≤ window.count ∧
      file.position + count ≤ file.bytes.length ∧
      next = ⟨file.bytes, file.position + count⟩ ∧
      stored = memory.store window.buf (slice file.bytes file.position count) ∧
      rest = ⟨window.buf + count, window.count - count⟩ := by
  unfold readIteration at stepped
  split at stepped
  · next enabled =>
      obtain ⟨nonempty, failed | ⟨-, within, available⟩ | ended⟩ := enabled
      · omega
      · obtain ⟨count, rfl, one, fits, moved⟩ := Window.advance_of_positive small positive within
        simp only [Option.some.injEq, Prod.mk.injEq, Int.toNat_natCast] at stepped
        obtain ⟨rfl, rfl, rfl⟩ := stepped
        exact ⟨count, rfl, one, fits, by omega, rfl, rfl, moved⟩
      · omega
  · cases stepped

/-- A successful iteration of `write_all` writes the next bytes of the buffer. -/
theorem writeIteration_success {file next : OpenFile} {memory : Buffer} {window rest : Window}
    {result : Int} (small : window.count < 2 ^ 31) (positive : 1 ≤ result)
    (stepped : writeIteration file memory window result = some (next, rest)) :
    ∃ count : Nat, result = count ∧ 1 ≤ count ∧ count ≤ window.count ∧
      next = file.writeBytes (memory.load window.buf count) ∧
      rest = ⟨window.buf + count, window.count - count⟩ := by
  unfold writeIteration at stepped
  split at stepped
  · next enabled =>
      obtain ⟨count, rfl, one, fits, moved⟩ := Window.advance_of_written small positive enabled.2
      simp only [Option.some.injEq, Prod.mk.injEq, Int.toNat_natCast] at stepped
      obtain ⟨rfl, rfl⟩ := stepped
      exact ⟨count, rfl, one, fits, rfl, moved⟩
  · cases stepped

/-- A successful iteration on a socket appends the next bytes of the buffer. -/
theorem sendIteration_success {stream sent : List UInt8} {memory : Buffer} {window rest : Window}
    {result : Int} (small : window.count < 2 ^ 31) (positive : 1 ≤ result)
    (stepped : sendIteration stream memory window result = some (sent, rest)) :
    ∃ count : Nat, result = count ∧ 1 ≤ count ∧ count ≤ window.count ∧
      sent = stream ++ memory.load window.buf count ∧
      rest = ⟨window.buf + count, window.count - count⟩ := by
  unfold sendIteration at stepped
  split at stepped
  · next enabled =>
      obtain ⟨count, rfl, one, fits, moved⟩ := Window.advance_of_written small positive enabled.2
      simp only [Option.some.injEq, Prod.mk.injEq, Int.toNat_natCast] at stepped
      obtain ⟨rfl, rfl⟩ := stepped
      exact ⟨count, rfl, one, fits, rfl, moved⟩
  · cases stepped

end DistributedNas.Proxy
