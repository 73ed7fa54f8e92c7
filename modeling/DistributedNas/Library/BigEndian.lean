import Mathlib.Data.List.Basic
import Mathlib.Tactic

namespace DistributedNas.Library

/-- The big-endian digits of a number use a fixed count of bytes. -/
def bigEndian : Nat → Nat → List UInt8
  | 0, _ => []
  | width + 1, value => bigEndian width (value / 256) ++ [UInt8.ofNat value]

/-- This function reads bytes as one big-endian number. -/
def fromBigEndian (bytes : List UInt8) : Nat :=
  bytes.foldl (fun value byte => 256 * value + byte.toNat) 0

@[simp] theorem length_bigEndian (width value : Nat) : (bigEndian width value).length = width := by
  induction width generalizing value with
  | zero => rfl
  | succ width ih => simp [bigEndian, ih]

theorem fromBigEndian_concat (bytes : List UInt8) (byte : UInt8) :
    fromBigEndian (bytes ++ [byte]) = 256 * fromBigEndian bytes + byte.toNat := by
  simp [fromBigEndian]

/-- The big-endian number of some bytes fits their count. -/
theorem fromBigEndian_lt (bytes : List UInt8) : fromBigEndian bytes < 256 ^ bytes.length := by
  induction bytes using List.reverseRecOn with
  | nil => simp [fromBigEndian]
  | append_singleton bytes byte ih =>
      rw [fromBigEndian_concat, List.length_append, List.length_singleton, pow_succ]
      have := byte.toNat_lt
      omega

/-- Reading the digits gives the number back when it fits. -/
theorem fromBigEndian_bigEndian {width value : Nat} (fits : value < 256 ^ width) :
    fromBigEndian (bigEndian width value) = value := by
  induction width generalizing value with
  | zero => simp only [pow_zero, Nat.lt_one_iff] at fits; simp [bigEndian, fromBigEndian, fits]
  | succ width ih =>
      have quotient : value / 256 < 256 ^ width := by
        rw [pow_succ] at fits
        omega
      rw [bigEndian, fromBigEndian_concat, ih quotient, UInt8.toNat_ofNat']
      omega

/-- Writing the digits of the number gives the bytes back. -/
theorem bigEndian_fromBigEndian (bytes : List UInt8) :
    bigEndian bytes.length (fromBigEndian bytes) = bytes := by
  induction bytes using List.reverseRecOn with
  | nil => rfl
  | append_singleton bytes byte ih =>
      have small := byte.toNat_lt
      have quotient : fromBigEndian (bytes ++ [byte]) / 256 = fromBigEndian bytes := by
        rw [fromBigEndian_concat]
        omega
      have digit : UInt8.ofNat (fromBigEndian (bytes ++ [byte])) = byte := by
        apply UInt8.toNat_inj.mp
        rw [fromBigEndian_concat, UInt8.toNat_ofNat']
        omega
      rw [List.length_append, List.length_singleton, bigEndian, quotient, ih, digit]

/-- The byte swap reverses the order of the digits. -/
def byteSwap (width value : Nat) : Nat := fromBigEndian (bigEndian width value).reverse

theorem byteSwap_lt (width value : Nat) : byteSwap width value < 256 ^ width := by
  have bound := fromBigEndian_lt (bigEndian width value).reverse
  rwa [List.length_reverse, length_bigEndian] at bound

/-- The digits of a swapped number are the reversed digits. -/
theorem bigEndian_byteSwap (width value : Nat) :
    bigEndian width (byteSwap width value) = (bigEndian width value).reverse := by
  have whole := bigEndian_fromBigEndian (bigEndian width value).reverse
  rwa [List.length_reverse, length_bigEndian] at whole

/-- Two swaps give the number back when it fits. -/
theorem byteSwap_byteSwap (width : Nat) {value : Nat} (fits : value < 256 ^ width) :
    byteSwap width (byteSwap width value) = value := by
  rw [byteSwap, bigEndian_byteSwap, List.reverse_reverse, fromBigEndian_bigEndian fits]

/-- Wider digits are the digits of the quotient and then the ones of the number. -/
theorem bigEndian_add (high low value : Nat) :
    bigEndian (high + low) value = bigEndian high (value / 256 ^ low) ++ bigEndian low value := by
  induction low generalizing value with
  | zero => simp [bigEndian]
  | succ low ih =>
      rw [← Nat.add_assoc, bigEndian, ih, bigEndian, List.append_assoc, Nat.div_div_eq_div_mul, ← pow_succ']

/-- Bytes read as one number weigh the first ones more. -/
theorem fromBigEndian_append (first second : List UInt8) :
    fromBigEndian (first ++ second) = fromBigEndian first * 256 ^ second.length + fromBigEndian second := by
  induction second using List.reverseRecOn with
  | nil => simp [fromBigEndian]
  | append_singleton second byte ih =>
      rw [← List.append_assoc, fromBigEndian_concat, ih, fromBigEndian_concat, List.length_append,
        List.length_singleton, pow_succ]
      ring

/-- The digits see the number only up to their range. -/
theorem bigEndian_mod (width value : Nat) : bigEndian width (value % 256 ^ width) = bigEndian width value := by
  induction width generalizing value with
  | zero => rfl
  | succ width ih =>
      have quotient : value % 256 ^ (width + 1) / 256 = value / 256 % 256 ^ width := by
        rw [pow_succ', Nat.mod_mul_right_div_self]
      have digit : UInt8.ofNat (value % 256 ^ (width + 1)) = UInt8.ofNat value := by
        apply UInt8.toNat_inj.mp
        rw [UInt8.toNat_ofNat', UInt8.toNat_ofNat', pow_succ']
        exact Nat.mod_mod_of_dvd _ (Dvd.intro _ rfl)
      rw [bigEndian, quotient, ih, digit, bigEndian]

/-- A swap exchanges the swapped parts of a number. -/
theorem byteSwap_add (high low value : Nat) :
    byteSwap (high + low) value =
      byteSwap low (value % 256 ^ low) * 256 ^ high + byteSwap high (value / 256 ^ low) := by
  rw [byteSwap, bigEndian_add, List.reverse_append, fromBigEndian_append, List.length_reverse, length_bigEndian,
    byteSwap, bigEndian_mod, byteSwap]

end DistributedNas.Library
