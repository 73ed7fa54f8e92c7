import DistributedNas.Library.Splice

namespace DistributedNas.Posix
open Library

/-- A buffer is the process memory around one allocation, addressed from its start. -/
abbrev Buffer := Int → UInt8

/-- This function loads consecutive bytes from an address. -/
def Buffer.load (memory : Buffer) (address : Int) (count : Nat) : List UInt8 :=
  (List.range count).map fun index : Nat => memory (address + index)

/-- This function stores consecutive bytes from an address on. -/
def Buffer.store (memory : Buffer) (address : Int) (bytes : List UInt8) : Buffer := fun place =>
  if address ≤ place then (bytes[(place - address).toNat]?).getD (memory place) else memory place

/-- The bytes of a block stand at the start of an otherwise zero buffer. -/
def Buffer.ofBytes (bytes : List UInt8) : Buffer := Buffer.store (fun _ => 0) 0 bytes

section
variable (memory : Buffer) (address : Int)

@[simp] theorem Buffer.length_load (count : Nat) : (memory.load address count).length = count := by
  simp [load]

@[simp] theorem Buffer.load_zero : memory.load address 0 = [] := rfl

@[simp] theorem Buffer.store_nil : memory.store address [] = memory := by
  funext place
  simp [store]

theorem Buffer.getElem?_load (count index : Nat) :
    (memory.load address count)[index]? =
      if index < count then some (memory (address + index)) else none := by
  rw [load, List.getElem?_map]
  split
  · next inside => rw [List.getElem?_range inside, Option.map_some]
  · next outside => rw [List.getElem?_eq_none (by simpa using outside), Option.map_none]

/-- Two adjacent loads form one load. -/
theorem Buffer.load_add (first second : Nat) :
    memory.load address (first + second) =
      memory.load address first ++ memory.load (address + first) second := by
  simp only [load, List.range_add, List.map_append, List.map_map, Function.comp_def]
  congr 1
  apply List.map_congr_left
  intro index _
  rw [Nat.cast_add, add_assoc]

/-- A load inside a stored block reads the block's bytes. -/
theorem Buffer.store_apply_inside (bytes : List UInt8) (index : Nat) (inside : index < bytes.length) :
    memory.store address bytes (address + index) = bytes[index] := by
  have offset : (address + (index : Int) - address).toNat = index := by omega
  rw [store, if_pos (by omega), offset, List.getElem?_eq_getElem inside, Option.getD_some]

/-- A store changes no byte outside its block. -/
theorem Buffer.store_apply_outside (bytes : List UInt8) (place : Int)
    (outside : place < address ∨ address + bytes.length ≤ place) :
    memory.store address bytes place = memory place := by
  unfold store
  split
  · rw [List.getElem?_eq_none (by omega), Option.getD_none]
  · rfl

/-- The load of a stored block gives the block. -/
theorem Buffer.load_store (bytes : List UInt8) :
    (memory.store address bytes).load address bytes.length = bytes := by
  apply List.ext_getElem?
  intro index
  rw [getElem?_load]
  split
  · next inside => rw [store_apply_inside memory address bytes index inside, List.getElem?_eq_getElem inside]
  · next outside => rw [List.getElem?_eq_none (by omega)]

/-- A load below a stored block reads the old bytes. -/
theorem Buffer.load_store_before (bytes : List UInt8) (start : Int) (count : Nat)
    (before : start + count ≤ address) :
    (memory.store address bytes).load start count = memory.load start count := by
  apply List.map_congr_left
  intro index member
  have inside := List.mem_range.mp member
  exact store_apply_outside memory address bytes _ (Or.inl (by omega))

/-- Two adjacent stores form one store. -/
theorem Buffer.store_append (first second : List UInt8) :
    (memory.store address first).store (address + first.length) second =
      memory.store address (first ++ second) := by
  funext place
  by_cases late : address + first.length ≤ place
  · have shifted : (place - address).toNat = first.length + (place - (address + first.length)).toNat := by
      omega
    rw [store, if_pos late, store_apply_outside memory address first place (Or.inr late)]
    rw [store, if_pos (by omega), shifted, List.getElem?_append_right (by omega)]
    simp
  · rw [store, if_neg late]
    by_cases early : place < address
    · rw [store_apply_outside memory address _ _ (Or.inl early),
        store_apply_outside memory address _ _ (Or.inl early)]
    · rw [store, if_pos (by omega), store, if_pos (by omega), List.getElem?_append_left (by omega)]

end

@[simp] theorem Buffer.load_ofBytes (bytes : List UInt8) :
    (Buffer.ofBytes bytes).load 0 bytes.length = bytes :=
  Buffer.load_store _ 0 bytes

/-- This is the file behind one descriptor with the file position of that descriptor. -/
structure OpenFile where
  bytes : List UInt8
  position : Nat
  deriving DecidableEq, Repr

/-- `lseek` with `SEEK_SET` moves the position unless it fails, as it does on each negative offset. -/
def OpenFile.lseek (file : OpenFile) (offset : Int) (succeeds : Bool) : OpenFile :=
  if succeeds ∧ 0 ≤ offset then { file with position := offset.toNat } else file

/-- A successful `read` of some bytes moves the position past them. -/
def OpenFile.readBytes (file : OpenFile) (count : Nat) : List UInt8 × OpenFile :=
  (slice file.bytes file.position count, { file with position := file.position + count })

/-- A successful `write` of some bytes puts them at the position and moves it past them. -/
def OpenFile.writeBytes (file : OpenFile) (block : List UInt8) : OpenFile where
  bytes := overwrite 0 file.bytes file.position block
  position := file.position + block.length

section
variable (file : OpenFile)

@[simp] theorem OpenFile.lseek_bytes (offset : Int) (succeeds : Bool) :
    (file.lseek offset succeeds).bytes = file.bytes := by
  unfold lseek
  split <;> rfl

/-- A successful seek puts the position at the offset. -/
theorem OpenFile.lseek_position {offset : Int} (valid : 0 ≤ offset) :
    (file.lseek offset true).position = offset.toNat := by
  simp [lseek, valid]

/-- Two adjacent writes have the effect of one write. -/
theorem OpenFile.writeBytes_writeBytes (first second : List UInt8) :
    (file.writeBytes first).writeBytes second = file.writeBytes (first ++ second) := by
  simp only [writeBytes, overwrite_adjacent, List.length_append, Nat.add_assoc]

end

/-- These are the results a `write` call on a nonempty window may have. -/
def WriteResult (count : Nat) (result : Int) : Prop := result = -1 ∨ 1 ≤ result ∧ result ≤ count

/-- These are the results a `read` call on a nonempty window may have; the end of file gives zero. -/
def ReadResult (available count : Nat) (result : Int) : Prop :=
  result = -1 ∨ (1 ≤ result ∧ result ≤ count ∧ result ≤ available) ∨ (result = 0 ∧ available = 0)

instance (count : Nat) (result : Int) : Decidable (WriteResult count result) :=
  inferInstanceAs (Decidable (_ ∨ _))

instance (available count : Nat) (result : Int) : Decidable (ReadResult available count result) :=
  inferInstanceAs (Decidable (_ ∨ _))

end DistributedNas.Posix
