import Mathlib
import LoxNative.Machine.State
import LoxNative.Proofs.LittleEndian

namespace LoxNative
namespace Machine

/-!
# Registers, memory and the stack

What the accesses of a machine do, stated so that no later proof has to look inside them.  A
register keeps its contents unless it is the one that is set.  A quadword is read back after it was
written, and every byte outside it is as before.  A push and a pop either stop the machine and
change nothing else, or move one quadword.

Memory of at least eight bytes is assumed where an access is checked: only then is the greatest
reachable address what it seems to be.
-/

/-! ## Registers -/

@[simp] theorem register_setRegister_same (machine : Machine) (number : RegisterNumber)
    (value : UInt64) : (machine.setRegister number value).register number = value := by
  simp [register, setRegister, Vector.get_eq_getElem]

theorem register_setRegister_of_ne (machine : Machine) {number other : RegisterNumber}
    (different : other ≠ number) (value : UInt64) :
    (machine.setRegister number value).register other = machine.register other := by
  have apart : number.val ≠ other.val := fun same => different (Fin.ext same.symm)
  simp [register, setRegister, Vector.get_eq_getElem, apart]

/-! ## Bytes of memory -/

theorem writeBytes_size (memory : Array UInt8) (place : Nat) (bytes : List UInt8) :
    (writeBytes memory place bytes).size = memory.size := by
  induction bytes generalizing memory place with
  | nil => rfl
  | cons byte rest ih => rw [writeBytes, ih, Array.size_setIfInBounds]

theorem getElem?_writeBytes_of_lt (memory : Array UInt8) (place : Nat) (bytes : List UInt8)
    {index : Nat} (before : index < place) :
    (writeBytes memory place bytes)[index]? = memory[index]? := by
  induction bytes generalizing memory place with
  | nil => rfl
  | cons byte rest ih =>
      rw [writeBytes, ih _ _ (Nat.lt_succ_of_lt before),
        Array.getElem?_setIfInBounds_ne (Nat.ne_of_gt before)]

theorem getElem?_writeBytes_of_le (memory : Array UInt8) (place : Nat) (bytes : List UInt8)
    {index : Nat} (behind : place + bytes.length ≤ index) :
    (writeBytes memory place bytes)[index]? = memory[index]? := by
  induction bytes generalizing memory place with
  | nil => rfl
  | cons byte rest ih =>
      rw [List.length_cons] at behind
      rw [writeBytes, ih _ _ (by omega), Array.getElem?_setIfInBounds_ne (by omega)]

theorem getElem?_writeBytes_inside (memory : Array UInt8) (place : Nat) (bytes : List UInt8)
    (fits : place + bytes.length ≤ memory.size) {index : Nat} (inside : index < bytes.length) :
    (writeBytes memory place bytes)[place + index]? = bytes[index]? := by
  induction bytes generalizing memory place index with
  | nil => exact absurd inside (Nat.not_lt_zero index)
  | cons byte rest ih =>
      rw [List.length_cons] at fits inside
      rw [writeBytes]
      cases index with
      | zero =>
          change (writeBytes (memory.setIfInBounds place byte) (place + 1) rest)[place]? = some byte
          rw [getElem?_writeBytes_of_lt _ _ _ (Nat.lt_add_one place),
            Array.getElem?_setIfInBounds_self_of_lt (by omega)]
      | succ index =>
          have shifted : place + (index + 1) = place + 1 + index := by omega
          rw [shifted, ih _ _ (by rw [Array.size_setIfInBounds]; omega) (by omega)]
          rfl

theorem readBytes_length (memory : Array UInt8) (place count : Nat)
    (fits : place + count ≤ memory.size) : (readBytes memory place count).length = count := by
  simp only [readBytes, Array.length_toList, Array.size_extract]
  omega

theorem getElem?_readBytes (memory : Array UInt8) (place count index : Nat)
    (inside : index < count) :
    (readBytes memory place count)[index]? = memory[place + index]? := by
  simp only [readBytes, Array.getElem?_toList, Array.getElem?_extract]
  split
  · rfl
  · rename_i outside
    exact (Array.getElem?_eq_none (by omega)).symm

/-- Bytes are read alike from two memories that agree on them. -/
theorem readBytes_congr {first second : Array UInt8} {place count : Nat}
    (firstFits : place + count ≤ first.size) (secondFits : place + count ≤ second.size)
    (agree : forall index, index < count -> first[place + index]? = second[place + index]?) :
    readBytes first place count = readBytes second place count := by
  apply List.ext_getElem?
  intro index
  by_cases inside : index < count
  · rw [getElem?_readBytes _ _ _ _ inside, getElem?_readBytes _ _ _ _ inside, agree index inside]
  · rw [List.getElem?_eq_none (by rw [readBytes_length _ _ _ firstFits]; omega),
      List.getElem?_eq_none (by rw [readBytes_length _ _ _ secondFits]; omega)]

theorem readBytes_writeBytes_same (memory : Array UInt8) (place : Nat) (bytes : List UInt8)
    (fits : place + bytes.length ≤ memory.size) :
    readBytes (writeBytes memory place bytes) place bytes.length = bytes := by
  have writtenFits : place + bytes.length ≤ (writeBytes memory place bytes).size := by
    rw [writeBytes_size]
    exact fits
  apply List.ext_getElem?
  intro index
  by_cases inside : index < bytes.length
  · rw [getElem?_readBytes _ _ _ _ inside, getElem?_writeBytes_inside _ _ _ fits inside]
  · rw [List.getElem?_eq_none (by rw [readBytes_length _ _ _ writtenFits]; omega),
      List.getElem?_eq_none (by omega)]

/-! ## Quadwords -/

/-- The quadword that stands in memory from a place on. -/
def quadword (memory : Array UInt8) (place : Nat) : UInt64 :=
  UInt64.ofNat (LittleEndian.value (readBytes memory place 8))

/-- Memory after a quadword was written. -/
def withQuadword (memory : Array UInt8) (place : Nat) (value : UInt64) : Array UInt8 :=
  writeBytes memory place (LittleEndian.qword value)

@[simp] theorem withQuadword_size (memory : Array UInt8) (place : Nat) (value : UInt64) :
    (withQuadword memory place value).size = memory.size :=
  writeBytes_size memory place _

theorem getElem?_withQuadword_outside (memory : Array UInt8) (place : Nat) (value : UInt64)
    {index : Nat} (outside : index < place ∨ place + 8 ≤ index) :
    (withQuadword memory place value)[index]? = memory[index]? := by
  rcases outside with before | behind
  · exact getElem?_writeBytes_of_lt _ _ _ before
  · exact getElem?_writeBytes_of_le _ _ _ (by rw [LittleEndian.qword_length]; exact behind)

theorem getElem?_withQuadword_inside (memory : Array UInt8) (place : Nat) (value : UInt64)
    (fits : place + 8 ≤ memory.size) {index : Nat} (inside : index < 8) :
    (withQuadword memory place value)[place + index]? = (LittleEndian.qword value)[index]? := by
  have length := LittleEndian.qword_length value
  exact getElem?_writeBytes_inside memory place _ (by rw [length]; exact fits)
    (by rw [length]; exact inside)

theorem quadword_withQuadword_same (memory : Array UInt8) (place : Nat) (value : UInt64)
    (fits : place + 8 ≤ memory.size) :
    quadword (withQuadword memory place value) place = value := by
  have read := readBytes_writeBytes_same memory place (LittleEndian.qword value)
    (by rw [LittleEndian.qword_length]; exact fits)
  rw [LittleEndian.qword_length] at read
  rw [quadword, withQuadword, read, LittleEndian.value_qword]

/-- A quadword is the same in two memories that agree on its bytes. -/
theorem quadword_congr {first second : Array UInt8} {place : Nat}
    (firstFits : place + 8 ≤ first.size) (secondFits : place + 8 ≤ second.size)
    (agree : forall index, place ≤ index -> index < place + 8 -> first[index]? = second[index]?) :
    quadword first place = quadword second place := by
  rw [quadword, quadword, readBytes_congr firstFits secondFits
    (fun index inside => agree _ (by omega) (by omega))]

section Access

variable {machine : Machine}

theorem slice?_inside {memory : Array UInt8} {first last : Nat} (ordered : first ≤ last)
    (inside : last ≤ memory.size) : slice? memory first last = some (memory.extract first last) :=
  if_pos ⟨ordered, inside⟩

theorem slice?_outside {memory : Array UInt8} {first last : Nat} (outside : memory.size < last) :
    slice? memory first last = none :=
  if_neg fun within => absurd within.2 (Nat.not_le.mpr outside)

theorem readQword_inside {address : UInt64} (inside : address.toNat + 8 ≤ machine.memory.size) :
    machine.readQword address =
      .completed (some (quadword machine.memory address.toNat)) machine := by
  have reachable : ¬ reach machine.memory.size < address.toNat := by
    unfold reach
    split <;> omega
  rw [readQword, if_neg reachable, slice?_inside (Nat.le_add_right _ _) inside]
  rfl

theorem readQword_outside {address : UInt64} (roomy : 8 ≤ machine.memory.size)
    (outside : machine.memory.size < address.toNat + 8) :
    machine.readQword address = .completed none (machine.raise (.readOutOfBounds address)) := by
  have unreachable : reach machine.memory.size < address.toNat := by
    rw [reach, if_pos roomy]
    omega
  rw [readQword, if_pos unreachable]

theorem writeQword_inside {address value : UInt64}
    (inside : address.toNat + 8 ≤ machine.memory.size) :
    machine.writeQword address value =
      .completed true
        { machine with memory := withQuadword machine.memory address.toNat value } := by
  have reachable : ¬ reach machine.memory.size < address.toNat := by
    unfold reach
    split <;> omega
  rw [writeQword, if_neg reachable, if_pos inside, withQuadword]

theorem writeQword_outside {address value : UInt64} (roomy : 8 ≤ machine.memory.size)
    (outside : machine.memory.size < address.toNat + 8) :
    machine.writeQword address value =
      .completed false (machine.raise (.writeOutOfBounds address)) := by
  have unreachable : reach machine.memory.size < address.toNat := by
    rw [reach, if_pos roomy]
    omega
  rw [writeQword, if_pos unreachable]

/-! ## The stack -/

theorem toNat_sub_eight {word : UInt64} (large : 8 ≤ word.toNat) :
    (word - 8).toNat = word.toNat - 8 :=
  UInt64.toNat_sub_of_le word 8 (UInt64.le_iff_toNat_le.mpr large)

theorem push_overflow (value : UInt64)
    (full : (machine.register stackPointer).toNat < machine.codeEnd + 8) :
    machine.push value = .completed () (machine.raise (.stackOverflow machine.position)) := by
  rw [push, if_pos full]

theorem push_outside (value : UInt64) (roomy : 8 ≤ machine.memory.size)
    (room : machine.codeEnd + 8 ≤ (machine.register stackPointer).toNat)
    (outside : machine.memory.size < (machine.register stackPointer).toNat) :
    machine.push value =
      .completed () (machine.raise (.writeOutOfBounds (machine.register stackPointer - 8))) := by
  have lowered := toNat_sub_eight (by omega : 8 ≤ (machine.register stackPointer).toNat)
  rw [push, if_neg (Nat.not_lt.mpr room), writeQword_outside roomy (by omega)]
  rfl

theorem push_inside (value : UInt64)
    (room : machine.codeEnd + 8 ≤ (machine.register stackPointer).toNat)
    (inside : (machine.register stackPointer).toNat ≤ machine.memory.size) :
    machine.push value =
      .completed () ({ machine with
        memory := withQuadword machine.memory ((machine.register stackPointer).toNat - 8) value
      }.setRegister stackPointer (machine.register stackPointer - 8)) := by
  have lowered := toNat_sub_eight (by omega : 8 ≤ (machine.register stackPointer).toNat)
  rw [push, if_neg (Nat.not_lt.mpr room), writeQword_inside (by omega), lowered]
  rfl

theorem pop_inside (inside : (machine.register stackPointer).toNat + 8 ≤ machine.memory.size)
    (addressable : machine.memory.size < 0x10000000000000000) :
    machine.pop =
      .completed (some (quadword machine.memory (machine.register stackPointer).toNat))
        (machine.setRegister stackPointer (machine.register stackPointer + 8)) := by
  have raised : (machine.register stackPointer + 8).toNat =
      (machine.register stackPointer).toNat + 8 := by
    rw [UInt64.toNat_add]
    exact Nat.mod_eq_of_lt (Nat.lt_of_le_of_lt inside addressable)
  rw [pop, if_neg (by omega), readQword_inside inside]
  rfl

end Access

-- From here on a quadword is known by the theorems above, and no unifier has to compute its bytes.
attribute [irreducible] quadword withQuadword

end Machine
end LoxNative
