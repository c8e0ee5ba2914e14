import Mathlib
import LoxNative.LittleEndian

namespace LoxNative
namespace LittleEndian

/-!
# Little-endian numbers read back

Writing a number as a count of bytes keeps its remainder by that power of 256, so a word that is
written with all its bytes is read back unchanged.  Instructions use this for their constants and
distances, and memory for its quadwords.  The other way round, bytes are written again as they were
read, which object files use for their header.
-/

theorem bytes_length (count number : Nat) : (bytes count number).length = count := by
  induction count generalizing number with
  | zero => rfl
  | succ count ih => rw [bytes, List.length_cons, ih]

theorem dword_length (number : UInt32) : (dword number).length = 4 :=
  bytes_length 4 number.toNat

theorem qword_length (number : UInt64) : (qword number).length = 8 :=
  bytes_length 8 number.toNat

theorem value_bytes (count number : Nat) :
    value (bytes count number) = number % 256 ^ count := by
  induction count generalizing number with
  | zero => simp [bytes, value, Nat.mod_one]
  | succ count ih =>
      have low : (UInt8.ofNat (number % 256)).toNat = number % 256 := by
        rw [UInt8.toNat_ofNat']
        omega
      rw [bytes, value, ih, low, Nat.pow_succ, Nat.mul_comm (256 ^ count) 256, Nat.mod_mul]

theorem value_dword_eq (number : UInt32) : value (dword number) = number.toNat := by
  rw [dword, value_bytes]
  exact Nat.mod_eq_of_lt number.toNat_lt

theorem value_qword_eq (number : UInt64) : value (qword number) = number.toNat := by
  rw [qword, value_bytes]
  exact Nat.mod_eq_of_lt number.toNat_lt

theorem value_dword (number : UInt32) : UInt32.ofNat (value (dword number)) = number := by
  rw [value_dword_eq, UInt32.ofNat_toNat]

theorem value_qword (number : UInt64) : UInt64.ofNat (value (qword number)) = number := by
  rw [value_qword_eq, UInt64.ofNat_toNat]

theorem value_lt (sequence : List UInt8) : value sequence < 256 ^ sequence.length := by
  induction sequence with
  | nil => exact Nat.one_pos
  | cons byte rest ih =>
      have small := byte.toNat_lt
      rw [value, List.length_cons, Nat.pow_succ]
      omega

theorem bytes_value (sequence : List UInt8) :
    bytes sequence.length (value sequence) = sequence := by
  induction sequence with
  | nil => rfl
  | cons byte rest ih =>
      have small := byte.toNat_lt
      have low : (byte.toNat + 256 * value rest) % 256 = byte.toNat := by omega
      have high : (byte.toNat + 256 * value rest) / 256 = value rest := by omega
      rw [List.length_cons, value, bytes, low, high, ih, UInt8.ofNat_toNat]

theorem dword_value {sequence : List UInt8} (four : sequence.length = 4) :
    dword (UInt32.ofNat (value sequence)) = sequence := by
  have small := value_lt sequence
  rw [four] at small
  rw [dword, UInt32.toNat_ofNat_of_lt' small, <- four, bytes_value]

end LittleEndian
end LoxNative
