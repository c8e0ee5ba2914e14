import Mathlib
import LoxNative.ObjectFile
import LoxNative.Proofs.LittleEndian
import LoxNative.Text.Glyph

namespace LoxNative
namespace ObjectFile

/-!
# Object files read back

Writing and reading an object file are inverse to each other.  What is written is read back, unless
the entry offset lies outside the code; and what is read, whatever the bytes came from, is written
again byte by byte.  Short files, files with other letters in front, and files whose offset points
behind their code are therefore exactly those that no code was packed into.
-/

section Header

variable (code : List UInt8) (entry : UInt32)

theorem length_encode : (encode code entry).length = 8 + code.length := by
  rw [encode, List.length_append, List.length_append, LittleEndian.dword_length]
  rfl

theorem take_encode : (encode code entry).take 4 = mark := by
  rw [encode, List.append_assoc]
  exact List.take_left' rfl

theorem drop_four_encode : (encode code entry).drop 4 = LittleEndian.dword entry ++ code := by
  rw [encode, List.append_assoc]
  exact List.drop_left' rfl

theorem drop_encode : (encode code entry).drop 8 = code :=
  List.drop_left' (by rw [List.length_append, LittleEndian.dword_length]; rfl)

theorem value_entry_encode :
    LittleEndian.value (((encode code entry).drop 4).take 4) = entry.toNat := by
  rw [drop_four_encode, List.take_left' (LittleEndian.dword_length entry),
    LittleEndian.value_dword_eq]

/-- A written object is read back if it can be started. -/
theorem decode_encode :
    decode (encode code entry) =
      if entry.toNat < code.length then .ok (code, entry)
        else .error (.entryOutside entry code.length) := by
  have isObject : ¬ ((encode code entry).length < 8 ∨ (encode code entry).take 4 ≠ mark) := by
    rw [length_encode, take_encode]
    simp
  simp only [decode, if_neg isObject, value_entry_encode, drop_encode, UInt32.ofNat_toNat]
  by_cases inside : entry.toNat < code.length
  · rw [if_pos inside, if_neg (Nat.not_le.mpr inside)]
  · rw [if_neg inside, if_pos (Nat.le_of_not_lt inside)]

end Header

/-- Bytes that are read are cut into the letters, four bytes of the offset, and the code. -/
theorem exists_of_decode {bytes code : List UInt8} {entry : UInt32}
    (accepted : decode bytes = .ok (code, entry)) :
    bytes = encode code entry ∧ entry.toNat < code.length := by
  simp only [decode] at accepted
  split at accepted
  · cases accepted
  · rename_i isObject
    rcases not_or.mp isObject with ⟨longer, marked⟩
    split at accepted
    · cases accepted
    · rename_i inside
      cases accepted
      refine ⟨?_, Nat.lt_of_not_le inside⟩
      have four : ((bytes.drop 4).take 4).length = 4 := by
        rw [List.length_take, List.length_drop]
        omega
      have rest : (bytes.drop 4).take 4 ++ bytes.drop 8 = bytes.drop 4 := by
        conv_rhs => rw [<- List.take_append_drop 4 (bytes.drop 4), List.drop_drop]
      rw [encode, LittleEndian.dword_value four, List.append_assoc, rest, <- not_not.mp marked,
        List.take_append_drop]

/-- Reading inverts writing in both directions.  Written code is read back with its entry offset
when that lies inside the code, and is refused for the offset otherwise; and an object that is read
as some code is what writing gives for that code.  So reading accepts exactly what writing produces
from offsets inside the code.  A written object is the four letters, the offset with its lowest byte
first, and the code. -/
theorem decode_inverts_encode :
    (forall code entry, decode (encode code entry) =
      if entry.toNat < code.length then .ok (code, entry)
      else .error (.entryOutside entry code.length)) ∧
    (forall bytes code entry, decode bytes = .ok (code, entry) <->
      bytes = encode code entry ∧ entry.toNat < code.length) ∧
    (forall bytes, (exists result, decode bytes = .ok result) <->
      exists code entry, entry.toNat < code.length ∧ encode code entry = bytes) ∧
    (forall code entry, (encode code entry).take 4 = Text.toBytes "CLXO" ∧
      LittleEndian.value (((encode code entry).drop 4).take 4) = entry.toNat ∧
      (encode code entry).drop 8 = code) := by
  have accepts (bytes code : List UInt8) (entry : UInt32) : decode bytes = .ok (code, entry) <->
      bytes = encode code entry ∧ entry.toNat < code.length := by
    constructor
    · exact exists_of_decode
    · rintro ⟨rfl, inside⟩
      rw [decode_encode, if_pos inside]
  refine ⟨decode_encode, accepts, ?_, ?_⟩
  · intro bytes
    constructor
    · rintro ⟨⟨code, entry⟩, accepted⟩
      rcases (accepts bytes code entry).mp accepted with ⟨written, inside⟩
      exact ⟨code, entry, inside, written.symm⟩
    · rintro ⟨code, entry, inside, rfl⟩
      exact ⟨(code, entry), (accepts _ _ _).mpr ⟨rfl, inside⟩⟩
  · have letters : mark = Text.toBytes "CLXO" := by decide +kernel
    rw [<- letters]
    exact fun code entry =>
      ⟨take_encode code entry, value_entry_encode code entry, drop_encode code entry⟩

end ObjectFile
end LoxNative
