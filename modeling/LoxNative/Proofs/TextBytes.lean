import Mathlib
import LoxNative.Text.Glyph

namespace LoxNative
namespace Text

/-!
# Well-formed text read from its bytes

The bytes of a text are those of its characters one behind the other, between one and four for each.
The first byte of a character tells how many follow, so reading takes exactly the bytes of that
character and goes on behind them.  Reading the bytes of a text therefore gives its characters, and
no byte is left stray.
-/

/-! ## The bytes of characters -/

/-- Collecting the bytes from a place on puts them behind those already collected. -/
theorem toList_loop (bytes : ByteArray) (place : Nat) (done : List UInt8) :
    ByteArray.toList.loop bytes place done = done.reverse ++ bytes.data.toList.drop place := by
  fun_induction ByteArray.toList.loop bytes place done with
  | case1 place done inside ih =>
      have here : place < bytes.data.toList.length := inside
      have byte : bytes.get! place = bytes.data.toList[place] := by
        rw [Array.getElem_toList]
        exact getElem!_pos bytes.data place inside
      rw [ih, List.reverse_cons, List.append_assoc, List.drop_eq_getElem_cons here, byte]
      rfl
  | case2 place done outside =>
      rw [List.drop_eq_nil_of_le (Nat.le_of_not_lt outside), List.append_nil]

theorem toBytes_eq (text : String) : toBytes text = text.toList.flatMap String.utf8EncodeChar := by
  have whole : text.toByteArray = text.toList.utf8Encode := by
    rw [<- String.toByteArray_ofList, String.ofList_toList]
  rw [toBytes, String.toUTF8_eq_toByteArray, whole, ByteArray.toList, toList_loop]
  exact List.toList_data_toByteArray

/-! ## Reading one character -/

theorem continuation?_eq {bits : Nat} (few : bits < 64) :
    continuation? (UInt8.ofNat (bits + 128)) = some bits := by
  have each : forall bits, bits < 64 -> continuation? (UInt8.ofNat (bits + 128)) = some bits := by
    decide +kernel
  exact each bits few

theorem scalar?_eq {least : Nat} {c : Char} (enough : least ≤ c.toNat) :
    scalar? least c.toNat = some c := by
  have valid : least ≤ c.toNat ∧ c.toNat.isValidChar := ⟨enough, c.valid⟩
  rw [scalar?, dif_pos valid]
  exact congrArg some (Char.ext (UInt32.ofNatLT_toNat _))

section Lengths

variable {c : Char} {highest high middle low : Nat} (rest : List UInt8)

theorem leading?_one (small : c.toNat < 128) :
    leading? (UInt8.ofNat c.toNat) rest = some (c, 0) := by
  have same : (UInt8.ofNat c.toNat).toNat = c.toNat :=
    UInt8.toNat_ofNat_of_lt' (Nat.lt_trans small (by decide))
  have plain : UInt8.ofNat c.toNat < 0x80 := by
    rw [UInt8.lt_iff_toNat_lt, same]
    exact small
  unfold leading?
  rw [if_pos plain, same, Char.ofNat_toNat]

theorem leading?_two (fewHigh : high < 32) (fewLow : low < 64) (enough : 0x80 ≤ c.toNat)
    (code : high * 0x40 + low = c.toNat) :
    leading? (UInt8.ofNat (high + 192)) (UInt8.ofNat (low + 128) :: rest) = some (c, 1) := by
  have marks : forall bits, bits < 32 -> ¬ UInt8.ofNat (bits + 192) < 0x80 ∧
      UInt8.ofNat (bits + 192) &&& 0xE0 = 0xC0 ∧
      (UInt8.ofNat (bits + 192) &&& 0x1F).toNat = bits := by
    decide +kernel
  rcases marks high fewHigh with ⟨notOne, two, payload⟩
  unfold leading?
  rw [if_neg notOne, if_pos two]
  refine Option.bind_eq_some_iff.mpr ⟨low, continuation?_eq fewLow, ?_⟩
  refine Option.bind_eq_some_iff.mpr ⟨c, ?_, rfl⟩
  rw [payload, code, scalar?_eq enough]

theorem leading?_three (fewHigh : high < 16) (fewMiddle : middle < 64) (fewLow : low < 64)
    (enough : 0x800 ≤ c.toNat) (code : high * 0x1000 + middle * 0x40 + low = c.toNat) :
    leading? (UInt8.ofNat (high + 224))
      (UInt8.ofNat (middle + 128) :: UInt8.ofNat (low + 128) :: rest) = some (c, 2) := by
  have marks : forall bits, bits < 16 -> ¬ UInt8.ofNat (bits + 224) < 0x80 ∧
      UInt8.ofNat (bits + 224) &&& 0xE0 ≠ 0xC0 ∧ UInt8.ofNat (bits + 224) &&& 0xF0 = 0xE0 ∧
      (UInt8.ofNat (bits + 224) &&& 0x0F).toNat = bits := by
    decide +kernel
  rcases marks high fewHigh with ⟨notOne, notTwo, three, payload⟩
  unfold leading?
  rw [if_neg notOne, if_neg notTwo, if_pos three]
  refine Option.bind_eq_some_iff.mpr ⟨middle, continuation?_eq fewMiddle, ?_⟩
  refine Option.bind_eq_some_iff.mpr ⟨low, continuation?_eq fewLow, ?_⟩
  refine Option.bind_eq_some_iff.mpr ⟨c, ?_, rfl⟩
  rw [payload, code, scalar?_eq enough]

theorem leading?_four (fewHighest : highest < 8) (fewHigh : high < 64) (fewMiddle : middle < 64)
    (fewLow : low < 64) (enough : 0x10000 ≤ c.toNat)
    (code : highest * 0x40000 + high * 0x1000 + middle * 0x40 + low = c.toNat) :
    leading? (UInt8.ofNat (highest + 240))
      (UInt8.ofNat (high + 128) :: UInt8.ofNat (middle + 128) ::
      UInt8.ofNat (low + 128) :: rest) = some (c, 3) := by
  have marks : forall bits, bits < 8 -> ¬ UInt8.ofNat (bits + 240) < 0x80 ∧
      UInt8.ofNat (bits + 240) &&& 0xE0 ≠ 0xC0 ∧ UInt8.ofNat (bits + 240) &&& 0xF0 ≠ 0xE0 ∧
      UInt8.ofNat (bits + 240) &&& 0xF8 = 0xF0 ∧
      (UInt8.ofNat (bits + 240) &&& 0x07).toNat = bits := by
    decide +kernel
  rcases marks highest fewHighest with ⟨notOne, notTwo, notThree, four, payload⟩
  unfold leading?
  rw [if_neg notOne, if_neg notTwo, if_neg notThree, if_pos four]
  refine Option.bind_eq_some_iff.mpr ⟨high, continuation?_eq fewHigh, ?_⟩
  refine Option.bind_eq_some_iff.mpr ⟨middle, continuation?_eq fewMiddle, ?_⟩
  refine Option.bind_eq_some_iff.mpr ⟨low, continuation?_eq fewLow, ?_⟩
  refine Option.bind_eq_some_iff.mpr ⟨c, ?_, rfl⟩
  rw [payload, code, scalar?_eq enough]

end Lengths

/-- The bytes of a character are read as that character, whatever follows them.  The cases are the
four lengths of an encoding, told apart by the size of the code point. -/
theorem exists_leading? (c : Char) :
    exists first others, String.utf8EncodeChar c = first :: others ∧
      forall rest, leading? first (others ++ rest) = some (c, others.length) := by
  have last : c.toNat < 0x110000 := by
    rcases c.valid with low | high
    · exact Nat.lt_trans low (by decide)
    · exact high.2
  unfold String.utf8EncodeChar
  change exists first others, (if c.toNat ≤ 127 then [UInt8.ofNat c.toNat] else
    if c.toNat ≤ 2047 then
      [UInt8.ofNat (c.toNat / 64 % 32 + 192), UInt8.ofNat (c.toNat % 64 + 128)]
    else
    if c.toNat ≤ 65535 then
      [UInt8.ofNat (c.toNat / 4096 % 16 + 224), UInt8.ofNat (c.toNat / 64 % 64 + 128),
        UInt8.ofNat (c.toNat % 64 + 128)]
    else
      [UInt8.ofNat (c.toNat / 262144 % 8 + 240), UInt8.ofNat (c.toNat / 4096 % 64 + 128),
        UInt8.ofNat (c.toNat / 64 % 64 + 128), UInt8.ofNat (c.toNat % 64 + 128)]) =
          first :: others ∧ _
  split
  · exact ⟨_, _, rfl, fun rest => leading?_one rest (by omega)⟩
  · split
    · exact ⟨_, _, rfl, fun rest => leading?_two rest (by omega) (by omega) (by omega) (by omega)⟩
    · split
      · exact ⟨_, _, rfl, fun rest =>
          leading?_three rest (by omega) (by omega) (by omega) (by omega) (by omega)⟩
      · exact ⟨_, _, rfl, fun rest =>
          leading?_four rest (by omega) (by omega) (by omega) (by omega) (by omega) (by omega)⟩

/-! ## Reading text -/

theorem decodeOnto_skip (done : Array Glyph) (skipped rest : List UInt8) :
    decodeOnto done skipped.length (skipped ++ rest) = decodeOnto done 0 rest := by
  induction skipped with
  | nil => rfl
  | cons byte skipped ih =>
      rw [List.length_cons, List.cons_append, decodeOnto]
      exact ih

theorem decodeOnto_char (done : Array Glyph) (c : Char) (rest : List UInt8) :
    decodeOnto done 0 (String.utf8EncodeChar c ++ rest) =
      decodeOnto (done.push (.char c)) 0 rest := by
  rcases exists_leading? c with ⟨first, others, encoded, leads⟩
  rw [encoded, List.cons_append, decodeOnto]
  simp only [leads rest]
  exact decodeOnto_skip _ others rest

theorem decodeOnto_chars (done : Array Glyph) (chars : List Char) :
    (decodeOnto done 0 (chars.flatMap String.utf8EncodeChar)).toList =
      done.toList ++ chars.map Glyph.char := by
  induction chars generalizing done with
  | nil => exact (List.append_nil _).symm
  | cons c chars ih =>
      rw [List.flatMap_cons, decodeOnto_char, ih, Array.toList_push, List.append_assoc]
      rfl

/-- Well-formed text is read back from its bytes. -/
theorem decode_toBytes (text : String) : decode (toBytes text) = glyphs text := by
  rw [decode, toBytes_eq, decodeOnto_chars]
  rfl

end Text
end LoxNative
