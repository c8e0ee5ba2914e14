import Mathlib
import LoxNative.Proofs.Rendering

namespace LoxNative

/-!
# Reading places in memory back

A place in memory is written as a base register and a signed distance in brackets, with the word of
a width in front.  Reading cuts the text in the same places: the word ends at the space, the base at
the sign, and the distance is a decimal numeral behind its sign.  A distance of zero is left out and
read as zero, and the least distance has one more unit in its magnitude than any other.
-/

/-! ## Numerals with a sign -/

theorem Text.toList_repr_of_nonneg {number : Int} (nonnegative : 0 ≤ number) :
    number.repr.toList = Nat.toDigits 10 number.natAbs := by
  have magnitude : number.toNat = number.natAbs := by omega
  rw [Int.repr_eq_if, if_pos nonnegative, magnitude, Nat.toList_repr]

theorem Text.toList_repr_of_neg {number : Int} (negative : number < 0) :
    number.repr.toList = '-' :: Nat.toDigits 10 number.natAbs := by
  have magnitude : (-number).toNat = number.natAbs := by omega
  rw [Int.repr_eq_if, if_neg (Int.not_le.mpr negative), magnitude, String.toList_append,
    Nat.toList_repr]
  rfl

theorem Text.readSigned_plus {limit number : Nat} (small : number < limit) :
    Text.readSigned limit ('+' :: Nat.toDigits 10 number) = some (number : Int) := by
  rw [Text.readSigned, Text.readUnsigned_toDigits small]
  rfl

theorem Text.readSigned_minus {limit number : Nat} (small : number ≤ limit) :
    Text.readSigned limit ('-' :: Nat.toDigits 10 number) = some (-(number : Int)) := by
  rw [Text.readSigned, Text.readUnsigned_toDigits (Nat.lt_succ_of_le small)]
  rfl

/-- A text is cut where its first part ends, if the rest does not go on like it. -/
theorem Text.cut_append {Symbol : Type} {continues : Symbol -> Bool} {front : List Symbol}
    (inside : forall symbol, symbol ∈ front -> continues symbol = true) {rest : List Symbol}
    (stops : rest.head?.any continues = false) :
    (front ++ rest).takeWhile continues = front ∧ (front ++ rest).dropWhile continues = rest := by
  rw [List.takeWhile_append_of_pos inside, List.dropWhile_append_of_pos inside]
  cases rest with
  | nil => exact ⟨List.append_nil front, rfl⟩
  | cons symbol rest =>
      have stop : ¬ continues symbol = true := by
        rw [Bool.not_eq_true]
        exact stops
      rw [List.takeWhile_cons_of_neg stop, List.dropWhile_cons_of_neg stop, List.append_nil]
      exact ⟨rfl, rfl⟩

/-- Well-formed text has no stray bytes that could come together. -/
theorem Text.rejoin_glyphs (text : String) : Text.rejoin (Text.glyphs text) = Text.glyphs text := by
  rw [Text.rejoin, Text.glyphs]
  induction text.toList with
  | nil => rfl
  | cons c rest ih =>
      rw [List.map_cons, Text.rejoinOnto, ih]
      rfl

/-- A name with anything but letters and digits in it names no register. -/
theorem Register.ofName?_of_mem {name : String} {c : Char} (member : c ∈ name.toList)
    (other : c.isAlphanum = false) : Register.ofName? name = none := by
  rw [Register.ofName?, List.find?_eq_none]
  intro which listed same
  rw [<- beq_iff_eq.mp same] at member
  have solid := List.all_eq_true.mp which.name_facts.1 c member
  rw [other] at solid
  exact absurd solid (by decide)

namespace MemoryOperand

/-! ## The address of a place in memory -/

/-- A distance as it is written behind a base. -/
def displacement (offset : Int32) : String :=
  if 0 < offset then "+" ++ toString offset.toInt
  else if offset < 0 then toString offset.toInt
  else ""

theorem address_eq (place : MemoryOperand) :
    place.address = place.base.name ++ displacement place.offset := by
  rw [address, displacement]
  split
  · exact String.append_assoc
  · split
    · rfl
    · exact String.append_empty.symm

/-- A distance that is not zero is a sign and digits, which are read back as the distance from the
least up to the greatest. -/
theorem displacement_cases (offset : Int32) :
    (offset = 0 ∧ displacement offset = "") ∨
      exists sign, (sign = '+' ∨ sign = '-') ∧
        (displacement offset).toList = sign :: Nat.toDigits 10 offset.toInt.natAbs ∧
        Text.readSigned 0x80000000 (displacement offset).toList = some offset.toInt := by
  have most := offset.toInt_lt
  have least := offset.le_toInt
  have zero : (0 : Int32).toInt = 0 := rfl
  simp only [displacement, Int32.lt_iff_toInt_lt, zero]
  rcases Int.lt_trichotomy offset.toInt 0 with negative | same | positive
  · have read := Text.readSigned_minus (by omega : offset.toInt.natAbs ≤ 0x80000000)
    rw [if_neg (Int.not_lt.mpr (Int.le_of_lt negative)), if_pos negative, Int.toString_eq_repr,
      Text.toList_repr_of_neg negative, read]
    exact Or.inr ⟨'-', Or.inr rfl, rfl, congrArg some (by omega)⟩
  · rw [if_neg (by omega), if_neg (by omega)]
    exact Or.inl ⟨Int32.toInt_inj.mp same, rfl⟩
  · have read := Text.readSigned_plus (by omega : offset.toInt.natAbs < 0x80000000)
    rw [if_pos positive, Int.toString_eq_repr, String.toList_append,
      Text.toList_repr_of_nonneg (Int.le_of_lt positive)]
    exact Or.inr ⟨'+', Or.inl rfl, rfl, read.trans (congrArg some (by omega))⟩

/-- An address has letters, digits and a sign. -/
theorem mem_address {place : MemoryOperand} {c : Char} (member : c ∈ place.address.toList) :
    c = '+' ∨ c = '-' ∨ c.isAlphanum = true := by
  rw [address_eq, String.toList_append, List.mem_append] at member
  rcases member with base | distance
  · exact Or.inr (Or.inr (List.all_eq_true.mp place.base.name_facts.1 c base))
  · rcases displacement_cases place.offset with ⟨_, nothing⟩ | ⟨sign, signs, digits, _⟩
    · rw [nothing] at distance
      exact absurd distance List.not_mem_nil
    · rw [digits] at distance
      rcases List.mem_cons.mp distance with same | inside
      · rw [same]
        exact signs.imp_right Or.inl
      · have digit := Nat.isDigit_of_mem_toDigits (by decide) (by decide) inside
        exact Or.inr (Or.inr (by rw [Char.isAlphanum, digit, Bool.or_true]))

/-- A character that is neither a letter nor a digit nor a sign is in no address. -/
theorem not_mem_address (place : MemoryOperand) {c : Char}
    (other : (c == '+' || c == '-' || c.isAlphanum) = false) :
    .char c ∉ Text.glyphs place.address := by
  simp only [Bool.or_eq_false_iff, beq_eq_false_iff_ne] at other
  intro member
  rcases List.mem_map.mp member with ⟨d, inside, same⟩
  rw [Text.Glyph.char.inj same] at inside
  rcases mem_address inside with sign | sign | solid
  · exact other.1.1 sign
  · exact other.1.2 sign
  · rw [other.2] at solid
    exact absurd solid (by decide)

end MemoryOperand

namespace AssemblyOperand

open AssemblyText MemoryOperand

theorem isSign_of_isAlphanum {c : Char} (solid : c.isAlphanum = true) :
    isSign (.char c) = false := by
  have refused (d : Char) (other : d.isAlphanum = false) : Text.Glyph.char c ≠ .char d := by
    intro same
    rw [Text.Glyph.char.inj same, other] at solid
    exact absurd solid (by decide)
  rw [isSign, Bool.or_eq_false_iff, beq_eq_false_iff_ne, beq_eq_false_iff_ne]
  exact ⟨refused '+' (by decide), refused '-' (by decide)⟩

/-- The inside of brackets is read back as a base and a distance. -/
theorem parseMemory_address (place : MemoryOperand) :
    parseMemory place.size (Text.glyphs place.address) =
      .ok (.memory { place with dereferenced := true }) := by
  have unspaced :
      (Text.glyphs place.address).filter (· != .char ' ') = Text.glyphs place.address := by
    rw [List.filter_eq_self]
    intro glyph member
    rw [bne_iff_ne]
    exact fun space => place.not_mem_address (by decide) (space ▸ member)
  have unsigned : forall glyph, glyph ∈ Text.glyphs place.base.name -> (!isSign glyph) = true := by
    intro glyph member
    rcases List.mem_map.mp member with ⟨c, inside, same⟩
    rw [<- same, isSign_of_isAlphanum (List.all_eq_true.mp place.base.name_facts.1 c inside)]
    rfl
  have signed : (Text.glyphs (displacement place.offset)).head?.any (!isSign ·) = false := by
    rcases displacement_cases place.offset with ⟨_, nothing⟩ | ⟨sign, signs, digits, _⟩
    · rw [nothing]
      rfl
    · rw [Text.glyphs, digits]
      rcases signs with same | same <;> rw [same] <;> rfl
  rcases Text.cut_append unsigned signed with ⟨base, behind⟩
  rw [<- Text.glyphs_append, <- address_eq] at base behind
  simp only [parseMemory, unspaced, Text.rejoin_glyphs, base, behind, place.base.name_facts.2.2.1]
  rcases displacement_cases place.offset with ⟨zero, nothing⟩ | ⟨sign, signs, digits, read⟩
  · rw [nothing, zero]
    rfl
  · have nonempty : (Text.glyphs (displacement place.offset)).isEmpty = false := by
      rw [Text.glyphs, digits]
      rfl
    simp only [nonempty, chars?_glyphs, Option.bind_some, read, Int32.ofInt_toInt]
    rfl

end AssemblyOperand

/-! ## Places in memory -/

/-- Whether a width is one of those that are written with their own word, or with none. -/
def Size.isListed : Size -> Bool
  | .unlisted _ => false
  | _ => true

/-- The word of a width is read back as the width. -/
theorem Size.word_facts {size : Size} (listed : size.isListed = true) (sized : size ≠ .unsized) :
    AssemblyText.IsWord size.name ∧
      AssemblyOperand.sizes.lookup (AssemblyText.upperCase (Text.glyphs size.name)) =
        some size := by
  have words : forall size, size ∈ [Size.byte, .word, .dword, .qword] ->
      size.name.toList.all Char.isAlpha = true ∧ size.name.toList ≠ [] ∧
        AssemblyOperand.sizes.lookup (AssemblyText.upperCase (Text.glyphs size.name)) =
          some size := by
    decide +kernel
  have member : size ∈ [Size.byte, .word, .dword, .qword] := by
    cases size with
    | unsized => exact absurd rfl sized
    | unlisted code => cases listed
    | _ => decide
  rcases words size member with ⟨letters, nonempty, found⟩
  exact ⟨⟨List.all_eq_true.mp letters, nonempty⟩, found⟩

namespace MemoryOperand

open AssemblyText AssemblyOperand

/-- The place in its brackets. -/
def bracketed (place : MemoryOperand) : AssemblyText :=
  .char '[' :: (Text.glyphs place.address ++ [.char ']'])

theorem isOperand_bracketed (place : MemoryOperand) : IsOperand place.bracketed where
  whole c cut := by
    have others : (c == '+' || c == '-' || c.isAlphanum) = false ∧ c ≠ '[' ∧ c ≠ ']' := by
      simp only [cuts, List.mem_cons, List.not_mem_nil, or_false] at cut
      rcases cut with same | same | same | same <;> subst same <;> decide
    simp [bracketed, place.not_mem_address others.1, others.2]
  starts := ⟨.char '[', Text.glyphs place.address ++ [.char ']'], rfl, by decide⟩
  ends := ⟨.char '[' :: Text.glyphs place.address, .char ']', rfl, by decide⟩

theorem unspaced_bracketed (place : MemoryOperand) : .char ' ' ∉ place.bracketed := by
  simp [bracketed, place.not_mem_address (c := ' ') (by decide)]

/-- A place is written in its brackets, behind the word of its width if it has one. -/
theorem glyphs_render {place : MemoryOperand} (dereferenced : place.dereferenced = true) :
    (place.size = .unsized ∧ Text.glyphs place.render = place.bracketed) ∨
      (place.size ≠ .unsized ∧
        Text.glyphs place.render =
          Text.glyphs place.size.name ++ .char ' ' :: place.bracketed) := by
  have brackets : Text.glyphs ("[" ++ place.address ++ "]") = place.bracketed := by
    rw [Text.glyphs_append, Text.glyphs_append]
    rfl
  rw [render, dereferenced, if_pos rfl]
  by_cases unsized : place.size = .unsized
  · rw [if_pos unsized]
    exact Or.inl ⟨unsized, brackets⟩
  · rw [if_neg unsized, Text.glyphs_spaced, brackets]
    exact Or.inr ⟨unsized, rfl⟩

theorem isOperand_render {place : MemoryOperand} (dereferenced : place.dereferenced = true)
    (listed : place.size.isListed = true) : IsOperand (Text.glyphs place.render) := by
  have brackets := place.isOperand_bracketed
  rcases glyphs_render dereferenced with ⟨_, text⟩ | ⟨sized, text⟩
  · rw [text]
    exact brackets
  · have word := (Size.word_facts listed sized).1.isOperand
    rw [text]
    refine ⟨?_, starts_append _ word.starts, ends_append _ (ends_append [.char ' '] brackets.ends)⟩
    intro c cut
    have solid : c ≠ ' ' := by
      intro space
      rw [space] at cut
      exact absurd cut (by decide)
    simp [word.whole c cut, brackets.whole c cut, solid]

theorem splitSize_render {place : MemoryOperand} (dereferenced : place.dereferenced = true)
    (listed : place.size.isListed = true) :
    splitSize (Text.glyphs place.render) = (place.size, place.bracketed) := by
  rcases glyphs_render dereferenced with ⟨unsized, text⟩ | ⟨sized, text⟩
  · rw [text, unsized, splitSize_of_unspaced place.unspaced_bracketed]
  · rcases Size.word_facts listed sized with ⟨word, found⟩
    have inside : forall glyph, glyph ∈ Text.glyphs place.size.name ->
        (glyph != .char ' ') = true := by
      intro glyph member
      rw [bne_iff_ne]
      exact fun space => word.whole (by decide) (space ▸ member)
    have stops : (Text.Glyph.char ' ' :: place.bracketed).head?.any (· != .char ' ') = false := rfl
    rcases Text.cut_append inside stops with ⟨front, behind⟩
    rw [text, splitSize, front, behind]
    dsimp only
    rw [found, place.isOperand_bracketed.trim_eq]

/-- A place in memory is read back, whatever labels are defined. -/
theorem parse_render {place : MemoryOperand} (dereferenced : place.dereferenced = true)
    (listed : place.size.isListed = true) (labels : LabelTable) (pass : Pass) :
    AssemblyOperand.parse labels pass (Text.glyphs place.render) = .ok (.memory place) := by
  have closing : .char ']' ∈ Text.glyphs place.render := by
    rcases glyphs_render dereferenced with ⟨_, text⟩ | ⟨_, text⟩ <;> rw [text] <;> simp [bracketed]
  have nonempty : (Text.glyphs place.render).isEmpty = false := by
    rw [List.isEmpty_eq_false_iff]
    exact List.ne_nil_of_mem closing
  have anonymous : Register.ofName? (lowerCase (Text.glyphs place.render)) = none := by
    apply Register.ofName?_of_mem (c := ']') _ (by decide)
    rw [lowerCase, String.toList_ofList]
    exact List.mem_map.mpr ⟨.char ']', closing, by decide⟩
  have whole : { place with dereferenced := true } = place := by
    rw [<- dereferenced]
  rw [AssemblyOperand.parse, nonempty, if_neg Bool.false_ne_true, anonymous]
  simp only [splitSize_render dereferenced listed, bracketed]
  rw [List.getLast?_append, List.dropLast_concat, parseMemory_address, whole]
  rfl

end MemoryOperand

end LoxNative
