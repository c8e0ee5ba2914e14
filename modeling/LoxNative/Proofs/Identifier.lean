import Mathlib
import LoxNative.Proofs.Rendering

namespace LoxNative

/-!
# Identifiers in assembly text

A label is an identifier: letters, digits and a few marks, of any script.  Everything the assembler
does with the text around a label depends on what an identifier cannot contain.  It has no blank, so
trimming leaves it alone; no character at which lines and statements are cut; and no digit in front,
so it is never a numeral.

The letters and digits outside ASCII come from tables, and so do the blanks.  That they have nothing
in common is checked on the ranges, not on the characters.
-/

namespace Text

/-! ## Classes of characters -/

/-- Tables whose ranges lie apart have no character in common. -/
theorem Ranges.covers_eq_false {first second : Ranges}
    (apart : (first.all fun range => second.all fun other =>
      range.2 < other.1 || other.2 < range.1) = true)
    {c : Char} (covered : first.covers c = true) : second.covers c = false := by
  rw [covers, List.any_eq_true] at covered
  rcases covered with ⟨range, listed, inside⟩
  rw [covers, List.any_eq_false]
  intro other member
  have between := List.all_eq_true.mp (List.all_eq_true.mp apart range listed) other member
  simp only [Bool.or_eq_true, Bool.and_eq_true, decide_eq_true_eq] at between inside ⊢
  omega

theorem isBlank_of_isLetter {c : Char} (letter : isLetter c = true) : isBlank c = false := by
  by_cases ascii : c.toNat < 0x80
  · rw [isLetter, if_pos ascii] at letter
    exact AssemblyText.isBlank_of_isAlphanum (by rw [Char.isAlphanum, letter, Bool.true_or])
  · rw [isLetter, if_neg ascii] at letter
    rw [isBlank, if_neg ascii]
    exact Ranges.covers_eq_false (by decide +kernel) letter

theorem isBlank_of_isDecimalDigit {c : Char} (digit : isDecimalDigit c = true) :
    isBlank c = false := by
  by_cases ascii : c.toNat < 0x80
  · rw [isDecimalDigit, if_pos ascii] at digit
    exact AssemblyText.isBlank_of_isAlphanum (by rw [Char.isAlphanum, digit, Bool.or_true])
  · rw [isDecimalDigit, if_neg ascii] at digit
    rw [isBlank, if_neg ascii]
    exact Ranges.covers_eq_false (by decide +kernel) digit

/-- No letter is a decimal digit.  The letters up to f have a value, but that needs a larger
base. -/
theorem digitValue?_of_isLetter {c : Char} (letter : isLetter c = true) {digit : Nat}
    (value : digitValue? c = some digit) : 10 ≤ digit := by
  rw [digitValue?] at value
  split at value
  · rename_i isDigit
    have range := toNat_of_isDigit isDigit
    rw [isLetter, if_pos (by omega)] at letter
    have least : 65 ≤ c.toNat := by
      simp only [Char.isAlpha, Char.isUpper, Char.isLower, Bool.or_eq_true, Bool.and_eq_true,
        decide_eq_true_eq, UInt32.le_iff_toNat_le] at letter
      rcases letter with upper | lower
      · exact upper.1
      · exact Nat.le_trans (by decide) lower.1
    omega
  · split at value
    · rw [Option.some.injEq] at value
      omega
    · cases value

theorem shown_glyphs (text : String) : shown (glyphs text) = text := by
  have same : Glyph.shown ∘ Glyph.char = id := rfl
  rw [shown, glyphs, List.map_map, same, List.map_id, String.ofList_toList]

end Text

namespace AssemblyText

/-! ## The text of an identifier -/

theorem isIdentifierPart_of_isIdentifierStart {glyph : Text.Glyph}
    (start : isIdentifierStart glyph = true) : isIdentifierPart glyph = true := by
  cases glyph with
  | stray byte => cases start
  | char c =>
      simp only [isIdentifierStart, Bool.or_eq_true] at start
      simp only [isIdentifierPart, Bool.or_eq_true]
      tauto

theorem isBlank_of_isIdentifierPart {glyph : Text.Glyph} (part : isIdentifierPart glyph = true) :
    isBlank glyph = false := by
  cases glyph with
  | stray byte => rfl
  | char c =>
      simp only [isIdentifierPart, Bool.or_eq_true, beq_iff_eq] at part
      rcases part with (((letter | digit) | underscore) | point) | dollar
      · exact Text.isBlank_of_isLetter letter
      · exact Text.isBlank_of_isDecimalDigit digit
      · rw [underscore]
        decide
      · rw [point]
        decide
      · rw [dollar]
        decide

/-- Whether a character is an ASCII character that no identifier contains. -/
def isMark (c : Char) : Bool :=
  decide (c.toNat < 0x80) && !c.isAlphanum && ['_', '.', '$'].all (c != ·)

theorem isIdentifierPart_of_isMark {c : Char} (mark : isMark c = true) :
    isIdentifierPart (.char c) = false := by
  simp only [isMark, Char.isAlphanum, Bool.and_eq_true, decide_eq_true_eq, Bool.not_eq_true',
    Bool.or_eq_false_iff, List.all_cons, bne_iff_ne, List.all_nil] at mark
  rcases mark with ⟨⟨ascii, letter, digit⟩, underscore, point, dollar, _⟩
  simp [isIdentifierPart, Text.isLetter, Text.isDecimalDigit, if_pos ascii, letter, digit,
    underscore, point, dollar]

section Identifiers

variable {text : AssemblyText} (identifier : isIdentifier text = true)

include identifier

theorem exists_of_isIdentifier :
    exists first rest, text = first :: rest ∧ isIdentifierStart first = true := by
  cases text with
  | nil => cases identifier
  | cons first rest =>
      rw [isIdentifier, Bool.and_eq_true] at identifier
      exact ⟨first, rest, rfl, identifier.1⟩

theorem isIdentifierPart_of_mem {glyph : Text.Glyph} (member : glyph ∈ text) :
    isIdentifierPart glyph = true := by
  cases text with
  | nil => cases identifier
  | cons first rest =>
      rw [isIdentifier, Bool.and_eq_true] at identifier
      rcases List.mem_cons.mp member with same | member
      · rw [same]
        exact isIdentifierPart_of_isIdentifierStart identifier.1
      · exact List.all_eq_true.mp identifier.2 glyph member

theorem not_mem_of_isIdentifier {c : Char} (refused : isMark c = true) : .char c ∉ text := by
  intro member
  have part := isIdentifierPart_of_mem identifier member
  rw [isIdentifierPart_of_isMark refused] at part
  cases part

theorem isOperand_of_isIdentifier : IsOperand text where
  whole c cut := by
    have marks : cuts.all isMark = true := by decide
    exact not_mem_of_isIdentifier identifier (List.all_eq_true.mp marks c cut)
  starts := by
    rcases exists_of_isIdentifier identifier with ⟨first, rest, shape, start⟩
    exact ⟨first, rest, shape,
      isBlank_of_isIdentifierPart (isIdentifierPart_of_isIdentifierStart start)⟩
  ends := by
    rcases List.eq_nil_or_concat text with empty | ⟨front, last, shape⟩
    · rw [empty] at identifier
      cases identifier
    · rw [List.concat_eq_append] at shape
      have member : last ∈ text := by
        rw [shape]
        exact List.mem_append_right front List.mem_cons_self
      exact ⟨front, last, shape,
        isBlank_of_isIdentifierPart (isIdentifierPart_of_mem identifier member)⟩

/-- An identifier has no stray bytes, so it is what it is shown as. -/
theorem glyphs_shown : Text.glyphs (Text.shown text) = text := by
  rw [Text.glyphs, Text.shown, String.toList_ofList, List.map_map]
  refine (List.map_congr_left fun glyph member => ?_).trans (List.map_id text)
  have part := isIdentifierPart_of_mem identifier member
  cases glyph with
  | char c => rfl
  | stray byte => cases part

theorem chars?_of_isIdentifier : chars? text = some (Text.shown text).toList := by
  have read := chars?_glyphs (Text.shown text)
  rw [glyphs_shown identifier] at read
  exact read

theorem readUnsigned_of_isIdentifier (limit : Nat) :
    (chars? text).bind (Text.readUnsigned limit) = none := by
  rcases exists_of_isIdentifier identifier with ⟨first, rest, shape, start⟩
  rw [chars?_of_isIdentifier identifier, shape, Option.bind_some]
  cases first with
  | stray byte => cases start
  | char c =>
      have nonzero : c ≠ '0' := by
        intro same
        rw [same] at start
        exact absurd start (by decide)
      simp only [isIdentifierStart, Bool.or_eq_true, beq_iff_eq] at start
      rw [Text.shown, String.toList_ofList, List.map_cons, Text.readUnsigned, Text.Glyph.shown,
        Text.Numeral.ofChars_of_ne nonzero]
      by_cases underscore : c = '_'
      · rw [underscore]
        rfl
      · have unread (rest : List Char) : Text.digitsValue? 10 0 (c :: rest) = none := by
          rw [Text.digitsValue?, if_neg underscore]
          split
          · rename_i digit value
            rcases start with (letter | same) | point
            · rw [if_neg (Nat.not_lt.mpr (Text.digitValue?_of_isLetter letter value))]
            · exact absurd same underscore
            · rw [point] at value
              cases value
          · rfl
        simp [unread]

end Identifiers

theorem shown_trim {name : String} (identifier : isIdentifier (Text.glyphs name) = true) :
    Text.shown (trim (Text.glyphs name)) = name := by
  rw [(isOperand_of_isIdentifier identifier).trim_eq, Text.shown_glyphs]

end AssemblyText

namespace Line

open AssemblyText

/-! ## The labels of a line -/

/-- Nothing but an identifier becomes a label. -/
theorem isIdentifier_of_ofPieces {pieces : List AssemblyText} {line : Line}
    (read : ofPieces pieces = .ok line) {name : String} (member : name ∈ line.labels) :
    isIdentifier (Text.glyphs name) = true := by
  induction pieces generalizing line with
  | nil =>
      cases read
      exact absurd member List.not_mem_nil
  | cons piece rest ih =>
      cases rest with
      | nil =>
          cases read
          exact absurd member List.not_mem_nil
      | cons next rest =>
          rw [ofPieces] at read
          · split at read
            · cases read
              exact absurd member List.not_mem_nil
            · split at read
              · rename_i identifier
                rcases exists_of_bind_eq_ok read with ⟨inner, innerRead, same⟩
                cases same
                rcases List.mem_cons.mp member with same | member
                · rw [same, glyphs_shown identifier]
                  exact identifier
                · exact ih innerRead member
              · cases read
          · exact fun empty => List.cons_ne_nil _ _ empty

theorem isIdentifier_of_numbered {text : AssemblyText} {number : Nat} {line : Line}
    (listed : (number, .ok line) ∈ Line.numbered text) {name : String}
    (member : name ∈ line.labels) : isIdentifier (Text.glyphs name) = true := by
  rw [Line.numbered, List.mem_map] at listed
  rcases listed with ⟨⟨piece, index⟩, _, same⟩
  rw [Prod.mk.injEq] at same
  cases parsed : parse piece with
  | error fault =>
      rw [parsed] at same
      cases same.2
  | ok found =>
      rw [parsed] at same
      cases same.2
      exact isIdentifier_of_ofPieces parsed member

theorem refusesLabel_of_isIdentifier {text : AssemblyText} (identifier : isIdentifier text = true) :
    refusesLabel text = false := by
  rcases exists_of_isIdentifier identifier with ⟨first, rest, shape, _⟩
  rw [refusesLabel, Bool.or_eq_false_iff, List.any_eq_false]
  refine ⟨by rw [shape]; rfl, ?_⟩
  intro glyph member
  have other {c : Char} (mark : isMark c = true) : glyph ≠ .char c :=
    fun same => not_mem_of_isIdentifier identifier mark (same ▸ member)
  simp only [Bool.or_eq_true, beq_iff_eq, not_or]
  exact ⟨⟨other (by decide), other (by decide)⟩, other (by decide)⟩

/-- The line of a label has this label and nothing else. -/
theorem parse_label {name : String} (identifier : isIdentifier (Text.glyphs name) = true) :
    parse (Text.glyphs (name ++ ":")) = .ok ⟨[name], none⟩ := by
  have absent {c : Char} (mark : isMark c = true) := not_mem_of_isIdentifier identifier mark
  have uncommented : .char ';' ∉ Text.glyphs name ++ [.char ':'] := by
    rw [List.mem_append, not_or]
    exact ⟨absent (by decide), by decide⟩
  have cut := Text.pieces_append (Text.Glyph.char ':') (Text.glyphs name) []
  rw [Text.pieces_of_not_mem _ (absent (by decide))] at cut
  have colon : Text.glyphs (name ++ ":") = Text.glyphs name ++ [.char ':'] := Text.glyphs_append _ _
  have read : ofPieces [Text.glyphs name, []] = .ok ⟨[name], none⟩ := by
    simp only [ofPieces, (isOperand_of_isIdentifier identifier).trim_eq,
      refusesLabel_of_isIdentifier identifier, identifier, if_true, Text.shown_glyphs]
    rfl
  rw [parse, colon, withoutComment_eq uncommented, pieces, cut]
  exact read

end Line
end LoxNative
