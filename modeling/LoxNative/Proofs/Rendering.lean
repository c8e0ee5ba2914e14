import Mathlib
import LoxNative.Assembly
import LoxNative.Instruction.Program
import LoxNative.Proofs.InstructionEffect

namespace LoxNative

/-!
# Reading back what was written

A program is written as text and the text is read by the assembler.  This module follows one
instruction through the text: its line is cut at its separators, its operands are recognized, and
the operation that is selected in the end is the one that the instruction stands for.

The argument needs little about the text of an operand.  It must not contain a character at which
lines or statements are cut, and no blank at its ends, so that trimming does not touch it.
-/

namespace Text

/-! ## Pieces between separators -/

section Pieces

variable {Symbol : Type} [DecidableEq Symbol] (separator : Symbol)

theorem pieces_cons_same (text : List Symbol) :
    pieces separator (separator :: text) = [] :: pieces separator text := by
  simp [pieces]

theorem pieces_ne_nil (text : List Symbol) : pieces separator text ≠ [] := by
  cases text with
  | nil => exact List.cons_ne_nil _ _
  | cons symbol text =>
      simp only [pieces, List.foldr_cons]
      split
      · exact List.cons_ne_nil _ _
      · split <;> exact List.cons_ne_nil _ _

theorem pieces_cons_other {symbol : Symbol} (different : symbol ≠ separator) (text : List Symbol)
    {piece : List Symbol} {rest : List (List Symbol)}
    (behind : pieces separator text = piece :: rest) :
    pieces separator (symbol :: text) = (symbol :: piece) :: rest := by
  simp only [pieces] at behind
  simp only [pieces, List.foldr_cons, if_neg different, behind]

theorem pieces_of_not_mem {text : List Symbol} (absent : separator ∉ text) :
    pieces separator text = [text] := by
  induction text with
  | nil => rfl
  | cons symbol text ih =>
      have different : symbol ≠ separator := fun same => absent (same ▸ List.mem_cons_self)
      have behind := ih (fun member => absent (List.mem_cons_of_mem symbol member))
      exact pieces_cons_other separator different text behind

theorem pieces_append (before after : List Symbol) :
    pieces separator (before ++ separator :: after) =
      pieces separator before ++ pieces separator after := by
  induction before with
  | nil => exact pieces_cons_same separator after
  | cons symbol before ih =>
      rcases List.exists_cons_of_ne_nil (pieces_ne_nil separator before) with ⟨piece, rest, behind⟩
      rw [behind] at ih
      by_cases same : symbol = separator
      · subst same
        rw [List.cons_append, pieces_cons_same, pieces_cons_same, ih, behind]
        rfl
      · rw [List.cons_append, pieces_cons_other separator same _ ih,
          pieces_cons_other separator same before behind]
        rfl

end Pieces

/-! ## Decimal numerals -/

theorem toNat_of_isDigit {c : Char} (digit : c.isDigit = true) : 48 ≤ c.toNat ∧ c.toNat ≤ 57 := by
  simp only [Char.isDigit, Bool.and_eq_true, decide_eq_true_eq, UInt32.le_iff_toNat_le] at digit
  exact digit

theorem digitValue?_of_isDigit {c : Char} (digit : c.isDigit = true) :
    digitValue? c = some (c.toNat - 0x30) ∧ c.toNat - 0x30 < 10 := by
  have range := toNat_of_isDigit digit
  exact ⟨by rw [digitValue?, if_pos digit], by omega⟩

theorem ne_underscore_of_isDigit {c : Char} (digit : c.isDigit = true) : c ≠ '_' := by
  intro same
  rw [same] at digit
  exact absurd digit (by decide)

theorem digitsValue?_of_isDigit {digits : List Char}
    (all : forall c, c ∈ digits -> c.isDigit = true)
    (read : Nat) : digitsValue? 10 read digits = some (Nat.ofDigitChars 10 digits read) := by
  induction digits generalizing read with
  | nil => rw [digitsValue?, Nat.ofDigitChars_nil]
  | cons c rest ih =>
      have digit := all c List.mem_cons_self
      have value := digitValue?_of_isDigit digit
      rw [digitsValue?, if_neg (ne_underscore_of_isDigit digit), value.1]
      simp only [if_pos value.2]
      rw [ih (fun d member => all d (List.mem_cons_of_mem c member)), Nat.ofDigitChars_cons,
        Nat.mul_comm read 10]
      rfl

theorem wellSeparated_of_isDigit {digits : List Char}
    (all : forall c, c ∈ digits -> c.isDigit = true) : wellSeparated true digits = true := by
  induction digits with
  | nil => rfl
  | cons c rest ih =>
      rw [wellSeparated, if_neg (ne_underscore_of_isDigit (all c List.mem_cons_self))]
      exact ih (fun d member => all d (List.mem_cons_of_mem c member))

/-- A positive number is written without a leading zero, which would announce another base. -/
theorem head?_toDigits {number : Nat} (positive : 0 < number) :
    (Nat.toDigits 10 number).head? ≠ some '0' := by
  induction number using Nat.strongRecOn with
  | ind number ih =>
      by_cases small : number < 10
      · rw [Nat.toDigits_of_lt_base small]
        interval_cases number <;> decide
      · have large : 10 ≤ number := Nat.le_of_not_lt small
        rw [Nat.toDigits_of_base_le (by decide) large,
          List.head?_append_of_ne_nil _ Nat.toDigits_ne_nil]
        exact ih (number / 10) (Nat.div_lt_self positive (by decide))
          (Nat.div_pos large (by decide))

/-- Only a zero in front announces another base than ten. -/
theorem Numeral.ofChars_of_ne {first : Char} (nonzero : first ≠ '0') (rest : List Char) :
    Numeral.ofChars (first :: rest) = ⟨10, false, first :: rest⟩ := by
  unfold Numeral.ofChars
  split
  · rename_i same
    exact absurd (List.cons.inj same).1 nonzero
  · rename_i same
    exact absurd (List.cons.inj same).1 nonzero
  · rfl

theorem readUnsigned_toDigits {limit number : Nat} (small : number < limit) :
    readUnsigned limit (Nat.toDigits 10 number) = some number := by
  have all : forall c, c ∈ Nat.toDigits 10 number -> c.isDigit = true :=
    fun c member => Nat.isDigit_of_mem_toDigits (by decide) (by decide) member
  rcases Nat.eq_zero_or_pos number with zero | positive
  · subst zero
    rw [Nat.toDigits_zero]
    change (some 0).filter (· < limit) = some 0
    simp [small]
  · have value := digitsValue?_of_isDigit all 0
    rw [Nat.ofDigitChars_toDigits (by decide) (by decide)] at value
    have first := head?_toDigits positive
    rcases List.exists_cons_of_ne_nil (Nat.toDigits_ne_nil (n := number) (b := 10)) with
      ⟨c, rest, digits⟩
    rw [digits] at value first all ⊢
    have nonzero : c ≠ '0' := fun same => first (by rw [same]; rfl)
    have separated : wellSeparated false (c :: rest) = true := by
      rw [wellSeparated, if_neg (ne_underscore_of_isDigit (all c List.mem_cons_self))]
      exact wellSeparated_of_isDigit (fun d member => all d (List.mem_cons_of_mem c member))
    simp only [readUnsigned, Numeral.ofChars_of_ne nonzero, separated, if_true, value]
    simp [small]

/-- Every decimal numeral is made of digits. -/
theorem toList_toString (number : Nat) : (toString number).toList = Nat.toDigits 10 number :=
  Nat.toList_repr

theorem glyphs_append (first second : String) :
    glyphs (first ++ second) = glyphs first ++ glyphs second := by
  rw [glyphs, String.toList_append, List.map_append]
  rfl

theorem glyphs_spaced (before behind : String) :
    glyphs (before ++ " " ++ behind) = glyphs before ++ .char ' ' :: glyphs behind := by
  rw [glyphs_append, glyphs_append, List.append_assoc]
  rfl

theorem glyphs_listed (before behind : String) :
    glyphs (before ++ ", " ++ behind) =
      glyphs before ++ .char ',' :: .char ' ' :: glyphs behind := by
  rw [glyphs_append, glyphs_append, List.append_assoc]
  rfl

end Text

namespace AssemblyText

/-! ## Trimming and cutting -/

/-- The characters at which lines and statements are cut. -/
def cuts : List Char :=
  ['\n', ';', ':', ',']

/-- A text that is an operand as it stands: it is not cut, and trimming leaves it alone. -/
structure IsOperand (text : AssemblyText) : Prop where
  whole : forall c, c ∈ cuts -> .char c ∉ text
  starts : exists first rest, text = first :: rest ∧ isBlank first = false
  ends : exists front last, text = front ++ [last] ∧ isBlank last = false

theorem dropWhile_blanks {blanks : AssemblyText}
    (blank : forall glyph, glyph ∈ blanks -> isBlank glyph = true)
    {first : Text.Glyph} (solid : isBlank first = false) (rest : AssemblyText) :
    (blanks ++ first :: rest).dropWhile isBlank = first :: rest := by
  rw [List.dropWhile_append_of_pos blank, List.dropWhile_cons_of_neg (by rw [solid]; decide)]

/-- Trimming removes blanks in front of a text whose ends are not blank, and nothing else. -/
theorem trim_blanks_append (blanks : AssemblyText) {text : AssemblyText}
    (blank : forall glyph, glyph ∈ blanks -> isBlank glyph = true)
    (starts : exists first rest, text = first :: rest ∧ isBlank first = false)
    (ends : exists front last, text = front ++ [last] ∧ isBlank last = false) :
    trim (blanks ++ text) = text := by
  rcases starts with ⟨first, rest, split, solid⟩
  have front : (blanks ++ text).dropWhile isBlank = text := by
    rw [split]
    exact dropWhile_blanks blank solid rest
  rcases ends with ⟨before, last, split, solid⟩
  rw [trim, front, split, List.reverse_append, List.reverse_singleton, List.singleton_append,
    List.dropWhile_cons_of_neg (by rw [solid]; decide), List.reverse_cons, List.reverse_reverse]

theorem IsOperand.trim_eq {text : AssemblyText} (operand : IsOperand text) : trim text = text :=
  trim_blanks_append [] (fun _ member => absurd member List.not_mem_nil) operand.starts operand.ends

theorem isBlank_eq_false {c : Char} (ascii : c.toNat < 0x80) (above : 0x20 < c.toNat) :
    isBlank (.char c) = false := by
  have different : c ≠ ' ' := by
    intro same
    rw [same] at above
    exact absurd above (by decide)
  simp only [isBlank, Text.isBlank, if_pos ascii, Bool.or_eq_false_iff, beq_eq_false_iff_ne]
  refine ⟨different, ?_⟩
  rw [Bool.and_eq_false_iff, decide_eq_false_iff_not, decide_eq_false_iff_not]
  right
  omega

theorem isBlank_of_isAlphanum {c : Char} (solid : c.isAlphanum = true) :
    isBlank (.char c) = false := by
  have range : 48 ≤ c.toNat ∧ c.toNat ≤ 122 := by
    simp only [Char.isAlphanum, Char.isAlpha, Char.isUpper, Char.isLower, Char.isDigit,
      Bool.or_eq_true, Bool.and_eq_true, decide_eq_true_eq, UInt32.le_iff_toNat_le] at solid
    have value : c.toNat = c.val.toNat := rfl
    rcases solid with (⟨least, most⟩ | ⟨least, most⟩) | ⟨least, most⟩
    · exact ⟨Nat.le_trans (by decide) least, Nat.le_trans most (by decide)⟩
    · exact ⟨Nat.le_trans (by decide) least, most⟩
    · exact ⟨least, Nat.le_trans most (by decide)⟩
  exact isBlank_eq_false (by omega) (by omega)

/-- Letters and digits are never cut or trimmed. -/
theorem isOperand_of_isAlphanum {text : String}
    (solid : forall c, c ∈ text.toList -> c.isAlphanum = true)
    (nonempty : text.toList ≠ []) : IsOperand (Text.glyphs text) where
  whole c cut member := by
    rcases List.mem_map.mp member with ⟨d, inside, same⟩
    rw [Text.Glyph.char.inj same] at inside
    have refused : c.isAlphanum = false := by
      simp only [cuts, List.mem_cons, List.not_mem_nil, or_false] at cut
      rcases cut with same | same | same | same <;> rw [same] <;> decide
    exact absurd (solid c inside) (by rw [refused]; decide)
  starts := by
    rcases List.exists_cons_of_ne_nil nonempty with ⟨c, more, split⟩
    refine ⟨.char c, more.map .char, by rw [Text.glyphs, split]; rfl, ?_⟩
    exact isBlank_of_isAlphanum (solid c (by rw [split]; exact List.mem_cons_self))
  ends := by
    rcases List.eq_nil_or_concat text.toList with empty | ⟨front, c, split⟩
    · exact absurd empty nonempty
    · refine ⟨front.map .char, .char c, ?_, ?_⟩
      · rw [Text.glyphs, split, List.concat_eq_append, List.map_append]
        rfl
      · exact isBlank_of_isAlphanum (solid c (by rw [split]; simp))

/-- A word of ASCII letters, as the mnemonics are. -/
structure IsWord (word : String) : Prop where
  letters : forall c, c ∈ word.toList -> c.isAlpha = true
  nonempty : word.toList ≠ []

theorem IsWord.whole {word : String} (isWord : IsWord word) {c : Char} (other : c.isAlpha = false) :
    .char c ∉ Text.glyphs word := by
  intro member
  rcases List.mem_map.mp member with ⟨d, inside, same⟩
  rw [Text.Glyph.char.inj same] at inside
  exact absurd (isWord.letters c inside) (by rw [other]; decide)

theorem IsWord.isOperand {word : String} (isWord : IsWord word) : IsOperand (Text.glyphs word) :=
  isOperand_of_isAlphanum
    (fun c member => by rw [Char.isAlphanum, isWord.letters c member, Bool.true_or]) isWord.nonempty

/-- The start of a text is the start of its first part. -/
theorem starts_append {text : AssemblyText} (behind : AssemblyText)
    (starts : exists first rest, text = first :: rest ∧ isBlank first = false) :
    exists first rest, text ++ behind = first :: rest ∧ isBlank first = false := by
  rcases starts with ⟨first, rest, split, solid⟩
  exact ⟨first, rest ++ behind, by rw [split, List.cons_append], solid⟩

/-- The end of a text is the end of its last part. -/
theorem ends_append (before : AssemblyText) {text : AssemblyText}
    (ends : exists front last, text = front ++ [last] ∧ isBlank last = false) :
    exists front last, before ++ text = front ++ [last] ∧ isBlank last = false := by
  rcases ends with ⟨front, last, split, solid⟩
  exact ⟨before ++ front, last, by rw [split, List.append_assoc], solid⟩

end AssemblyText

namespace Statement

open AssemblyText

theorem splitOperands_one {operand : AssemblyText} (isOperand : IsOperand operand) :
    splitOperands operand = [operand] := by
  have cut := Text.pieces_of_not_mem (Text.Glyph.char ',') (isOperand.whole ',' (by decide))
  unfold splitOperands
  rw [isOperand.trim_eq]
  split
  · rcases isOperand.starts with ⟨first, rest, empty, solid⟩
    cases empty
  · rw [pieces, cut, List.map_singleton, isOperand.trim_eq]

theorem splitOperands_two {first second : AssemblyText} (isFirst : IsOperand first)
    (isSecond : IsOperand second) :
    splitOperands (first ++ .char ',' :: .char ' ' :: second) = [first, second] := by
  rcases isFirst.starts with ⟨start, rest, starts, solid⟩
  rcases isSecond.ends with ⟨front, last, ends, firm⟩
  have trimmed : trim (first ++ .char ',' :: .char ' ' :: second) =
      first ++ .char ',' :: .char ' ' :: second := by
    refine trim_blanks_append [] (fun _ member => absurd member List.not_mem_nil) ?_ ?_
    · exact ⟨start, rest ++ .char ',' :: .char ' ' :: second, by rw [starts]; rfl, solid⟩
    · exact ⟨first ++ .char ',' :: .char ' ' :: front, last, by rw [ends]; simp, firm⟩
  have blanked : trim (.char ' ' :: second) = second :=
    trim_blanks_append [.char ' '] (by decide) isSecond.starts isSecond.ends
  have absent : Text.Glyph.char ',' ∉ Text.Glyph.char ' ' :: second := by
    simpa using isSecond.whole ',' (by decide)
  have cutFirst := Text.pieces_of_not_mem (Text.Glyph.char ',') (isFirst.whole ',' (by decide))
  have cutSecond := Text.pieces_of_not_mem (Text.Glyph.char ',') absent
  unfold splitOperands
  rw [trimmed]
  split
  · rename_i empty
    rw [starts] at empty
    exact absurd empty (List.cons_ne_nil _ _)
  · rw [pieces, Text.pieces_append, cutFirst, cutSecond]
    simp only [List.singleton_append, List.map_cons, List.map_nil, isFirst.trim_eq, blanked]

theorem continues_of_isWord {word : String} (isWord : IsWord word) :
    forall glyph, glyph ∈ Text.glyphs word -> (!endsMnemonic glyph) = true := by
  intro glyph member
  have noSpace : glyph ≠ .char ' ' := fun same => isWord.whole (by decide) (same ▸ member)
  have noTab : glyph ≠ .char '\t' := fun same => isWord.whole (by decide) (same ▸ member)
  simp [endsMnemonic, noSpace, noTab]

theorem ofText_word {word : String} (isWord : IsWord word) :
    ofText (Text.glyphs word) = ⟨upperCase (Text.glyphs word), []⟩ := by
  have continues := continues_of_isWord isWord
  rw [ofText, List.takeWhile_eq_self_iff.mpr continues, List.dropWhile_eq_nil_iff.mpr continues]
  rfl

theorem ofText_operands {word : String} (isWord : IsWord word) (operands : AssemblyText) :
    ofText (Text.glyphs word ++ .char ' ' :: operands) =
      ⟨upperCase (Text.glyphs word), splitOperands operands⟩ := by
  have continues := continues_of_isWord isWord
  rw [ofText, List.takeWhile_append_of_pos continues, List.dropWhile_append_of_pos continues,
    List.takeWhile_cons_of_neg (by decide), List.dropWhile_cons_of_neg (by decide),
    List.append_nil]
  rfl

end Statement

namespace Line

open AssemblyText

theorem withoutComment_eq {text : AssemblyText} (uncommented : .char ';' ∉ text) :
    withoutComment text = text := by
  rw [withoutComment, List.takeWhile_eq_self_iff]
  intro glyph member
  rw [bne_iff_ne]
  exact fun same => uncommented (same ▸ member)

/-- A line without labels and comments is its statement. -/
theorem parse_statement {text : AssemblyText} (uncommented : .char ';' ∉ text)
    (unlabelled : .char ':' ∉ text) : parse text = .ok ⟨[], statementOf text⟩ := by
  rw [parse, withoutComment_eq uncommented, pieces, Text.pieces_of_not_mem _ unlabelled]
  rfl

theorem statementOf_blanks_append (blanks : AssemblyText) {text : AssemblyText}
    (blank : forall glyph, glyph ∈ blanks -> isBlank glyph = true)
    (starts : exists first rest, text = first :: rest ∧ isBlank first = false)
    (ends : exists front last, text = front ++ [last] ∧ isBlank last = false) :
    statementOf (blanks ++ text) = some (.ofText text) := by
  unfold statementOf
  rw [trim_blanks_append blanks blank starts ends]
  split
  · rcases starts with ⟨first, rest, empty, solid⟩
    cases empty
  · rfl

end Line

namespace Instruction

open AssemblyText

/-! ## The line of an instruction -/

/-- The word in front of the operands. -/
def word (instruction : Instruction) : String :=
  match instruction.mnemonic with
  | .set => "set" ++ instruction.condition.suffix
  | mnemonic => mnemonic.name

/-- The operands in the order in which they are written. -/
def operands (instruction : Instruction) : List (Option Operand) :=
  match instruction.mnemonic with
  | .syscall => []
  | .push => [instruction.source]
  | .pop | .div | .set => [instruction.destination]
  | _ => [instruction.destination, instruction.source]

/-- The statement that an instruction is read back as. -/
def statement (instruction : Instruction) : Statement where
  mnemonic := upperCase (Text.glyphs instruction.word)
  operands := instruction.operands.map fun operand => Text.glyphs (operandText operand)

/-- Whether the mnemonic and the condition of an instruction have words. -/
def isListed (instruction : Instruction) : Bool :=
  Mnemonic.all.contains instruction.mnemonic &&
    (instruction.mnemonic != .set || Condition.all.contains instruction.condition)

theorem isWord_of_isListed {instruction : Instruction} (listed : instruction.isListed = true) :
    IsWord instruction.word := by
  have plain : forall mnemonic, mnemonic ∈ Mnemonic.all -> mnemonic ≠ .set ->
      mnemonic.name.toList.all Char.isAlpha = true ∧ mnemonic.name.toList ≠ [] := by
    decide
  have conditional : forall condition, condition ∈ Condition.all ->
      ("set" ++ condition.suffix).toList.all Char.isAlpha = true ∧
        ("set" ++ condition.suffix).toList ≠ [] := by
    decide
  rcases instruction with ⟨mnemonic, destination, source, condition⟩
  simp only [isListed, Bool.and_eq_true, List.contains_iff_mem, Bool.or_eq_true, bne_iff_ne]
    at listed
  by_cases isSet : mnemonic = .set
  · subst isSet
    have tested := listed.2.resolve_left (fun other => other rfl)
    have checked := conditional condition tested
    exact ⟨List.all_eq_true.mp checked.1, checked.2⟩
  · have named : word ⟨mnemonic, destination, source, condition⟩ = mnemonic.name := by
      cases mnemonic with
      | set => exact absurd rfl isSet
      | _ => rfl
    have checked := plain mnemonic listed.1 isSet
    rw [named]
    exact ⟨List.all_eq_true.mp checked.1, checked.2⟩

/-- An instruction is its word, or its word and one operand, or its word and two operands. -/
theorem render_cases (instruction : Instruction) :
    (instruction.operands = [] ∧ instruction.render = instruction.word) ∨
      (exists only, instruction.operands = [only] ∧
        instruction.render = instruction.word ++ " " ++ operandText only) ∨
      exists first second, instruction.operands = [first, second] ∧
        instruction.render =
          instruction.word ++ " " ++ operandText first ++ ", " ++ operandText second := by
  rcases instruction with ⟨mnemonic, destination, source, condition⟩
  cases mnemonic with
  | syscall => exact Or.inl ⟨rfl, rfl⟩
  | push => exact Or.inr (Or.inl ⟨source, rfl, rfl⟩)
  | pop | div | set => exact Or.inr (Or.inl ⟨destination, rfl, rfl⟩)
  | _ => exact Or.inr (Or.inr ⟨destination, source, rfl, rfl⟩)

/-- No line is cut at a character of an instruction, apart from the commas between its operands. -/
theorem whole_render {instruction : Instruction} (listed : instruction.isListed = true)
    (isOperand : forall operand, operand ∈ instruction.operands ->
      IsOperand (Text.glyphs (operandText operand)))
    {c : Char} (cut : c ∈ ['\n', ';', ':']) :
    .char c ∉ Text.glyphs ("    " ++ instruction.render) := by
  have others : c ∈ AssemblyText.cuts ∧ c.isAlpha = false ∧ c ≠ ' ' ∧ c ≠ ',' := by
    simp only [List.mem_cons, List.not_mem_nil, or_false] at cut
    rcases cut with same | same | same <;> subst same <;> decide
  rcases others with ⟨isCut, notLetter, notSpace, notComma⟩
  have word := (isWord_of_isListed listed).whole notLetter
  have blanks : .char c ∉ Text.glyphs "    " := by
    intro member
    rcases List.mem_map.mp member with ⟨d, inside, same⟩
    rw [Text.Glyph.char.inj same] at inside
    exact notSpace (List.eq_of_mem_replicate (n := 4) inside)
  have operands := fun operand member => (isOperand operand member).whole c isCut
  rw [Text.glyphs_append]
  rcases render_cases instruction with ⟨none, text⟩ | ⟨only, one, text⟩ | ⟨first, second, two, text⟩
  · rw [text]
    simp [blanks, word]
  · rw [one] at operands
    rw [text, Text.glyphs_spaced]
    simp [blanks, word, notSpace, operands only]
  · rw [two] at operands
    rw [text, Text.glyphs_listed, Text.glyphs_spaced]
    simp [blanks, word, notSpace, notComma, operands first, operands second]

/-- A word behind blanks begins a statement, whatever stands behind it. -/
theorem statementOf_word_append {word : String} (isWord : IsWord word) {behind : AssemblyText}
    (ends : exists front last, Text.glyphs word ++ behind = front ++ [last] ∧
      isBlank last = false) :
    Line.statementOf (Text.glyphs "    " ++ (Text.glyphs word ++ behind)) =
      some (.ofText (Text.glyphs word ++ behind)) :=
  Line.statementOf_blanks_append _ (by decide) (starts_append behind isWord.isOperand.starts) ends

theorem parse_render {instruction : Instruction} (listed : instruction.isListed = true)
    (isOperand : forall operand, operand ∈ instruction.operands ->
      IsOperand (Text.glyphs (operandText operand))) :
    Line.parse (Text.glyphs ("    " ++ instruction.render)) =
      .ok ⟨[], some instruction.statement⟩ := by
  have isWord := isWord_of_isListed listed
  rw [Line.parse_statement (whole_render listed isOperand (by decide))
    (whole_render listed isOperand (by decide)), Text.glyphs_append, statement]
  rcases render_cases instruction with ⟨none, text⟩ | ⟨only, one, text⟩ | ⟨first, second, two, text⟩
  · have read := statementOf_word_append isWord
      (by rw [List.append_nil]; exact isWord.isOperand.ends)
    rw [List.append_nil, Statement.ofText_word isWord] at read
    rw [text, none, read]
    rfl
  · have operand := isOperand only (by rw [one]; exact List.mem_cons_self)
    have read := statementOf_word_append isWord
      (ends_append _ (ends_append [.char ' '] operand.ends))
    rw [List.singleton_append, Statement.ofText_operands isWord,
      Statement.splitOperands_one operand] at read
    rw [text, one, Text.glyphs_spaced, read]
    rfl
  · have isFirst := isOperand first (by rw [two]; exact List.mem_cons_self)
    have isSecond := isOperand second (by rw [two]; exact List.mem_cons_of_mem _ List.mem_cons_self)
    have read := statementOf_word_append isWord
      (ends_append _ (ends_append (.char ' ' :: Text.glyphs (operandText first) ++
        [.char ',', .char ' ']) isSecond.ends))
    rw [List.cons_append, List.cons_append, List.append_assoc, List.cons_append,
      List.singleton_append, Statement.ofText_operands isWord,
      Statement.splitOperands_two isFirst isSecond] at read
    rw [text, two, Text.glyphs_listed, Text.glyphs_spaced, List.append_assoc,
      List.cons_append, read]
    rfl

end Instruction

/-! ## The operands of an instruction -/

theorem Register.name_facts (which : Register) :
    which.name.toList.all Char.isAlphanum = true ∧ which.name.toList ≠ [] ∧
      Register.ofName? (AssemblyText.lowerCase (Text.glyphs which.name)) = some which ∧
      which.name.toList.head?.any Char.isDigit = false := by
  cases which with
  | qword number => revert number; decide +kernel
  | dword number => revert number; decide +kernel
  | word number => revert number; decide +kernel
  | low number => revert number; decide +kernel
  | high number => revert number; decide +kernel

theorem Register.isOperand_name (which : Register) :
    AssemblyText.IsOperand (Text.glyphs which.name) :=
  AssemblyText.isOperand_of_isAlphanum (List.all_eq_true.mp which.name_facts.1) which.name_facts.2.1

theorem AssemblyOperand.parse_name (labels : LabelTable) (pass : Pass) (which : Register) :
    AssemblyOperand.parse labels pass (Text.glyphs which.name) = .ok (.register which) := by
  have nonempty : (Text.glyphs which.name).isEmpty = false := by
    rw [List.isEmpty_eq_false_iff, Text.glyphs, ne_eq, List.map_eq_nil_iff]
    exact which.name_facts.2.1
  rw [AssemblyOperand.parse, nonempty, which.name_facts.2.2.1]
  rfl

/-- No register has a name that starts with a digit. -/
theorem Register.ofName?_eq_none {name : String}
    (numeric : name.toList.head?.any Char.isDigit = true) :
    Register.ofName? name = none := by
  rw [Register.ofName?, List.find?_eq_none]
  intro which member same
  rw [<- beq_iff_eq.mp same, which.name_facts.2.2.2] at numeric
  exact absurd numeric (by decide)

theorem Text.asciiLowerCase_of_isDigit {c : Char} (digit : c.isDigit = true) :
    (Text.asciiLowerCase c).isDigit = true := by
  rcases Text.toNat_of_isDigit digit with ⟨least, most⟩
  rw [<- Char.ofNat_toNat c]
  generalize c.toNat = code at least most
  interval_cases code <;> decide

theorem AssemblyText.chars?_glyphs (text : String) :
    AssemblyText.chars? (Text.glyphs text) = some text.toList := by
  rw [AssemblyText.chars?, Text.glyphs]
  induction text.toList with
  | nil => rfl
  | cons c rest ih => simp [ih, Text.Glyph.char?]

theorem Text.isDigit_of_mem_toString {number : Nat} {c : Char}
    (member : c ∈ (toString number).toList) : c.isDigit = true := by
  rw [Text.toList_toString] at member
  exact Nat.isDigit_of_mem_toDigits (by decide) (by decide) member

theorem Text.toString_ne_nil (number : Nat) : (toString number).toList ≠ [] := by
  rw [Text.toList_toString]
  exact Nat.toDigits_ne_nil

theorem AssemblyText.isOperand_toString (number : Nat) :
    AssemblyText.IsOperand (Text.glyphs (toString number)) :=
  AssemblyText.isOperand_of_isAlphanum
    (fun c member => by rw [Char.isAlphanum, Text.isDigit_of_mem_toString member, Bool.or_true])
    (Text.toString_ne_nil number)

theorem AssemblyOperand.splitSize_of_unspaced {text : AssemblyText} (unspaced : .char ' ' ∉ text) :
    AssemblyOperand.splitSize text = (.unsized, text) := by
  have nothing : text.dropWhile (· != .char ' ') = [] := by
    rw [List.dropWhile_eq_nil_iff]
    intro glyph member
    rw [bne_iff_ne]
    exact fun space => unspaced (space ▸ member)
  rw [AssemblyOperand.splitSize, nothing]

/-- What is neither a register nor bracketed, and has no width in front, is a constant. -/
theorem AssemblyOperand.parse_of_unspaced (labels : LabelTable) (pass : Pass) {text : AssemblyText}
    {first : Text.Glyph} {rest : AssemblyText} (shape : text = first :: rest)
    (unbracketed : first ≠ .char '[') (unspaced : .char ' ' ∉ text)
    (anonymous : Register.ofName? (AssemblyText.lowerCase text) = none) :
    AssemblyOperand.parse labels pass text =
      (AssemblyOperand.parseImmediate labels pass text).map .immediate := by
  unfold AssemblyOperand.parse
  rw [if_neg (by rw [shape]; exact Bool.false_ne_true)]
  simp only [anonymous, AssemblyOperand.splitSize_of_unspaced unspaced]
  split
  · rename_i size behind bracket
    rw [shape, Prod.mk.injEq, List.cons.injEq] at bracket
    exact absurd bracket.2.1 unbracketed
  · rename_i other same
    rw [<- (Prod.mk.inj same).2]
  · rename_i sized
    exact absurd rfl (sized _)

theorem AssemblyOperand.parse_toString (labels : LabelTable) (pass : Pass) {number : Nat}
    (small : number < 0x10000000000000000) :
    AssemblyOperand.parse labels pass (Text.glyphs (toString number)) =
      .ok (.immediate (UInt64.ofNat number)) := by
  rcases List.exists_cons_of_ne_nil (Text.toString_ne_nil number) with ⟨c, rest, split⟩
  have digit :=
    Text.isDigit_of_mem_toString
      (by rw [split]; exact List.mem_cons_self : c ∈ (toString number).toList)
  have anonymous :
      Register.ofName? (AssemblyText.lowerCase (Text.glyphs (toString number))) = none := by
    apply Register.ofName?_eq_none
    rw [AssemblyText.lowerCase, Text.glyphs, split]
    simp [Text.Glyph.shown, Text.asciiLowerCase_of_isDigit digit]
  have unspaced : .char ' ' ∉ Text.glyphs (toString number) := by
    intro member
    rcases List.mem_map.mp member with ⟨d, inside, same⟩
    rw [Text.Glyph.char.inj same] at inside
    exact absurd (Text.isDigit_of_mem_toString inside) (by decide)
  have read : AssemblyOperand.parseImmediate labels pass (Text.glyphs (toString number)) =
      .ok (UInt64.ofNat number) := by
    unfold AssemblyOperand.parseImmediate
    rw [AssemblyText.chars?_glyphs, Option.bind_some, Text.toList_toString,
      Text.readUnsigned_toDigits small]
  have shape : Text.glyphs (toString number) = .char c :: rest.map .char := by
    rw [Text.glyphs, split, List.map_cons]
  have unbracketed : Text.Glyph.char c ≠ .char '[' := by
    intro bracket
    rw [Text.Glyph.char.inj bracket] at digit
    exact absurd digit (by decide)
  rw [AssemblyOperand.parse_of_unspaced labels pass shape unbracketed unspaced anonymous, read]
  rfl

/-- An operand is read back with a meaning, whatever labels are defined. -/
structure Operand.ReadsAs (operand : Option Operand) (meaning : AssemblyOperand) : Prop where
  present : operand.isSome = true
  isOperand : AssemblyText.IsOperand (Text.glyphs (Instruction.operandText operand))
  parsed : forall labels pass,
    AssemblyOperand.parse labels pass (Text.glyphs (Instruction.operandText operand)) = .ok meaning

theorem Operand.readsAs_register (which : Register) :
    Operand.ReadsAs (some (.register which)) (.register which) where
  present := rfl
  isOperand := which.isOperand_name
  parsed labels pass := AssemblyOperand.parse_name labels pass which

theorem Operand.readsAs_immediate (value : UInt32) :
    Operand.ReadsAs (some (.immediate value)) (.immediate value.toUInt64) where
  present := rfl
  isOperand := AssemblyText.isOperand_toString value.toNat
  parsed labels pass := by
    have small : value.toNat < 0x10000000000000000 := Nat.lt_trans value.toNat_lt (by decide)
    have widened : UInt64.ofNat value.toNat = value.toUInt64 := by
      apply UInt64.toNat_inj.mp
      rw [UInt64.toNat_ofNat_of_lt' small, UInt32.toNat_toUInt64]
    rw [<- widened]
    exact AssemblyOperand.parse_toString labels pass small

namespace Instruction

open AssemblyText

/-- The line of an instruction is assembled to an operation, whatever labels are defined. -/
structure Assembles (instruction : Instruction) (operation : Operation) : Prop where
  writable : instruction.isWritable = true
  single : .char '\n' ∉ Text.glyphs ("    " ++ instruction.render)
  parsed : Line.parse (Text.glyphs ("    " ++ instruction.render)) =
    .ok ⟨[], some instruction.statement⟩
  emitting : instruction.statement.isDirective = false
  encoded : forall labels pass, instruction.statement.encode labels pass = .ok operation.encode
  expressible : operation.IsExpressible

theorem isOperand_of_readsAs {operands : List (Option Operand)} {meanings : List AssemblyOperand}
    (read : List.Forall₂ Operand.ReadsAs operands meanings) :
    forall operand, operand ∈ operands -> IsOperand (Text.glyphs (operandText operand)) := by
  induction read with
  | nil => exact fun operand member => absurd member List.not_mem_nil
  | cons first rest ih =>
      intro operand member
      rcases List.mem_cons.mp member with same | member
      · rw [same]
        exact first.isOperand
      · exact ih operand member

theorem parse_operands (labels : LabelTable) (pass : Pass) {operands : List (Option Operand)}
    {meanings : List AssemblyOperand} (read : List.Forall₂ Operand.ReadsAs operands meanings) :
    (operands.map fun operand => Text.glyphs (operandText operand)).mapM
      (AssemblyOperand.parse labels pass) = .ok meanings := by
  induction read with
  | nil => rfl
  | cons first rest ih =>
      rw [List.map_cons, List.mapM_cons, first.parsed labels pass, ih]
      rfl

/-- An instruction can be written if its operands are read back, since they are there. -/
theorem isWritable_of_readsAs {instruction : Instruction} {meanings : List AssemblyOperand}
    (read : List.Forall₂ Operand.ReadsAs instruction.operands meanings) :
    instruction.isWritable = true := by
  rcases instruction with ⟨mnemonic, destination, source, condition⟩
  cases mnemonic with
  | push | pop | div | set =>
      cases read with
      | cons first rest => exact first.present
  | _ => rfl

theorem isDirective_of_lookup {statement : Statement} {verb : Verb}
    (found : Verb.all.lookup statement.mnemonic = some verb) : statement.isDirective = false := by
  have unlisted : forall name, name ∈ Statement.directives -> Verb.all.lookup name = none := by
    decide
  rw [Statement.isDirective, <- Bool.not_eq_true, List.contains_iff_mem]
  intro member
  rw [unlisted _ member] at found
  cases found

/-- An instruction is assembled to the operation that is selected for its word and the meanings of
its operands. -/
theorem assembles_of_select {instruction : Instruction} (text name : String)
    {meanings : List AssemblyOperand} {operation : Operation} (listed : instruction.isListed = true)
    (read : List.Forall₂ Operand.ReadsAs instruction.operands meanings)
    (word : instruction.word = text) (named : upperCase (Text.glyphs text) = name)
    (selected : Operation.select name meanings = .ok operation) :
    instruction.Assembles operation := by
  have mnemonic : instruction.statement.mnemonic = name := by
    rw [<- named, <- word]
    rfl
  rw [<- mnemonic] at selected
  rcases Operation.Performs.of_select selected with ⟨verb, found, performs⟩
  refine ⟨isWritable_of_readsAs read,
    whole_render listed (isOperand_of_readsAs read) List.mem_cons_self,
    parse_render listed (isOperand_of_readsAs read), isDirective_of_lookup found, ?_,
    performs.expressible⟩
  intro labels pass
  have parsed : instruction.statement.operands.mapM (AssemblyOperand.parse labels pass) =
      .ok meanings := parse_operands labels pass read
  simp only [Statement.encode, parsed, selected, bind, Except.bind]
  rfl

end Instruction

end LoxNative
