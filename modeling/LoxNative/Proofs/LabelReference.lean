import Mathlib
import LoxNative.Proofs.Identifier

namespace LoxNative

/-!
# Labels as operands

An operand that is an identifier and not a register names a label.  No other operand depends on the
labels that are defined, or on the pass.

What a label stands for may differ between the passes: while the code is measured it may count as
zero, and later as its offset.  Both are below 2^31 in code that is shorter than that, and for such
constants an instruction has one form only.  So it has the same length in both passes, and is
accepted in both.
-/

/-- The name of a table entry is an identifier, and its offset has 31 bits. -/
structure LabelTable.IsShort (labels : LabelTable) : Prop where
  named : forall entry, entry ∈ labels -> AssemblyText.isIdentifier (Text.glyphs entry.1) = true
  short : forall entry, entry ∈ labels -> entry.2.toNat < 0x80000000

theorem LabelTable.isShort_nil : LabelTable.IsShort [] :=
  ⟨fun _ member => absurd member List.not_mem_nil, fun _ member => absurd member List.not_mem_nil⟩

theorem mem_of_lookup {Value : Type} {entries : List (String × Value)} {name : String}
    {value : Value} (found : entries.lookup name = some value) : (name, value) ∈ entries := by
  rcases List.lookup_eq_some_iff.mp found with ⟨before, behind, split, _⟩
  rw [split]
  exact List.mem_append_right before List.mem_cons_self

namespace AssemblyOperand

open AssemblyText

/-! ## Reading an operand -/

/-- Whether an operand names a label: it is an identifier, and no register has that name. -/
def namesLabel (text : AssemblyText) : Bool :=
  isIdentifier text && (Register.ofName? (lowerCase text)).isNone

theorem parse_of_namesLabel {text : AssemblyText} (names : namesLabel text = true)
    (labels : LabelTable) (pass : Pass) :
    parse labels pass text =
      match labels.lookup (Text.shown text), pass with
      | some offset, _ => .ok (.immediate offset.toUInt64)
      | none, .measuring => .ok (.immediate 0)
      | none, .emitting => .error (.undefinedLabel (Text.shown text)) := by
  rw [namesLabel, Bool.and_eq_true, Option.isNone_iff_eq_none] at names
  rcases names with ⟨identifier, anonymous⟩
  rcases exists_of_isIdentifier identifier with ⟨first, rest, shape, start⟩
  have unbracketed : first ≠ .char '[' := by
    intro bracket
    rw [bracket] at start
    exact absurd start (by decide)
  have offset : labelOffset? labels text = labels.lookup (Text.shown text) := by
    simp only [labelOffset?, chars?_of_isIdentifier identifier, Option.bind_eq_bind,
      Option.bind_some, String.ofList_toList]
  rw [parse_of_unspaced labels pass shape unbracketed
    (not_mem_of_isIdentifier identifier (by decide)) anonymous]
  simp only [parseImmediate, readUnsigned_of_isIdentifier identifier, offset, identifier, if_true]
  cases labels.lookup (Text.shown text) with
  | some offset => rfl
  | none => cases pass <;> rfl

/-- What has no width taken off it is the whole text. -/
theorem eq_of_splitSize {text rest : AssemblyText} (unsized : splitSize text = (.unsized, rest)) :
    rest = text := by
  have sized : forall entry, entry ∈ sizes -> entry.2 ≠ .unsized := by decide
  rw [splitSize] at unsized
  split at unsized
  · split at unsized
    · rename_i size found
      exact absurd (Prod.mk.inj unsized).1 (sized _ (mem_of_lookup found))
    · exact (Prod.mk.inj unsized).2.symm
  · exact (Prod.mk.inj unsized).2.symm

theorem eq_glyphs_of_chars? {text : AssemblyText} {chars : List Char}
    (read : chars? text = some chars) :
    text = Text.glyphs (String.ofList chars) := by
  rw [Text.glyphs, String.toList_ofList]
  induction text generalizing chars with
  | nil =>
      cases read
      rfl
  | cons glyph rest ih =>
      rw [chars?, List.mapM_cons] at read
      cases glyph with
      | stray byte => cases read
      | char c =>
          cases behind : chars? rest with
          | none =>
              rw [chars?] at behind
              simp [behind, Text.Glyph.char?] at read
          | some chars =>
              have same := ih behind
              rw [chars?] at behind
              simp only [Text.Glyph.char?, behind, Option.bind_eq_bind, Option.bind_some,
                Option.pure_def, Option.some.injEq] at read
              rw [<- read, List.map_cons, <- same]

theorem labelOffset?_eq_none {labels : LabelTable}
    (named : forall entry, entry ∈ labels -> isIdentifier (Text.glyphs entry.1) = true)
    {text : AssemblyText} (other : isIdentifier text = false) :
    labelOffset? labels text = none := by
  cases read : chars? text with
  | none => simp only [labelOffset?, read, Option.bind_eq_bind, Option.bind_none]
  | some chars =>
      simp only [labelOffset?, read, Option.bind_eq_bind, Option.bind_some]
      rw [Option.eq_none_iff_forall_not_mem]
      intro offset found
      have identifier := named _ (mem_of_lookup found)
      rw [<- eq_glyphs_of_chars? read, other] at identifier
      cases identifier

/-- Every other operand is read without regard to the labels and the pass. -/
theorem parse_of_not_namesLabel {text : AssemblyText} (other : namesLabel text = false)
    {labels : LabelTable}
    (named : forall entry, entry ∈ labels -> isIdentifier (Text.glyphs entry.1) = true)
    (pass : Pass) : parse labels pass text = parse [] .measuring text := by
  unfold parse
  by_cases empty : text.isEmpty = true
  · rw [if_pos empty, if_pos empty]
  · rw [if_neg empty, if_neg empty]
    cases anonymous : Register.ofName? (lowerCase text) with
    | some which => rfl
    | none =>
        have unnamed : isIdentifier text = false := by
          rw [namesLabel, anonymous, Option.isNone_none, Bool.and_true] at other
          exact other
        dsimp only
        split
        · rfl
        · rename_i rest _ unsized
          rw [eq_of_splitSize unsized]
          simp only [parseImmediate, labelOffset?_eq_none named unnamed,
            labelOffset?_eq_none LabelTable.isShort_nil.named unnamed, unnamed]
          split <;> rfl
        · rfl

/-! ## Operands of the same form -/

/-- Equal operands, or two constants that both keep their value when their sign is extended. -/
inductive SameForm : AssemblyOperand -> AssemblyOperand -> Prop
  | same (operand : AssemblyOperand) : SameForm operand operand
  | small {first second : UInt64} (firstSmall : first.toNat < 0x80000000)
      (secondSmall : second.toNat < 0x80000000) : SameForm (.immediate first) (.immediate second)

theorem SameForm.qwordRegister_eq {first second : AssemblyOperand} (form : SameForm first second)
    (mnemonic : String) : second.qwordRegister mnemonic = first.qwordRegister mnemonic := by
  cases form <;> rfl

theorem SameForm.byteRegister_eq {first second : AssemblyOperand} (form : SameForm first second)
    (mnemonic : String) : second.byteRegister mnemonic = first.byteRegister mnemonic := by
  cases form <;> rfl

end AssemblyOperand

namespace Operation

open AssemblyOperand

/-- An operation is also selected for operands of the same form, with an encoding of the same
length. -/
def SelectsLike (first second : Except AssemblyFault Operation) : Prop :=
  forall operation, first = .ok operation ->
    exists other, second = .ok other ∧ other.encode.length = operation.encode.length

theorem SelectsLike.of_eq {first second : Except AssemblyFault Operation} (same : second = first) :
    SelectsLike first second := by
  intro operation selected
  exact ⟨operation, same.trans selected, rfl⟩

theorem length_encode_load_of_small (register : RegisterNumber) {first second : UInt64}
    (firstSmall : first.toNat < 0x80000000) (secondSmall : second.toNat < 0x80000000) :
    (encode (.load register second)).length = (encode (.load register first)).length := by
  rw [encode, encode, if_pos firstSmall, if_pos secondSmall, List.length_append, List.length_append,
    LittleEndian.dword_length, LittleEndian.dword_length]

theorem signedConstant_of_small {value : UInt64} (small : value.toNat < 0x80000000) :
    signedConstant value = .ok value.toUInt32 :=
  if_pos small

theorem selectsLike_ofMove (mnemonic : String) {target origin target' origin' : AssemblyOperand}
    (destination : SameForm target target') (source : SameForm origin origin') :
    SelectsLike (ofMove mnemonic target origin) (ofMove mnemonic target' origin') := by
  cases destination with
  | small =>
      intro operation selected
      cases origin <;> cases selected
  | same =>
      cases source with
      | same => exact SelectsLike.of_eq rfl
      | @small first second firstSmall secondSmall =>
          intro operation selected
          cases target with
          | register which =>
              rcases exists_of_bind_eq_ok selected with ⟨number, isNumber, selected⟩
              rw [if_pos (Nat.lt_trans firstSmall (by decide))] at selected
              cases selected
              refine ⟨.load number second, ?_,
                length_encode_load_of_small number firstSmall secondSmall⟩
              simp only [ofMove, isNumber, bind, Except.bind,
                if_pos (Nat.lt_trans secondSmall (by decide : 0x80000000 < 0x100000000))]
              rfl
          | memory place =>
              rw [ofMove] at selected ⊢
              split at selected
              · rename_i sized
                rcases exists_of_bind_eq_ok selected with ⟨bits, _, selected⟩
                rcases exists_of_bind_eq_ok selected with ⟨address, isAddress, selected⟩
                cases selected
                refine ⟨.writeConstant address second.toUInt32, ?_, ?_⟩
                · simp only [if_pos sized, signedConstant_of_small secondSmall, isAddress, bind,
                    Except.bind]
                  rfl
                · simp only [encode, List.length_append, LittleEndian.dword_length]
              · cases selected
          | immediate value => cases selected

theorem selectsLike_ofArithmetic (mnemonic : String) (operation : Arithmetic)
    {target origin target' origin' : AssemblyOperand}
    (destination : SameForm target target') (source : SameForm origin origin') :
    SelectsLike (ofArithmetic mnemonic operation target origin)
      (ofArithmetic mnemonic operation target' origin') := by
  intro selection selected
  rcases exists_of_bind_eq_ok selected with ⟨number, isNumber, selected⟩
  rw [ofArithmetic, destination.qwordRegister_eq, isNumber]
  cases source with
  | same => exact ⟨selection, selected, rfl⟩
  | @small first second firstSmall secondSmall =>
      rcases exists_of_bind_eq_ok selected with ⟨bits, _, selected⟩
      cases selected
      refine ⟨.arithmetic operation number (.constant second.toUInt32), ?_, ?_⟩
      · simp only [signedConstant_of_small secondSmall, bind, Except.bind]
        rfl
      · simp only [encode, List.length_cons, LittleEndian.dword_length]

theorem selectsLike_select (mnemonic : String) {operands others : List AssemblyOperand}
    (forms : List.Forall₂ SameForm operands others) :
    SelectsLike (select mnemonic operands) (select mnemonic others) := by
  rw [select, select]
  cases Verb.all.lookup mnemonic with
  | none => exact SelectsLike.of_eq rfl
  | some verb =>
      -- Only moves and arithmetic take constants; every other verb asks its operands for a
      -- register.
      rcases forms with _ | @⟨target, target', _, _, destination, _ |
        @⟨origin, origin', _, _, source, _ | ⟨_, _⟩⟩⟩
      · exact SelectsLike.of_eq rfl
      · cases verb <;>
          simp only [destination.qwordRegister_eq, destination.byteRegister_eq] <;>
          exact SelectsLike.of_eq rfl
      · cases verb with
        | move => exact selectsLike_ofMove mnemonic destination source
        | arithmetic operation =>
            exact selectsLike_ofArithmetic mnemonic operation destination source
        | multiply =>
            simp only [destination.qwordRegister_eq, source.qwordRegister_eq]
            exact SelectsLike.of_eq rfl
        | zeroExtend =>
            simp only [ofZeroExtend, destination.qwordRegister_eq, source.byteRegister_eq]
            exact SelectsLike.of_eq rfl
        | _ => exact SelectsLike.of_eq rfl
      · cases verb <;> exact SelectsLike.of_eq rfl

end Operation

namespace AssemblyOperand

open AssemblyText

/-! ## Operands in both passes -/

/-- Whether an operand names a label that is not in a table. -/
def isUndefined (labels : LabelTable) (text : AssemblyText) : Bool :=
  namesLabel text && (labels.lookup (Text.shown text)).isNone

/-- Whether a pass can do without the label that an operand names. -/
def isResolved (labels : LabelTable) (pass : Pass) (text : AssemblyText) : Bool :=
  pass == .measuring || !isUndefined labels text

theorem parse_of_isUndefined {labels : LabelTable} {text : AssemblyText}
    (undefined : isUndefined labels text = true) :
    parse labels .emitting text = .error (.undefinedLabel (Text.shown text)) := by
  rw [isUndefined, Bool.and_eq_true, Option.isNone_iff_eq_none] at undefined
  rw [parse_of_namesLabel undefined.1, undefined.2]

theorem isResolved_of_parse {labels : LabelTable} {pass : Pass} {text : AssemblyText}
    {operand : AssemblyOperand} (read : parse labels pass text = .ok operand) :
    isResolved labels pass text = true := by
  cases pass with
  | measuring => rfl
  | emitting =>
      by_cases undefined : isUndefined labels text = true
      · rw [parse_of_isUndefined undefined] at read
        cases read
      · rw [isResolved, Bool.eq_false_of_not_eq_true undefined]
        rfl

/-- A label is read as a constant that keeps its value when its sign is extended. -/
theorem exists_parse_of_namesLabel {text : AssemblyText} (names : namesLabel text = true)
    {labels : LabelTable} (short : LabelTable.IsShort labels) {pass : Pass}
    (resolved : isResolved labels pass text = true) :
    exists value : UInt64, parse labels pass text = .ok (.immediate value) ∧
      value.toNat < 0x80000000 := by
  rw [parse_of_namesLabel names]
  cases found : labels.lookup (Text.shown text) with
  | some offset =>
      refine ⟨offset.toUInt64, rfl, ?_⟩
      rw [UInt32.toNat_toUInt64]
      exact short.short _ (mem_of_lookup found)
  | none =>
      cases pass with
      | measuring => exact ⟨0, rfl, by decide⟩
      | emitting =>
          rw [isResolved, isUndefined, names, found] at resolved
          cases resolved

section Passes

variable {first second : LabelTable} (firstShort : LabelTable.IsShort first)
variable (secondShort : LabelTable.IsShort second) {firstPass secondPass : Pass}

include firstShort secondShort

theorem exists_parse {text : AssemblyText} {operand : AssemblyOperand}
    (read : parse first firstPass text = .ok operand)
    (resolved : isResolved second secondPass text = true) :
    exists other, parse second secondPass text = .ok other ∧ SameForm operand other := by
  by_cases names : namesLabel text = true
  · rcases exists_parse_of_namesLabel names firstShort (isResolved_of_parse read) with
      ⟨value, firstRead, small⟩
    rcases exists_parse_of_namesLabel names secondShort resolved with
      ⟨other, secondRead, otherSmall⟩
    rw [firstRead] at read
    cases read
    exact ⟨.immediate other, secondRead, .small small otherSmall⟩
  · have unnamed := Bool.eq_false_of_not_eq_true names
    refine ⟨operand, ?_, .same operand⟩
    rw [parse_of_not_namesLabel unnamed secondShort.named, <- read,
      parse_of_not_namesLabel unnamed firstShort.named]

theorem exists_mapM_parse {texts : List AssemblyText} {operands : List AssemblyOperand}
    (read : texts.mapM (parse first firstPass) = .ok operands)
    (resolved : forall text, text ∈ texts -> isResolved second secondPass text = true) :
    exists others, texts.mapM (parse second secondPass) = .ok others ∧
      List.Forall₂ SameForm operands others := by
  induction texts generalizing operands with
  | nil =>
      cases read
      exact ⟨[], rfl, .nil⟩
  | cons text rest ih =>
      rw [List.mapM_cons] at read
      rcases exists_of_bind_eq_ok read with ⟨operand, isOperand, read⟩
      rcases exists_of_bind_eq_ok read with ⟨behind, areBehind, read⟩
      cases read
      rcases exists_parse firstShort secondShort isOperand (resolved text List.mem_cons_self) with
        ⟨other, isOther, form⟩
      rcases ih areBehind (fun text member => resolved text (List.mem_cons_of_mem _ member)) with
        ⟨others, areOthers, forms⟩
      refine ⟨other :: others, ?_, .cons form forms⟩
      rw [List.mapM_cons, isOther, areOthers]
      rfl

/-- Operands are read in order, so the first undefined label is the one that is reported. -/
theorem mapM_parse_of_find? {texts : List AssemblyText} {operands : List AssemblyOperand}
    (read : texts.mapM (parse first firstPass) = .ok operands) {text : AssemblyText}
    (found : texts.find? (isUndefined second) = some text) :
    texts.mapM (parse second .emitting) = .error (.undefinedLabel (Text.shown text)) := by
  induction texts generalizing operands with
  | nil => cases found
  | cons head rest ih =>
      rw [List.mapM_cons] at read
      rcases exists_of_bind_eq_ok read with ⟨operand, isOperand, read⟩
      rcases exists_of_bind_eq_ok read with ⟨behind, areBehind, read⟩
      by_cases undefined : isUndefined second head = true
      · rw [List.find?_cons_of_pos undefined] at found
        cases found
        rw [List.mapM_cons, parse_of_isUndefined undefined]
        rfl
      · rw [List.find?_cons_of_neg undefined] at found
        have resolved : isResolved second .emitting head = true := by
          rw [isResolved, Bool.eq_false_of_not_eq_true undefined]
          rfl
        rcases exists_parse firstShort secondShort isOperand resolved with ⟨other, isOther, _⟩
        rw [List.mapM_cons, isOther, ih areBehind found]
        rfl

end Passes

/-- An operand with the offset of its label written in the place of the name. -/
def substituted (labels : LabelTable) (text : AssemblyText) : AssemblyText :=
  match namesLabel text, labels.lookup (Text.shown text) with
  | true, some offset => Text.glyphs (toString offset.toNat)
  | _, _ => text

theorem parse_substituted {labels : LabelTable} (short : LabelTable.IsShort labels)
    (text : AssemblyText) :
    parse [] .emitting (substituted labels text) = parse labels .emitting text := by
  cases names : namesLabel text with
  | false =>
      have unchanged : substituted labels text = text := by simp only [substituted, names]
      rw [unchanged, parse_of_not_namesLabel names short.named,
        parse_of_not_namesLabel names LabelTable.isShort_nil.named]
  | true =>
      cases found : labels.lookup (Text.shown text) with
      | none =>
          have unchanged :
              substituted labels text = text := by simp only [substituted, names, found]
          rw [unchanged, parse_of_namesLabel names, parse_of_namesLabel names, found,
            List.lookup_nil]
      | some offset =>
          have written : substituted labels text = Text.glyphs (toString offset.toNat) := by
            simp only [substituted, names, found]
          rw [written, parse_of_namesLabel names, found]
          exact (Operand.readsAs_immediate offset).parsed [] .emitting

end AssemblyOperand

namespace Statement

open AssemblyOperand

/-! ## Statements in both passes -/

section Passes

variable {first second : LabelTable} (firstShort : LabelTable.IsShort first)
variable (secondShort : LabelTable.IsShort second) {firstPass secondPass : Pass}

include firstShort secondShort

/-- A statement that one pass accepts is accepted by the other, with code of the same length, unless
a label is missing. -/
theorem exists_encode {statement : Statement} {code : List UInt8}
    (encoded : statement.encode first firstPass = .ok code)
    (resolved : forall text, text ∈ statement.operands ->
      isResolved second secondPass text = true) :
    exists other, statement.encode second secondPass = .ok other ∧ other.length = code.length := by
  rcases exists_of_bind_eq_ok encoded with ⟨operands, read, encoded⟩
  rcases exists_of_bind_eq_ok encoded with ⟨operation, selected, encoded⟩
  cases encoded
  rcases exists_mapM_parse firstShort secondShort read resolved with ⟨others, otherRead, forms⟩
  rcases Operation.selectsLike_select statement.mnemonic forms operation selected with
    ⟨other, otherSelected, length⟩
  refine ⟨other.encode, ?_, length⟩
  simp only [encode, otherRead, otherSelected, bind, Except.bind]
  rfl

theorem encode_of_find? {statement : Statement} {code : List UInt8}
    (encoded : statement.encode first firstPass = .ok code) {text : AssemblyText}
    (found : statement.operands.find? (isUndefined second) = some text) :
    statement.encode second .emitting = .error (.undefinedLabel (Text.shown text)) := by
  rcases exists_of_bind_eq_ok encoded with ⟨operands, read, _⟩
  simp only [encode, mapM_parse_of_find? firstShort secondShort read found, bind, Except.bind]

end Passes

/-- A statement with the offsets of labels written in the place of their names. -/
def substituted (labels : LabelTable) (statement : Statement) : Statement :=
  { statement with operands := statement.operands.map (AssemblyOperand.substituted labels) }

theorem encode_substituted {labels : LabelTable} (short : LabelTable.IsShort labels)
    (statement : Statement) :
    (statement.substituted labels).encode [] .emitting = statement.encode labels .emitting := by
  have same : parse [] .emitting ∘ AssemblyOperand.substituted labels = parse labels .emitting :=
    funext (parse_substituted short)
  rw [encode, encode, substituted, List.mapM_map, same]

end Statement

end LoxNative
