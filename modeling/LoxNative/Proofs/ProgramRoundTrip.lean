import Mathlib
import LoxNative.Proofs.AddressText
import LoxNative.Proofs.ProgramText

namespace LoxNative

/-!
# Reading a program back

The text of a program can be turned into the program again.  Each operand is read as what it was
written from, so each statement gives back the operation, the condition and the operands of its
instruction, and the labels of the lines are the names of the sections.

Only what an instruction uses is written: the source of a `pop`, or the condition of a move, leaves
no trace in the text, and `used` removes such parts before the two sides are compared.

A label is a number of 32 bits.  It counts the code in front of its section as long as there are
less than 2^32 bytes of it, and then begins again at zero.
-/

/-! ## Instructions -/

/-- What an operand is read back as.  Nothing is read back of an address without brackets, or of
numbers that belong to no register and no width. -/
def Operand.meaning? : Operand -> Option AssemblyOperand
  | .register which => some (.register which)
  | .unlisted _ => none
  | .memory place =>
      if place.dereferenced && place.size.isListed then some (.memory place) else none
  | .immediate value => some (.immediate value.toUInt64)

/-- The operand of an instruction with a meaning.  Constants of instructions have 32 bits. -/
def AssemblyOperand.operand? : AssemblyOperand -> Option Operand
  | .register which => some (.register which)
  | .immediate value => if value.toNat < 0x100000000 then some (.immediate value.toUInt32) else none
  | .memory place => some (.memory place)

theorem Operand.readsAs_of_meaning? {operand : Operand} {meaning : AssemblyOperand}
    (means : operand.meaning? = some meaning) : Operand.ReadsAs (some operand) meaning := by
  cases operand with
  | register which =>
      cases means
      exact Operand.readsAs_register which
  | unlisted index => cases means
  | memory place =>
      rw [Operand.meaning?, Option.ite_none_right_eq_some, Bool.and_eq_true] at means
      rcases means with ⟨⟨dereferenced, listed⟩, same⟩
      cases same
      exact ⟨rfl, place.isOperand_render dereferenced listed,
        place.parse_render dereferenced listed⟩
  | immediate value =>
      cases means
      exact Operand.readsAs_immediate value

theorem Operand.operand?_of_meaning? {operand : Operand} {meaning : AssemblyOperand}
    (means : operand.meaning? = some meaning) : meaning.operand? = some operand := by
  cases operand with
  | register which =>
      cases means
      rfl
  | unlisted index => cases means
  | memory place =>
      rw [Operand.meaning?, Option.ite_none_right_eq_some] at means
      cases means.2
      rfl
  | immediate value =>
      cases means
      rw [AssemblyOperand.operand?, UInt32.toNat_toUInt64, if_pos value.toNat_lt,
        UInt32.toUInt32_toUInt64]

namespace Instruction

open AssemblyText

/-- The words of instructions, in capitals, with the operations and conditions that they stand
for. -/
def words : List (String × Mnemonic × Condition) :=
  [("MOV", .mov, .equal), ("PUSH", .push, .equal), ("POP", .pop, .equal), ("ADD", .add, .equal),
    ("SUB", .sub, .equal), ("IMUL", .mul, .equal), ("DIV", .div, .equal), ("XOR", .xor, .equal),
    ("CMP", .cmp, .equal), ("MOVZX", .movzx, .equal), ("SYSCALL", .syscall, .equal),
    ("SETE", .set, .equal), ("SETNE", .set, .notEqual), ("SETL", .set, .less),
    ("SETLE", .set, .lessEqual), ("SETG", .set, .greater), ("SETGE", .set, .greaterEqual)]

/-- The instruction with an operation and operands in the order in which they are written. -/
def ofOperands? (mnemonic : Mnemonic) (condition : Condition) : List Operand -> Option Instruction
  | [] => if mnemonic = .syscall then some { mnemonic } else none
  | [only] =>
      match mnemonic with
      | .push => some { mnemonic, source := only }
      | .pop | .div => some { mnemonic, destination := only }
      | .set => some { mnemonic, destination := only, condition }
      | _ => none
  | [first, second] =>
      match mnemonic with
      | .mov | .add | .sub | .mul | .xor | .cmp | .movzx =>
          some { mnemonic, destination := first, source := second }
      | _ => none
  | _ => none

/-- Read an instruction from a statement. -/
def ofStatement? (labels : LabelTable) (pass : Pass) (statement : Statement) :
    Option Instruction := do
  let (mnemonic, condition) <- words.lookup statement.mnemonic
  let meanings <- (statement.operands.mapM (AssemblyOperand.parse labels pass)).toOption
  ofOperands? mnemonic condition (<- meanings.mapM AssemblyOperand.operand?)

/-- An instruction without the parts that it does not use. -/
def used (instruction : Instruction) : Instruction :=
  match instruction.mnemonic with
  | .syscall => { mnemonic := .syscall }
  | .push => { mnemonic := .push, source := instruction.source }
  | .pop => { mnemonic := .pop, destination := instruction.destination }
  | .div => { mnemonic := .div, destination := instruction.destination }
  | .set =>
      { mnemonic := .set
        destination := instruction.destination
        condition := instruction.condition }
  | mnemonic => { mnemonic, destination := instruction.destination, source := instruction.source }

/-- What the operands of an instruction are read back as. -/
def meanings? (instruction : Instruction) : Option (List AssemblyOperand) :=
  instruction.operands.mapM fun operand => operand.bind Operand.meaning?

/-- An instruction that has a word, and whose operands are there and have meanings. -/
def isReadable (instruction : Instruction) : Bool :=
  instruction.isListed && instruction.meanings?.isSome

/-- The code of an instruction that has one. -/
def encoding? (instruction : Instruction) : Option (List UInt8) := do
  let meanings <- instruction.meanings?
  let operation <- (Operation.select instruction.statement.mnemonic meanings).toOption
  return operation.encode

/-- The code of an instruction, empty if it has none. -/
def encoding (instruction : Instruction) : List UInt8 :=
  instruction.encoding?.getD []

theorem of_isReadable {instruction : Instruction} (readable : instruction.isReadable = true) :
    instruction.isListed = true ∧ exists meanings, instruction.meanings? = some meanings := by
  rw [isReadable, Bool.and_eq_true, Option.isSome_iff_exists] at readable
  exact readable

/-- The word of an instruction stands for its operation and its condition, and for no directive. -/
theorem word_facts {instruction : Instruction} (listed : instruction.isListed = true) :
    words.lookup instruction.statement.mnemonic =
        some (instruction.used.mnemonic, instruction.used.condition) ∧
      instruction.statement.isDirective = false := by
  have plain : forall mnemonic, mnemonic ∈ Mnemonic.all -> mnemonic ≠ .set ->
      words.lookup (upperCase (Text.glyphs mnemonic.name)) = some (mnemonic, .equal) ∧
        Statement.directives.contains (upperCase (Text.glyphs mnemonic.name)) = false := by
    decide +kernel
  have conditional : forall condition, condition ∈ Condition.all ->
      words.lookup (upperCase (Text.glyphs ("set" ++ condition.suffix))) = some (.set, condition) ∧
        Statement.directives.contains (upperCase (Text.glyphs ("set" ++ condition.suffix))) =
          false := by
    decide +kernel
  rcases instruction with ⟨mnemonic, destination, source, condition⟩
  simp only [isListed, Bool.and_eq_true, List.contains_iff_mem, Bool.or_eq_true, bne_iff_ne]
    at listed
  cases mnemonic with
  | set => exact conditional condition (listed.2.resolve_left fun other => other rfl)
  | unlisted code => exact absurd listed.1 (by simp [Mnemonic.all])
  | _ =>
      apply plain _ listed.1
      intro isSet
      cases isSet

/-- Operands with meanings are all there, they are read as their meanings, and found again in
them. -/
theorem reads_operands {operands : List (Option Operand)} {meanings : List AssemblyOperand}
    (means : operands.mapM (fun operand => operand.bind Operand.meaning?) = some meanings) :
    List.Forall₂ Operand.ReadsAs operands meanings ∧
      exists present, operands = present.map some ∧
        meanings.mapM AssemblyOperand.operand? = some present := by
  induction operands generalizing meanings with
  | nil =>
      cases means
      exact ⟨.nil, [], rfl, rfl⟩
  | cons operand rest ih =>
      rw [List.mapM_cons] at means
      rcases Option.bind_eq_some_iff.mp means with ⟨meaning, first, means⟩
      rcases Option.bind_eq_some_iff.mp means with ⟨behind, others, same⟩
      rcases Option.bind_eq_some_iff.mp first with ⟨given, isGiven, first⟩
      rcases ih others with ⟨read, present, arePresent, found⟩
      cases same
      rw [isGiven]
      refine ⟨.cons (Operand.readsAs_of_meaning? first) read, given :: present, ?_, ?_⟩
      · rw [arePresent, List.map_cons]
      · rw [List.mapM_cons, Operand.operand?_of_meaning? first, found]
        rfl

theorem mapM_parse_statement {instruction : Instruction} {meanings : List AssemblyOperand}
    (means : instruction.meanings? = some meanings) (labels : LabelTable) (pass : Pass) :
    instruction.statement.operands.mapM (AssemblyOperand.parse labels pass) = .ok meanings :=
  parse_operands labels pass (reads_operands means).1

/-- The used parts of an instruction are its operation, its condition and its written operands. -/
theorem ofOperands?_used {instruction : Instruction} (listed : instruction.isListed = true)
    {present : List Operand} (arePresent : instruction.operands = present.map some) :
    ofOperands? instruction.used.mnemonic instruction.used.condition present =
      some instruction.used := by
  rcases instruction with ⟨mnemonic, destination, source, condition⟩
  cases mnemonic with
  | syscall =>
      rw [List.map_eq_nil_iff.mp arePresent.symm]
      rfl
  | push | pop | div | set =>
      rcases List.map_eq_singleton_iff.mp arePresent.symm with ⟨only, isOnly, given⟩
      subst isOnly given
      rfl
  | unlisted code =>
      rw [isListed, Bool.and_eq_true] at listed
      exact absurd (List.contains_iff_mem.mp listed.1) (by simp [Mnemonic.all])
  | _ =>
      rcases List.map_eq_cons_iff.mp arePresent.symm with ⟨first, rest, isPresent, given, others⟩
      rcases List.map_eq_singleton_iff.mp others with ⟨second, isOnly, alsoGiven⟩
      subst isPresent isOnly given alsoGiven
      rfl

theorem ofStatement?_statement {instruction : Instruction}
    (readable : instruction.isReadable = true) (labels : LabelTable) (pass : Pass) :
    ofStatement? labels pass instruction.statement = some instruction.used := by
  rcases of_isReadable readable with ⟨listed, meanings, means⟩
  rcases reads_operands means with ⟨_, present, arePresent, found⟩
  rw [ofStatement?, (word_facts listed).1, mapM_parse_statement means]
  change (meanings.mapM AssemblyOperand.operand?).bind (ofOperands? _ _) = _
  rw [found, Option.bind_some, ofOperands?_used listed arePresent]

theorem mapM_ofStatement? {instructions : List Instruction}
    (readable : forall instruction, instruction ∈ instructions -> instruction.isReadable = true)
    (labels : LabelTable) (pass : Pass) :
    (instructions.map statement).mapM (ofStatement? labels pass) =
      some (instructions.map used) := by
  induction instructions with
  | nil => rfl
  | cons instruction rest ih =>
      have first := ofStatement?_statement (readable instruction List.mem_cons_self) labels pass
      rw [List.map_cons, List.mapM_cons, first, ih fun other member =>
        readable other (List.mem_cons_of_mem _ member)]
      rfl

theorem isDirective_statement {instruction : Instruction}
    (readable : instruction.isReadable = true) :
    instruction.statement.isDirective = false :=
  (word_facts (of_isReadable readable).1).2

theorem reads_line {instruction : Instruction} (readable : instruction.isReadable = true) :
    Line.Reads instruction.lineText instruction.line := by
  rcases of_isReadable readable with ⟨listed, meanings, means⟩
  have isOperand := isOperand_of_readsAs (reads_operands means).1
  exact ⟨whole_render listed isOperand List.mem_cons_self, parse_render listed isOperand⟩

theorem isWritable_of_isReadable {instruction : Instruction}
    (readable : instruction.isReadable = true) :
    instruction.isWritable = true := by
  rcases of_isReadable readable with ⟨-, meanings, means⟩
  exact isWritable_of_readsAs (reads_operands means).1

/-- The line of an instruction is encoded as the instruction, whatever labels are defined. -/
theorem toOption_encode_line {instruction : Instruction} (readable : instruction.isReadable = true)
    (labels : LabelTable) (pass : Pass) :
    (instruction.line.encode labels pass).toOption = instruction.encoding? := by
  rcases of_isReadable readable with ⟨_, meanings, means⟩
  rw [Line.encode, instruction?_line (isDirective_statement readable), encoding?, means]
  simp only [Statement.encode, mapM_parse_statement means, bind, Except.bind, Option.bind]
  cases Operation.select instruction.statement.mnemonic meanings with
  | error fault => rfl
  | ok operation => rfl

theorem encode_line {instruction : Instruction} (readable : instruction.isReadable = true)
    (encodable : instruction.encoding?.isSome = true) (labels : LabelTable) (pass : Pass) :
    instruction.line.encode labels pass = .ok instruction.encoding := by
  have same := toOption_encode_line readable labels pass
  rw [<- same] at encodable
  rw [encoding, <- same]
  cases encoded : instruction.line.encode labels pass with
  | error fault =>
      rw [encoded] at encodable
      cases encodable
  | ok code => rfl

theorem code_lines {instructions : List Instruction}
    (readable : forall instruction, instruction ∈ instructions -> instruction.isReadable = true)
    (encodable : forall instruction, instruction ∈ instructions ->
      instruction.encoding?.isSome = true) :
    (instructions.flatMap fun instruction => instruction.line.code) =
      instructions.flatMap encoding :=
  List.flatMap_congr fun instruction member =>
    Line.code_eq (encode_line (readable instruction member) (encodable instruction member))

end Instruction

/-! ## Programs -/

theorem Line.mapM_parse_ended {texts : List AssemblyText} {lines : List Line}
    (reads : List.Forall₂ Line.Reads texts lines) :
    (AssemblyText.pieces '\n' (AssemblyText.ended texts)).mapM Line.parse =
      .ok (lines ++ [Line.blank]) := by
  have whole : List.Forall₂ Line.Reads (texts ++ [[]]) (lines ++ [Line.blank]) :=
    List.rel_append reads (.cons Line.reads_blank .nil)
  rw [AssemblyText.pieces_ended (Line.single_of_reads reads)]
  generalize texts ++ [[]] = texts at whole
  generalize lines ++ [Line.blank] = lines at whole
  induction whole with
  | nil => rfl
  | cons first rest ih =>
      rw [List.mapM_cons, first.parsed, ih]
      rfl

theorem Section.instructions_lines {part : Section}
    (emitting : forall instruction, instruction ∈ part.instructions ->
      instruction.statement.isDirective = false) :
    part.lines.filterMap Line.instruction? = part.instructions.map Instruction.statement := by
  have label : part.label.instruction? = none := rfl
  have blank : Line.blank.instruction? = none := rfl
  rw [Section.lines, List.filterMap_cons_none label, Section.body, Section.instructions,
    List.filterMap_flatMap, List.map_flatten, <- List.flatMap_def]
  apply List.flatMap_congr
  intro idiom inside
  rw [List.filterMap_append, List.filterMap_cons_none blank, List.filterMap_nil, List.append_nil,
    List.filterMap_map, <- List.filterMap_eq_map]
  apply List.filterMap_congr
  intro instruction member
  exact Instruction.instruction?_line
    (emitting instruction (List.mem_flatten.mpr ⟨idiom, inside, member⟩))

namespace Program

/-- The lines of a program have the statements of its instructions, and no others that produce
code. -/
theorem instructions_lines {program : Program}
    (emitting : forall instruction, instruction ∈ program.sectionInstructions ->
      instruction.statement.isDirective = false) :
    program.lines.filterMap Line.instruction? =
      program.sectionInstructions.map Instruction.statement := by
  have parts (part : Section) (member : part ∈ program.sections) :
      part.lines.filterMap Line.instruction? = part.instructions.map Instruction.statement :=
    part.instructions_lines fun instruction inside =>
      emitting instruction (List.mem_flatMap.mpr ⟨part, member, inside⟩)
  have data : dataDirective.instruction? = none := instruction?_directives List.mem_cons_self
  have text : textDirectives.filterMap Line.instruction? = [] := by
    rw [List.filterMap_eq_nil_iff]
    exact fun line member => instruction?_directives (List.mem_cons_of_mem _ member)
  rw [lines, List.filterMap_append, List.filterMap_append, text, List.append_nil,
    List.filterMap_flatMap, List.filterMap_flatMap, sectionInstructions, List.map_flatMap, sections,
    List.flatMap_append]
  congr 1
  · apply List.flatMap_congr
    intro part member
    rw [List.filterMap_cons_none data]
    exact parts part (List.mem_append_left _ member)
  · apply List.flatMap_congr
    exact fun part member => parts part (List.mem_append_right _ member)

section Readable

variable {program : Program} (distinct : (program.sections.map Section.name).Nodup)
  (named : forall part, part ∈ program.sections ->
    AssemblyText.isIdentifier (Text.glyphs part.name) = true)
  (readable : forall instruction, instruction ∈ program.sectionInstructions ->
    instruction.isReadable = true)

include readable in
theorem statements_lines :
    program.lines.filterMap Line.instruction? =
      program.sectionInstructions.map Instruction.statement :=
  instructions_lines fun instruction member =>
    Instruction.isDirective_statement (readable instruction member)

include named readable

theorem forall₂_reads : List.Forall₂ Line.Reads program.texts program.lines :=
  reads_lines named fun instruction member => Instruction.reads_line (readable instruction member)

/-- A program is assembled only if all its instructions have codes. -/
theorem encodable_of_ofText {assembly : Assembly}
    (assembled : Assembly.ofText (Text.glyphs program.render) = .ok assembly) :
    forall instruction, instruction ∈ program.sectionInstructions ->
      instruction.encoding?.isSome = true := by
  intro instruction member
  have stated : instruction.statement ∈ program.lines.filterMap Line.instruction? := by
    rw [statements_lines readable]
    exact List.mem_map_of_mem member
  rcases List.mem_filterMap.mp stated with ⟨line, listed, found⟩
  rw [glyphs_render] at assembled
  rcases Assembly.measured_of_ofText (forall₂_reads named readable) assembled listed with
    ⟨known, code, encoded⟩
  have isReadable := readable instruction member
  -- The code of a line depends on its statement only, so any line with this statement will do.
  have same : instruction.line.encode known .measuring = line.encode known .measuring := by
    rw [Line.encode, Line.encode, found,
      Instruction.instruction?_line (Instruction.isDirective_statement isReadable)]
  rw [<- Instruction.toOption_encode_line isReadable known .measuring, same, encoded]
  rfl

include distinct

theorem ofText_of_encodable
    (encodable : forall instruction, instruction ∈ program.sectionInstructions ->
      instruction.encoding?.isSome = true) :
    exists sourceMap, Assembly.ofText (Text.glyphs program.render) =
      .ok ⟨program.sectionInstructions.flatMap Instruction.encoding, sourceMap,
        Assembly.placed 0 program.lines⟩ := by
  rw [<- Instruction.code_lines readable encodable]
  apply ofText_eq distinct named
  · exact fun instruction member => Instruction.reads_line (readable instruction member)
  · exact fun instruction member => Line.isFixed_of_encode
      (Instruction.encode_line (readable instruction member) (encodable instruction member))

theorem labelOffset?_of_encodable
    (encodable : forall instruction, instruction ∈ program.sectionInstructions ->
      instruction.encoding?.isSome = true)
    {before behind : List Section} {part : Section}
    (split : program.sections = before ++ part :: behind) :
    Assembly.labelOffset? (Assembly.placed 0 program.lines) part.name =
      some (UInt32.ofNat
        ((before.flatMap Section.instructions).flatMap Instruction.encoding).length) := by
  have unique : ((Assembly.placed 0 program.lines).map Prod.fst).Nodup := by
    rw [Assembly.map_fst_placed, labels_lines, List.nodup_reverse]
    exact distinct
  have member : part ∈ program.sections := by
    rw [split]
    exact List.mem_append_right _ List.mem_cons_self
  have earlier : forall instruction, instruction ∈ before.flatMap Section.instructions ->
      instruction ∈ program.sectionInstructions := by
    rw [sectionInstructions, split, List.flatMap_append]
    exact fun instruction member => List.mem_append_left _ member
  rw [Assembly.labelOffset?, AssemblyText.shown_trim (named part member),
    <- Instruction.code_lines
      (fun instruction member => readable instruction (earlier instruction member))
      (fun instruction member => encodable instruction (earlier instruction member))]
  exact Assembly.lookup_eq_some unique (mem_placed_lines split)

end Readable

/-- Writing a program and reading it again loses nothing.  Cutting the text into lines and reading
these gives the names of the sections as labels and the used parts of the instructions, in their
order and nothing else, whatever labels the operands are read with.  The text can be assembled if
and only if all instructions have codes.  The result then is these codes one behind the other.  The
label of each section is the length of the codes of the sections in front of it, modulo 2^32, and so
is exact if and only if that length is less than 2^32. -/
theorem recovered_from_render {program : Program}
    (distinct : (program.sections.map Section.name).Nodup)
    (named : forall part, part ∈ program.sections ->
      AssemblyText.isIdentifier (Text.glyphs part.name) = true)
    (readable : forall instruction, instruction ∈ program.sectionInstructions ->
      instruction.isReadable = true) :
    let text := Text.glyphs program.render
    program.isWritable = true ∧
    (exists lines, (AssemblyText.pieces '\n' text).mapM Line.parse = .ok lines ∧
      lines.flatMap Line.labels = program.sections.map Section.name ∧
      forall labels pass,
        (lines.filterMap Line.instruction?).mapM (Instruction.ofStatement? labels pass) =
          some (program.sectionInstructions.map Instruction.used)) ∧
    ((exists assembly, Assembly.ofText text = .ok assembly) <->
      forall instruction, instruction ∈ program.sectionInstructions ->
        instruction.encoding?.isSome = true) ∧
    forall assembly, Assembly.ofText text = .ok assembly ->
      assembly.code = program.sectionInstructions.flatMap Instruction.encoding ∧
      assembly.labels.reverse.map Prod.fst = program.sections.map Section.name ∧
      forall before part behind, program.sections = before ++ part :: behind ->
        let length := ((before.flatMap Section.instructions).flatMap Instruction.encoding).length
        exists offset, Assembly.labelOffset? assembly.labels part.name = some offset ∧
          offset.toNat = length % 0x100000000 ∧
          (offset.toNat = length <-> length < 0x100000000) := by
  intro text
  refine ⟨?written, ?lines, ?success, ?result⟩
  case written =>
    apply isWritable_iff.mpr
    exact fun instruction member =>
      Instruction.isWritable_of_isReadable (readable instruction member)
  case lines =>
    refine ⟨program.lines ++ [Line.blank], ?_, ?_, ?_⟩
    · dsimp only [text]
      rw [glyphs_render]
      exact Line.mapM_parse_ended (forall₂_reads named readable)
    · rw [List.flatMap_append, labels_lines]
      exact List.append_nil _
    · intro labels pass
      have blank : [Line.blank].filterMap Line.instruction? = [] := rfl
      rw [List.filterMap_append, blank, List.append_nil, statements_lines readable]
      exact Instruction.mapM_ofStatement? readable labels pass
  case success =>
    constructor
    · intro ⟨assembly, assembled⟩
      exact encodable_of_ofText named readable assembled
    · intro encodable
      rcases ofText_of_encodable distinct named readable encodable with ⟨sourceMap, assembled⟩
      exact ⟨_, assembled⟩
  case result =>
    intro assembly assembled
    have encodable := encodable_of_ofText named readable assembled
    rcases ofText_of_encodable distinct named readable encodable with ⟨sourceMap, same⟩
    cases assembled.symm.trans same
    refine ⟨rfl, ?_, ?_⟩
    · rw [List.map_reverse, Assembly.map_fst_placed, List.reverse_reverse, labels_lines]
    · intro before part behind split length
      have wrapped : (UInt32.ofNat length).toNat = length % 0x100000000 := UInt32.toNat_ofNat'
      refine ⟨UInt32.ofNat length, ?_, wrapped, ?_⟩
      · exact labelOffset?_of_encodable distinct named readable encodable split
      · rw [wrapped]
        exact Nat.mod_eq_iff_lt (by decide)

/-- A program with a data section that stores as far from a register as there is. -/
def distantStore : Program where
  data := some ⟨"values",
    [[.mov (.memory { base := .rbx, size := .qword, offset := -0x80000000 }) (.immediate 5)]]⟩
  text := [⟨"_start",
    [[.mov (.register .rax) (.immediate 0xFFFFFFFF)], [.set .lessEqual (.register .al)]]⟩,
    ⟨".end", [[.mov (.register .rdi) (.memory { base := .rsp, offset := 0x7FFFFFFF }), .syscall]]⟩]

theorem recovered_from_render_distantStore :
    (exists lines,
      (AssemblyText.pieces '\n' (Text.glyphs distantStore.render)).mapM Line.parse = .ok lines ∧
      lines.flatMap Line.labels = ["values", "_start", ".end"] ∧
      (lines.filterMap Line.instruction?).mapM (Instruction.ofStatement? [] .emitting) =
        some distantStore.sectionInstructions) ∧
    exists assembly, Assembly.ofText (Text.glyphs distantStore.render) = .ok assembly ∧
      assembly.code =
        [0x48, 0xC7, 0x83, 0x00, 0x00, 0x00, 0x80, 0x05, 0x00, 0x00, 0x00, 0xB8, 0xFF, 0xFF, 0xFF,
          0xFF, 0x0F, 0x9E, 0xC0, 0x48, 0x8B, 0xBC, 0x24, 0xFF, 0xFF, 0xFF, 0x7F, 0x0F, 0x05] ∧
      (Assembly.labelOffset? assembly.labels "_start").map UInt32.toNat = some 11 ∧
      (Assembly.labelOffset? assembly.labels ".end").map UInt32.toNat = some 19 := by
  have distinct : (distantStore.sections.map Section.name).Nodup := by decide
  have named : forall part, part ∈ distantStore.sections ->
      AssemblyText.isIdentifier (Text.glyphs part.name) = true := by decide +kernel
  have readable : forall instruction, instruction ∈ distantStore.sectionInstructions ->
      instruction.isReadable = true := by decide +kernel
  have encodable : forall instruction, instruction ∈ distantStore.sectionInstructions ->
      instruction.encoding?.isSome = true := by decide +kernel
  have complete : distantStore.sectionInstructions.map Instruction.used =
      distantStore.sectionInstructions := by decide +kernel
  rcases recovered_from_render distinct named readable with
    ⟨-, ⟨lines, parsed, labels, recovered⟩, success, result⟩
  rcases success.mpr encodable with ⟨assembly, assembled⟩
  rcases result assembly assembled with ⟨code, _, offsets⟩
  refine ⟨⟨lines, parsed, labels, (recovered [] .emitting).trans (congrArg some complete)⟩, ?_⟩
  have label {before behind : List Section} {part : Section} {name : String} {place : Nat}
      (split : distantStore.sections = before ++ part :: behind) (called : part.name = name)
      (length : ((before.flatMap Section.instructions).flatMap Instruction.encoding).length = place)
      (small : place < 0x100000000) :
      (Assembly.labelOffset? assembly.labels name).map UInt32.toNat = some place := by
    rcases offsets before part behind split with ⟨offset, found, -, isExact⟩
    rw [<- called, found, <- length]
    exact congrArg some (isExact.mpr (length ▸ small))
  have second : distantStore.sections = [_] ++ _ :: [_] := rfl
  have third : distantStore.sections = [_, _] ++ _ :: [] := rfl
  refine ⟨assembly, assembled, code.trans (by decide +kernel), ?_, ?_⟩
  · exact label second rfl (by decide +kernel) (by decide)
  · exact label third rfl (by decide +kernel) (by decide)

/-- A program with a number of system calls in front of its last section. -/
def repeatedCalls (count : Nat) : Program where
  text := [⟨"_start", [List.replicate count .syscall]⟩, ⟨"last", []⟩]

section RepeatedCalls

variable (count : Nat)

theorem sectionInstructions_repeatedCalls :
    (repeatedCalls count).sectionInstructions = List.replicate count .syscall := by
  simp [sectionInstructions, sections, repeatedCalls, Section.instructions]

theorem isReadable_repeatedCalls : forall instruction,
    instruction ∈ (repeatedCalls count).sectionInstructions ->
      instruction.isReadable = true ∧ instruction.encoding?.isSome = true := by
  rw [sectionInstructions_repeatedCalls]
  intro instruction member
  rw [List.eq_of_mem_replicate member]
  decide +kernel

theorem distinct_repeatedCalls : ((repeatedCalls count).sections.map Section.name).Nodup := by
  change ["_start", "last"].Nodup
  decide

theorem isIdentifier_repeatedCalls : forall part, part ∈ (repeatedCalls count).sections ->
    AssemblyText.isIdentifier (Text.glyphs part.name) = true := by
  have first : AssemblyText.isIdentifier (Text.glyphs "_start") = true := by decide +kernel
  have last : AssemblyText.isIdentifier (Text.glyphs "last") = true := by decide +kernel
  intro part member
  rcases List.mem_cons.mp member with rfl | member
  · exact first
  · rw [List.mem_singleton.mp member]
    exact last

theorem length_repeatedCalls :
    (([⟨"_start", [List.replicate count .syscall]⟩] : List Section).flatMap Section.instructions
      |>.flatMap Instruction.encoding).length = 2 * count := by
  have two : Instruction.syscall.encoding.length = 2 := by decide +kernel
  have joined : ([⟨"_start", [List.replicate count .syscall]⟩] : List Section).flatMap
      Section.instructions = List.replicate count .syscall := by
    simp [Section.instructions]
  rw [joined, List.length_flatMap, List.map_replicate, two, List.sum_replicate, smul_eq_mul,
    Nat.mul_comm]

/-- The label behind a number of system calls, which have two bytes each. -/
theorem labelOffset?_repeatedCalls :
    exists assembly before part,
      Assembly.ofText (Text.glyphs (repeatedCalls count).render) = .ok assembly ∧
      (repeatedCalls count).sections = before ++ [part] ∧
      ((before.flatMap Section.instructions).flatMap Instruction.encoding).length = 2 * count ∧
      Assembly.labelOffset? assembly.labels part.name = some (UInt32.ofNat (2 * count)) := by
  have named := isIdentifier_repeatedCalls count
  have readable instruction member := (isReadable_repeatedCalls count instruction member).1
  have encodable instruction member := (isReadable_repeatedCalls count instruction member).2
  rcases ofText_of_encodable (distinct_repeatedCalls count) named readable encodable with
    ⟨sourceMap, assembled⟩
  have split : (repeatedCalls count).sections = [_] ++ ⟨"last", []⟩ :: [] := rfl
  have label :=
    labelOffset?_of_encodable (distinct_repeatedCalls count) named readable encodable split
  rw [length_repeatedCalls] at label
  exact ⟨_, _, _, assembled, split, length_repeatedCalls count, label⟩

end RepeatedCalls

/-- Behind 2^31 system calls there are 2^32 bytes of code, and the label that stands there is
zero. -/
theorem label_behind_repeatedCalls_wraps :
    let program := repeatedCalls 0x80000000
    (program.sections.map Section.name).Nodup ∧
      (forall part, part ∈ program.sections ->
        AssemblyText.isIdentifier (Text.glyphs part.name) = true) ∧
      (forall instruction, instruction ∈ program.sectionInstructions ->
        instruction.isReadable = true ∧ instruction.encoding?.isSome = true) ∧
      exists assembly before part, Assembly.ofText (Text.glyphs program.render) = .ok assembly ∧
        program.sections = before ++ [part] ∧
        ((before.flatMap Section.instructions).flatMap Instruction.encoding).length = 0x100000000 ∧
        Assembly.labelOffset? assembly.labels part.name = some 0 :=
  ⟨distinct_repeatedCalls _, isIdentifier_repeatedCalls _, isReadable_repeatedCalls _,
    labelOffset?_repeatedCalls 0x80000000⟩

end Program

end LoxNative
