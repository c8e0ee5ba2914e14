import Mathlib
import LoxNative.Lowering
import LoxNative.Proofs.LabelPlacement

namespace LoxNative

/-!
# Assembling a written program

The text of a program is a few lines of directives and then its sections: the label of a section,
and the lines of its instructions with a blank line behind every idiom.  None of these lines names a
label in an operand, so their code is the same in both passes.  Assembling puts it one behind the
other, and each label stands where the code of its section begins.
-/

/-! ## Lines of a text -/

/-- Lines as they stand in a text, each with its end. -/
def AssemblyText.ended (lines : List AssemblyText) : AssemblyText :=
  lines.flatMap fun line => line ++ [.char '\n']

theorem AssemblyText.ended_append (first second : List AssemblyText) :
    AssemblyText.ended (first ++ second) = AssemblyText.ended first ++ AssemblyText.ended second :=
  List.flatMap_append

theorem AssemblyText.pieces_ended {lines : List AssemblyText}
    (single : forall line, line ∈ lines -> .char '\n' ∉ line) :
    AssemblyText.pieces '\n' (AssemblyText.ended lines) = lines ++ [[]] := by
  induction lines with
  | nil => rfl
  | cons line rest ih =>
      have behind := ih (fun other member => single other (List.mem_cons_of_mem line member))
      have first := Text.pieces_of_not_mem (Text.Glyph.char '\n') (single line List.mem_cons_self)
      rw [AssemblyText.pieces, AssemblyText.ended] at behind ⊢
      rw [List.flatMap_cons, List.append_assoc, List.singleton_append, Text.pieces_append,
        first, behind]
      rfl

namespace Line

/-- A text that is a single line, and how it is read. -/
structure Reads (text : AssemblyText) (line : Line) : Prop where
  single : .char '\n' ∉ text
  parsed : Line.parse text = .ok line

/-- The line with nothing on it. -/
def blank : Line :=
  ⟨[], none⟩

theorem reads_blank : Reads [] blank :=
  ⟨List.not_mem_nil, rfl⟩

theorem reads_label {name : String}
    (identifier : AssemblyText.isIdentifier (Text.glyphs name) = true) :
    Reads (Text.glyphs (name ++ ":")) ⟨[name], none⟩ where
  single := by
    have absent :=
      AssemblyText.not_mem_of_isIdentifier identifier (by decide : AssemblyText.isMark '\n' = true)
    rw [Text.glyphs_append, List.mem_append, not_or]
    exact ⟨absent, by decide⟩
  parsed := parse_label identifier

/-- Lines with their numbers. -/
def counted (number : Nat) (lines : List Line) : Assembly.Lines :=
  (lines.zipIdx number).map fun (line, number) => (number, .ok line)

theorem counted_cons (number : Nat) (line : Line) (rest : List Line) :
    counted number (line :: rest) = (number, .ok line) :: counted (number + 1) rest := by
  rw [counted, List.zipIdx_cons, List.map_cons]
  rfl

theorem mem_counted (number : Nat) {lines : List Line} {line : Line} (member : line ∈ lines) :
    exists position, (position, .ok line) ∈ counted number lines := by
  induction lines generalizing number with
  | nil => exact absurd member List.not_mem_nil
  | cons other rest ih =>
      rw [counted_cons]
      rcases List.mem_cons.mp member with same | behind
      · rw [same]
        exact ⟨number, List.mem_cons_self⟩
      · rcases ih (number + 1) behind with ⟨position, found⟩
        exact ⟨position, List.mem_cons_of_mem _ found⟩

theorem single_of_reads {texts : List AssemblyText} {lines : List Line}
    (reads : List.Forall₂ Reads texts lines) : forall text, text ∈ texts -> .char '\n' ∉ text := by
  induction reads with
  | nil => exact fun text member => absurd member List.not_mem_nil
  | cons first rest ih =>
      intro text member
      rcases List.mem_cons.mp member with same | member
      · rw [same]
        exact first.single
      · exact ih text member

theorem numbered_ended {texts : List AssemblyText} {lines : List Line}
    (reads : List.Forall₂ Reads texts lines) :
    numbered (AssemblyText.ended texts) = counted 1 (lines ++ [blank]) := by
  have whole : List.Forall₂ Reads (texts ++ [[]]) (lines ++ [blank]) :=
    List.rel_append reads (.cons reads_blank .nil)
  rw [numbered, AssemblyText.pieces_ended (single_of_reads reads)]
  generalize texts ++ [[]] = texts at whole
  generalize lines ++ [blank] = lines at whole
  generalize 1 = number
  induction whole generalizing number with
  | nil => rfl
  | cons first rest ih =>
      rw [List.zipIdx_cons, List.map_cons, ih, counted_cons]
      dsimp only
      rw [first.parsed]
      rfl

/-! ## Lines that name no label -/

/-- The code of a line that names no label. -/
def code (line : Line) : List UInt8 :=
  match line.encode [] .emitting with
  | .ok code => code
  | .error _ => []

/-- A line whose code depends neither on the labels nor on the pass. -/
def IsFixed (line : Line) : Prop :=
  forall labels pass, line.encode labels pass = .ok line.code

theorem code_eq {line : Line} {code : List UInt8}
    (encoded : forall labels pass, line.encode labels pass = .ok code) : line.code = code := by
  rw [Line.code, encoded]

theorem isFixed_of_encode {line : Line} {code : List UInt8}
    (encoded : forall labels pass, line.encode labels pass = .ok code) : line.IsFixed := by
  rw [IsFixed, code_eq encoded]
  exact encoded

theorem encode_of_instruction?_eq_none {line : Line} (silent : line.instruction? = none)
    (labels : LabelTable) (pass : Pass) : line.encode labels pass = .ok [] := by
  rw [Line.encode, silent]

end Line

namespace Assembly

/-- The table of the labels of some lines, whose code begins at an offset. -/
def placed : UInt32 -> List Line -> LabelTable
  | _, [] => []
  | offset, line :: rest =>
      placed (offset + UInt32.ofNat line.code.length) rest ++
        (line.labels.map fun name => (name, offset)).reverse

theorem placed_append (offset : UInt32) (first second : List Line) :
    placed offset (first ++ second) =
      placed (offset + UInt32.ofNat (first.flatMap Line.code).length) second ++
        placed offset first := by
  induction first generalizing offset with
  | nil => simp [placed]
  | cons line rest ih =>
      rw [List.cons_append, placed, ih, placed, List.flatMap_cons, List.length_append,
        UInt32.ofNat_add, UInt32.add_assoc, List.append_assoc]

theorem map_fst_placed (offset : UInt32) (lines : List Line) :
    (placed offset lines).map Prod.fst = (lines.flatMap Line.labels).reverse := by
  induction lines generalizing offset with
  | nil => rfl
  | cons line rest ih =>
      rw [placed, List.map_append, ih, List.flatMap_cons, List.reverse_append, List.map_reverse,
        List.map_map]
      exact congrArg (_ ++ List.reverse ·) (List.map_id line.labels)

/-- A label stands behind the code of the lines in front of its own. -/
theorem mem_placed (offset : UInt32) (front back : List Line) {line : Line} {name : String}
    (listed : name ∈ line.labels) :
    (name, offset + UInt32.ofNat (front.flatMap Line.code).length) ∈
      placed offset (front ++ line :: back) := by
  rw [placed_append, placed]
  refine List.mem_append_left _ (List.mem_append_right _ (List.mem_reverse.mpr ?_))
  exact List.mem_map.mpr ⟨name, listed, rfl⟩

/-! ## The two passes -/

theorem surveys_counted {lines : List Line} (fixed : forall line, line ∈ lines -> line.IsFixed)
    (number : Nat) (offset : UInt32) {labels : LabelTable}
    (distinct : ((placed offset lines ++ labels).map Prod.fst).Nodup) :
    exists ending, Surveys offset labels (Line.counted number lines) ending
      (placed offset lines ++ labels) := by
  induction lines generalizing number offset labels with
  | nil => exact ⟨offset, .done offset labels⟩
  | cons line rest ih =>
      rw [placed, List.append_assoc] at distinct ⊢
      have known :
          (((line.labels.map fun name => (name, offset)).reverse ++ labels).map
            Prod.fst).Nodup := by
        rw [List.map_append] at distinct
        exact List.Nodup.of_append_right distinct
      have defined := (define_eq_iff offset line.labels (by
        rw [List.map_append] at known
        exact List.Nodup.of_append_right known)).mpr ⟨rfl, known⟩
      have measured := fixed line List.mem_cons_self
        ((line.labels.map fun name => (name, offset)).reverse ++ labels) .measuring
      rcases ih (fun line member => fixed line (List.mem_cons_of_mem _ member)) (number + 1)
        (offset + UInt32.ofNat line.code.length) distinct with ⟨ending, further⟩
      rw [Line.counted_cons]
      exact ⟨ending, .line number defined measured further⟩

theorem emit_counted {lines : List Line} (fixed : forall line, line ∈ lines -> line.IsFixed)
    (labels : LabelTable) (number : Nat) (code : Array UInt8) (sourceMap : SourceMap) :
    exists noted, emit labels (Line.counted number lines) code sourceMap =
      .ok (code ++ lines.flatMap Line.code, noted) := by
  induction lines generalizing number code sourceMap with
  | nil => exact ⟨sourceMap, by simp [Line.counted, emit]⟩
  | cons line rest ih =>
      rcases emit_cons (fixed line List.mem_cons_self labels .emitting) number code sourceMap with
        ⟨noted, emitted⟩
      rcases ih (fun line member => fixed line (List.mem_cons_of_mem _ member)) (number + 1)
        (code ++ line.code) noted with ⟨complete, done⟩
      refine ⟨complete, ?_⟩
      rw [Line.counted_cons, emitted, done, List.flatMap_cons]
      congr 2
      apply Array.toList_inj.mp
      simp

/-- The first pass measures every line of a text that is assembled. -/
theorem measured_of_ofText {texts : List AssemblyText} {lines : List Line}
    (reads : List.Forall₂ Line.Reads texts lines) {assembly : Assembly}
    (assembled : ofText (AssemblyText.ended texts) = .ok assembly) {line : Line}
    (member : line ∈ lines) :
    exists known code, line.encode known .measuring = .ok code := by
  have numbered := Line.numbered_ended reads
  rcases Line.mem_counted 1 (List.mem_append_left [Line.blank] member) with ⟨number, listed⟩
  rw [<- numbered] at listed
  cases survey : survey (Line.numbered (AssemblyText.ended texts)) 0 [] with
  | mk labels error? =>
      cases error? with
      | some error =>
          rw [ofText, run, survey] at assembled
          cases assembled
      | none =>
          rcases survey_eq_iff.mp survey with ⟨ending, surveys⟩
          exact surveys.measured listed

/-- Lines that name no label are assembled to their code, one behind the other. -/
theorem ofText_ended {texts : List AssemblyText} {lines : List Line}
    (reads : List.Forall₂ Line.Reads texts lines)
    (fixed : forall line, line ∈ lines -> line.IsFixed)
    (distinct : (lines.flatMap Line.labels).Nodup) :
    exists sourceMap, ofText (AssemblyText.ended texts) =
      .ok ⟨lines.flatMap Line.code, sourceMap, placed 0 lines⟩ := by
  have numbered := Line.numbered_ended reads
  have ended : placed 0 (lines ++ [Line.blank]) = placed 0 lines := by
    rw [placed_append]
    rfl
  have wholeFixed : forall line, line ∈ lines ++ [Line.blank] -> line.IsFixed := by
    intro line member
    rcases List.mem_append.mp member with inside | last
    · exact fixed line inside
    · rw [List.mem_singleton.mp last]
      exact Line.isFixed_of_encode (Line.encode_of_instruction?_eq_none rfl)
  have wholeDistinct : ((placed 0 (lines ++ [Line.blank]) ++ []).map Prod.fst).Nodup := by
    rw [ended, List.append_nil, map_fst_placed, List.nodup_reverse]
    exact distinct
  have surveyed := survey_eq_iff.mpr (surveys_counted wholeFixed 1 0 wholeDistinct)
  rw [ended, List.append_nil, <- numbered] at surveyed
  rcases emit_counted wholeFixed (placed 0 lines) 1 #[] ∅ with ⟨sourceMap, emitted⟩
  refine ⟨sourceMap, ?_⟩
  have silent : Line.blank.code = [] := rfl
  rw [ofText_eq surveyed, numbered, emitted]
  simp [Except.map, silent]

end Assembly

/-! ## The lines of a program -/

theorem forall₂_flatMap {Item First Second : Type} {Relation : First -> Second -> Prop}
    {items : List Item} {first : Item -> List First} {second : Item -> List Second}
    (related : forall item, item ∈ items -> List.Forall₂ Relation (first item) (second item)) :
    List.Forall₂ Relation (items.flatMap first) (items.flatMap second) := by
  induction items with
  | nil => exact .nil
  | cons item rest ih =>
      rw [List.flatMap_cons, List.flatMap_cons]
      exact List.rel_append (related item List.mem_cons_self)
        (ih fun other member => related other (List.mem_cons_of_mem _ member))

theorem Text.glyphs_join (texts : List String) :
    Text.glyphs (String.join texts) = texts.flatMap Text.glyphs := by
  rw [Text.glyphs, String.toList_join, List.map_flatMap]
  rfl

/-- The text of the line of an instruction. -/
def Instruction.lineText (instruction : Instruction) : AssemblyText :=
  Text.glyphs ("    " ++ instruction.render)

/-- The line of an instruction as it is read. -/
def Instruction.line (instruction : Instruction) : Line :=
  ⟨[], some instruction.statement⟩

theorem Instruction.instruction?_line {instruction : Instruction}
    (emitting : instruction.statement.isDirective = false) :
    instruction.line.instruction? = some instruction.statement := by
  rw [Instruction.line, Line.instruction?, Option.filter_some, emitting]
  rfl

theorem Instruction.Assembles.encode_line {instruction : Instruction} {operation : Operation}
    (assembles : instruction.Assembles operation) (labels : LabelTable) (pass : Pass) :
    instruction.line.encode labels pass = .ok operation.encode := by
  rw [Line.encode, Instruction.instruction?_line assembles.emitting]
  exact assembles.encoded labels pass

namespace Section

/-- The instructions of a section. -/
def instructions (part : Section) : List Instruction :=
  part.idioms.flatten

/-- The texts of the lines of a section. -/
def texts (part : Section) : List AssemblyText :=
  Text.glyphs (part.name ++ ":") ::
    part.idioms.flatMap fun idiom => idiom.map Instruction.lineText ++ [[]]

/-- The line with the label of a section. -/
def label (part : Section) : Line :=
  ⟨[part.name], none⟩

/-- The lines behind the label of a section as they are read. -/
def body (part : Section) : List Line :=
  part.idioms.flatMap fun idiom => idiom.map Instruction.line ++ [Line.blank]

/-- The lines of a section as they are read. -/
def lines (part : Section) : List Line :=
  part.label :: part.body

theorem labels_lines (part : Section) : part.lines.flatMap Line.labels = [part.name] := by
  simp [lines, label, body, Instruction.line, Line.blank, List.flatMap_assoc, List.flatMap_append,
    List.flatMap_map]

theorem code_lines (part : Section) :
    part.lines.flatMap Line.code = part.instructions.flatMap fun instruction =>
      instruction.line.code := by
  have first : part.label.code = [] := rfl
  have blank : Line.blank.code = [] := rfl
  rw [instructions, List.flatten_eq_flatMap, List.flatMap_assoc]
  simp [lines, body, first, blank, List.flatMap_assoc, List.flatMap_append, List.flatMap_map]

theorem isFixed_lines {part : Section}
    (fixed : forall instruction, instruction ∈ part.instructions -> instruction.line.IsFixed) :
    forall line, line ∈ part.lines -> line.IsFixed := by
  intro line member
  rcases List.mem_cons.mp member with label | member
  · rw [label]
    exact Line.isFixed_of_encode (Line.encode_of_instruction?_eq_none rfl)
  · rcases List.mem_flatMap.mp member with ⟨idiom, inside, member⟩
    rcases List.mem_append.mp member with member | last
    · rcases List.mem_map.mp member with ⟨instruction, listed, rfl⟩
      exact fixed instruction (List.mem_flatten.mpr ⟨idiom, inside, listed⟩)
    · rw [List.mem_singleton.mp last]
      exact Line.isFixed_of_encode (Line.encode_of_instruction?_eq_none rfl)

theorem reads_lines {part : Section}
    (identifier : AssemblyText.isIdentifier (Text.glyphs part.name) = true)
    (readable : forall instruction, instruction ∈ part.instructions ->
      Line.Reads instruction.lineText instruction.line) :
    List.Forall₂ Line.Reads part.texts part.lines := by
  refine .cons (Line.reads_label identifier) (forall₂_flatMap ?_)
  intro idiom inside
  refine List.rel_append ?_ (.cons Line.reads_blank .nil)
  rw [List.forall₂_map_left_iff, List.forall₂_map_right_iff, List.forall₂_same]
  exact fun instruction member =>
    readable instruction (List.mem_flatten.mpr ⟨idiom, inside, member⟩)

theorem glyphs_idiom (idiom : Idiom) :
    Text.glyphs (idiom.render ++ "\n") =
      AssemblyText.ended (idiom.map Instruction.lineText ++ [[]]) := by
  have ends : (fun instruction : Instruction =>
      Text.glyphs ("    " ++ instruction.render ++ "\n")) =
      fun instruction => instruction.lineText ++ [.char '\n'] := by
    funext instruction
    rw [Text.glyphs_append]
    rfl
  rw [Text.glyphs_append, Idiom.render, Text.glyphs_join, AssemblyText.ended, List.flatMap_append,
    List.flatMap_map, List.flatMap_map, ends]
  rfl

theorem glyphs_render (part : Section) :
    Text.glyphs part.render = AssemblyText.ended part.texts := by
  have first :
      Text.glyphs (part.name ++ ":\n") = Text.glyphs (part.name ++ ":") ++ [.char '\n'] := by
    rw [Text.glyphs_append, Text.glyphs_append, List.append_assoc]
    rfl
  rw [render, Text.glyphs_append, first, Text.glyphs_join, List.flatMap_map, texts,
    AssemblyText.ended, List.flatMap_cons, List.flatMap_assoc]
  congr 2
  funext idiom
  exact glyphs_idiom idiom

end Section

namespace Program

/-- The sections of a program in the order in which they are written. -/
def sections (program : Program) : List Section :=
  program.data.toList ++ program.text

/-- The instructions of all sections of a program, in the order in which they are written. -/
def sectionInstructions (program : Program) : List Instruction :=
  program.sections.flatMap Section.instructions

theorem isWritable_iff {program : Program} :
    program.isWritable = true <-> forall instruction, instruction ∈ program.sectionInstructions ->
      instruction.isWritable = true := by
  have part (part : Section) : part.instructions.all Instruction.isWritable = part.isWritable :=
    List.all_flatten
  have data : program.data.toList.all Section.isWritable = program.data.all Section.isWritable := by
    cases program.data with
    | none => rfl
    | some given => exact Bool.and_true _
  rw [<- List.all_eq_true, sectionInstructions, List.all_flatMap, sections, List.all_append]
  simp only [part, data, isWritable]

/-- The texts of the lines of a program. -/
def texts (program : Program) : List AssemblyText :=
  (program.data.toList.flatMap fun part => Text.glyphs "section .data" :: part.texts) ++
    [Text.glyphs "section .text", Text.glyphs "global _start"] ++ program.text.flatMap Section.texts

/-- The line in front of the data section. -/
def dataDirective : Line :=
  ⟨[], some ⟨"SECTION", [Text.glyphs ".data"]⟩⟩

/-- The lines in front of the text sections. -/
def textDirectives : List Line :=
  [⟨[], some ⟨"SECTION", [Text.glyphs ".text"]⟩⟩, ⟨[], some ⟨"GLOBAL", [Text.glyphs "_start"]⟩⟩]

/-- The lines of a program as they are read. -/
def lines (program : Program) : List Line :=
  (program.data.toList.flatMap fun part => dataDirective :: part.lines) ++ textDirectives ++
    program.text.flatMap Section.lines

theorem reads_directives :
    Line.Reads (Text.glyphs "section .data") dataDirective ∧
      List.Forall₂ Line.Reads [Text.glyphs "section .text",
        Text.glyphs "global _start"] textDirectives := by
  refine ⟨⟨by decide, ?_⟩, .cons ⟨by decide, ?_⟩ (.cons ⟨by decide, ?_⟩ .nil)⟩ <;> cbv

/-- Directives have no instruction. -/
theorem instruction?_directives {line : Line} (member : line ∈ dataDirective :: textDirectives) :
    line.instruction? = none := by
  have silent : forall line, line ∈ dataDirective :: textDirectives ->
      line.instruction? = none := by
    decide +kernel
  exact silent line member

theorem code_directive {line : Line} (member : line ∈ dataDirective :: textDirectives) :
    line.code = [] :=
  Line.code_eq (Line.encode_of_instruction?_eq_none (instruction?_directives member))

theorem reads_lines {program : Program}
    (named : forall part, part ∈ program.sections ->
      AssemblyText.isIdentifier (Text.glyphs part.name) = true)
    (readable : forall instruction, instruction ∈ program.sectionInstructions ->
      Line.Reads instruction.lineText instruction.line) :
    List.Forall₂ Line.Reads program.texts program.lines := by
  have parts (part : Section) (member : part ∈ program.sections) :
      List.Forall₂ Line.Reads part.texts part.lines :=
    Section.reads_lines (named part member) fun instruction inside =>
      readable instruction (List.mem_flatMap.mpr ⟨part, member, inside⟩)
  rcases reads_directives with ⟨data, text⟩
  refine List.rel_append (List.rel_append (forall₂_flatMap ?_) text) (forall₂_flatMap ?_)
  · exact fun part member => .cons data (parts part (List.mem_append_left _ member))
  · exact fun part member => parts part (List.mem_append_right _ member)

theorem labels_lines (program : Program) :
    program.lines.flatMap Line.labels = program.sections.map Section.name := by
  simp [lines, sections, dataDirective, textDirectives, List.flatMap_append, List.flatMap_assoc,
    Section.labels_lines, List.map_eq_flatMap]

/-- A line of a program is a directive or belongs to a section. -/
theorem mem_lines {program : Program} {line : Line} (member : line ∈ program.lines) :
    line ∈ dataDirective :: textDirectives ∨
      exists part, part ∈ program.sections ∧ line ∈ part.lines := by
  rw [lines, List.mem_append, List.mem_append, List.mem_flatMap, List.mem_flatMap] at member
  rcases member with (⟨part, listed, member⟩ | directive) | ⟨part, listed, inside⟩
  · rcases List.mem_cons.mp member with same | inside
    · rw [same]
      exact Or.inl List.mem_cons_self
    · exact Or.inr ⟨part, List.mem_append_left _ listed, inside⟩
  · exact Or.inl (List.mem_cons_of_mem _ directive)
  · exact Or.inr ⟨part, List.mem_append_right _ listed, inside⟩

theorem isFixed_lines {program : Program}
    (fixed : forall instruction, instruction ∈ program.sectionInstructions ->
      instruction.line.IsFixed) :
    forall line, line ∈ program.lines -> line.IsFixed := by
  intro line member
  rcases mem_lines member with directive | ⟨part, listed, inside⟩
  · exact Line.isFixed_of_encode
      (Line.encode_of_instruction?_eq_none (instruction?_directives directive))
  · exact Section.isFixed_lines (fun instruction inside =>
      fixed instruction (List.mem_flatMap.mpr ⟨part, listed, inside⟩)) line inside

theorem code_parts (parts : List Section) :
    (parts.flatMap Section.lines).flatMap Line.code =
      (parts.flatMap Section.instructions).flatMap fun instruction => instruction.line.code := by
  rw [List.flatMap_assoc, List.flatMap_assoc]
  congr 1
  funext part
  exact part.code_lines

theorem code_textDirectives : textDirectives.flatMap Line.code = [] := by
  rw [List.flatMap_eq_nil_iff]
  exact fun line member => code_directive (List.mem_cons_of_mem _ member)

theorem code_lines (program : Program) :
    program.lines.flatMap Line.code =
      program.sectionInstructions.flatMap fun instruction => instruction.line.code := by
  have data : dataDirective.code = [] := code_directive List.mem_cons_self
  rw [sectionInstructions, <- code_parts]
  simp [lines, sections, List.flatMap_append, List.flatMap_assoc, code_textDirectives, data]

theorem glyphs_render (program : Program) :
    Text.glyphs program.render = AssemblyText.ended program.texts := by
  have parts : Text.glyphs (String.join (program.text.map Section.render)) =
      AssemblyText.ended (program.text.flatMap Section.texts) := by
    rw [Text.glyphs_join, List.flatMap_map, AssemblyText.ended, List.flatMap_assoc]
    congr 1
    funext part
    exact part.glyphs_render
  have opening :
      Text.glyphs "section .text\nglobal " ++ Text.glyphs entryPoint ++ Text.glyphs "\n" =
      AssemblyText.ended [Text.glyphs "section .text", Text.glyphs "global _start"] := by
    decide +kernel
  have whole (front : String) :
      Text.glyphs (front ++ "section .text\nglobal " ++ entryPoint ++ "\n" ++
        String.join (program.text.map Section.render)) =
      Text.glyphs front ++
        AssemblyText.ended ([Text.glyphs "section .text", Text.glyphs "global _start"] ++
          program.text.flatMap Section.texts) := by
    rw [Text.glyphs_append, Text.glyphs_append, Text.glyphs_append, Text.glyphs_append, parts,
      AssemblyText.ended_append, <- opening]
    simp only [List.append_assoc]
  rcases program with ⟨none | part, text⟩
  · rw [render, whole, texts, List.append_assoc, AssemblyText.ended_append]
    rfl
  · have first : Text.glyphs ("section .data\n" ++ part.render) =
        AssemblyText.ended (Text.glyphs "section .data" :: part.texts) := by
      rw [Text.glyphs_append, part.glyphs_render]
      rfl
    rw [render, whole, first, texts, List.append_assoc, Option.toList_some, List.flatMap_singleton,
      AssemblyText.ended_append (_ :: part.texts)]

/-- The label of a section stands behind the code of the sections in front of it. -/
theorem mem_placed_lines {program : Program} {before behind : List Section} {part : Section}
    (split : program.sections = before ++ part :: behind) :
    (part.name, UInt32.ofNat ((before.flatMap Section.instructions).flatMap fun instruction =>
      instruction.line.code).length) ∈ Assembly.placed 0 program.lines := by
  have around : exists front back, program.lines = front ++ part.label :: back ∧
      front.flatMap Line.code = (before.flatMap Section.lines).flatMap Line.code := by
    have data : dataDirective.code = [] := code_directive List.mem_cons_self
    rcases program with ⟨none | first, text⟩
    · change text = before ++ part :: behind at split
      refine ⟨textDirectives ++ before.flatMap Section.lines,
        part.body ++ behind.flatMap Section.lines, ?_, ?_⟩
      · simp [lines, split, Section.lines]
      · rw [List.flatMap_append, code_textDirectives, List.nil_append]
    · change first :: text = before ++ part :: behind at split
      rcases before with _ | ⟨other, before⟩
      · rw [List.nil_append, List.cons.injEq] at split
        refine ⟨[dataDirective], part.body ++ (textDirectives ++ text.flatMap Section.lines), ?_,
          ?_⟩
        · simp [lines, split.1, Section.lines]
        · simp [data]
      · rw [List.cons_append, List.cons.injEq] at split
        refine ⟨dataDirective :: other.lines ++ textDirectives ++ before.flatMap Section.lines,
          part.body ++ behind.flatMap Section.lines, ?_, ?_⟩
        · simp [lines, split.1, split.2, Section.lines]
        · simp [data, code_textDirectives, List.flatMap_append]
  rcases around with ⟨front, back, lines, code⟩
  have listed : part.name ∈ part.label.labels := List.mem_cons_self
  have member := Assembly.mem_placed 0 front back listed
  rw [<- lines, code, UInt32.zero_add, code_parts] at member
  exact member

/-- A written program is assembled to the code of its instructions, with each label in front of its
section. -/
theorem ofText_eq {program : Program} (distinct : (program.sections.map Section.name).Nodup)
    (named : forall part, part ∈ program.sections ->
      AssemblyText.isIdentifier (Text.glyphs part.name) = true)
    (readable : forall instruction, instruction ∈ program.sectionInstructions ->
      Line.Reads instruction.lineText instruction.line)
    (fixed : forall instruction, instruction ∈ program.sectionInstructions ->
      instruction.line.IsFixed) :
    exists sourceMap, Assembly.ofText (Text.glyphs program.render) =
      .ok ⟨program.sectionInstructions.flatMap fun instruction => instruction.line.code, sourceMap,
        Assembly.placed 0 program.lines⟩ := by
  rw [glyphs_render, <- code_lines]
  apply Assembly.ofText_ended (reads_lines named readable) (isFixed_lines fixed)
  rw [labels_lines]
  exact distinct

/-! ## Programs with a single section -/

theorem placed_ofIdioms (idioms : List Idiom) :
    Assembly.placed 0 (ofIdioms idioms).lines = [(entryPoint, 0)] := by
  have split : (ofIdioms idioms).sections = [] ++ ⟨entryPoint, idioms⟩ :: [] := rfl
  have entry := mem_placed_lines split
  have names := Assembly.map_fst_placed 0 (ofIdioms idioms).lines
  rw [labels_lines] at names
  rcases List.map_eq_singleton_iff.mp names with ⟨only, isOnly, _⟩
  rw [isOnly, List.mem_singleton] at entry
  rw [isOnly, <- entry]
  rfl

/-- The lines of instructions that are assembled to operations. -/
theorem lines_of_assembles {instructions : List Instruction} {operations : List Operation}
    (assembles : List.Forall₂ Instruction.Assembles instructions operations) :
    (forall instruction, instruction ∈ instructions ->
      Line.Reads instruction.lineText instruction.line ∧ instruction.line.IsFixed) ∧
      (instructions.flatMap fun instruction => instruction.line.code) =
        operations.flatMap Operation.encode := by
  induction assembles with
  | nil => exact ⟨fun _ member => absurd member List.not_mem_nil, rfl⟩
  | cons first rest ih =>
      refine ⟨?_, ?_⟩
      · intro other member
        rcases List.mem_cons.mp member with same | member
        · rw [same]
          exact ⟨⟨first.single, first.parsed⟩, Line.isFixed_of_encode first.encode_line⟩
        · exact ih.1 other member
      · rw [List.flatMap_cons, List.flatMap_cons, ih.2, Line.code_eq first.encode_line]

/-- A program of idioms is assembled to the code of their operations, with the entry point at its
beginning. -/
theorem ofText_render {idioms : List Idiom} {blocks : List (List Operation)}
    (assembles : List.Forall₂ (List.Forall₂ Instruction.Assembles) idioms blocks) :
    exists sourceMap, Assembly.ofText (Text.glyphs (ofIdioms idioms).render) =
      .ok ⟨blocks.flatten.flatMap Operation.encode, sourceMap, [(entryPoint, 0)]⟩ := by
  have single : (ofIdioms idioms).sectionInstructions = idioms.flatten := List.append_nil _
  have joined := List.rel_flatten assembles
  rw [<- single] at joined
  rcases lines_of_assembles joined with ⟨lines, code⟩
  rw [<- code, <- placed_ofIdioms idioms]
  apply ofText_eq
  · exact List.nodup_singleton _
  · have identifier : AssemblyText.isIdentifier (Text.glyphs entryPoint) = true := by decide +kernel
    intro part member
    rw [List.mem_singleton.mp member]
    exact identifier
  · exact fun instruction member => (lines instruction member).1
  · exact fun instruction member => (lines instruction member).2

end Program

end LoxNative
