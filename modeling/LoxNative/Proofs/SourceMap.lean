import Mathlib
import LoxNative.Proofs.LabelPlacement
import LoxNative.Proofs.Step

namespace LoxNative

/-!
# Which line the code came from

The second pass notes for every instruction the line it stands on, under the offset of its first
byte.  The notes are kept by offset, so an instruction without any code would lose its note to the
next one, and past 2^32 bytes an offset would come round again.  Neither happens: every operation
has at least one byte, and so each new offset lies above all those before it.

What the pass adds for some lines is followed as a relation, with one case for a line with an
instruction and one for a line without.  Lines without an instruction are told from their text: they
hold labels at most, or a directive.
-/

/-! ## Lines without an instruction -/

theorem Text.intercalate_pieces {Symbol : Type} [DecidableEq Symbol] (separator : Symbol)
    (text : List Symbol) :
    List.intercalate [separator] (Text.pieces separator text) = text := by
  induction text with
  | nil => rfl
  | cons symbol text ih =>
      rcases List.exists_cons_of_ne_nil (pieces_ne_nil separator text) with ⟨piece, rest, behind⟩
      rw [behind] at ih
      by_cases same : symbol = separator
      · rw [same, pieces_cons_same, behind, List.intercalate_cons_cons, ih]
        rfl
      · rw [pieces_cons_other separator same text behind]
        cases rest with
        | nil =>
            rw [List.intercalate_singleton] at ih ⊢
            rw [ih]
        | cons next rest =>
            rw [List.intercalate_cons_cons] at ih ⊢
            rw [List.cons_append, List.cons_append, ih]

namespace AssemblyText

/-- A text that holds labels at most: blanks, or an identifier and a colon in front of such a
text. -/
inductive IsBare : AssemblyText -> Prop
  | blanks {text : AssemblyText} (blank : forall glyph, glyph ∈ text -> isBlank glyph = true) :
      IsBare text
  | label {name rest : AssemblyText} (identifier : isIdentifier (trim name) = true)
      (further : IsBare rest) : IsBare (name ++ .char ':' :: rest)

theorem trim_eq_nil_iff {text : AssemblyText} :
    trim text = [] <-> forall glyph, glyph ∈ text -> isBlank glyph = true := by
  rw [trim, List.reverse_eq_nil_iff, List.dropWhile_eq_nil_iff]
  constructor
  · intro blank glyph member
    rw [<- List.takeWhile_append_dropWhile (p := isBlank) (l := text)] at member
    rcases List.mem_append.mp member with front | behind
    · exact List.mem_takeWhile_imp front
    · exact blank glyph (List.mem_reverse.mpr behind)
  · intro blank glyph member
    exact blank glyph ((List.dropWhile_sublist isBlank).mem (List.mem_reverse.mp member))

/-- A glyph that is not blank is not trimmed away. -/
theorem mem_trim {text : AssemblyText} {glyph : Text.Glyph} (member : glyph ∈ text)
    (visible : isBlank glyph = false) : glyph ∈ trim text := by
  have kept {glyphs : AssemblyText} (inside : glyph ∈ glyphs) :
      glyph ∈ glyphs.dropWhile isBlank := by
    rw [<- List.takeWhile_append_dropWhile (p := isBlank) (l := glyphs)] at inside
    rcases List.mem_append.mp inside with front | behind
    · rw [List.mem_takeWhile_imp front] at visible
      cases visible
    · exact behind
  rw [trim, List.mem_reverse]
  exact kept (List.mem_reverse.mpr (kept member))

end AssemblyText

namespace Line

open AssemblyText

theorem statementOf_eq_none_iff {text : AssemblyText} :
    statementOf text = none <-> forall glyph, glyph ∈ text -> isBlank glyph = true := by
  rw [<- trim_eq_nil_iff, statementOf]
  cases trim text with
  | nil => exact ⟨fun _ => rfl, fun _ => rfl⟩
  | cons first rest => exact ⟨nofun, nofun⟩

theorem isBare_of_ofPieces {pieces : List AssemblyText} {line : Line}
    (read : ofPieces pieces = .ok line)
    (empty : line.statement = none) : IsBare (List.intercalate [.char ':'] pieces) := by
  induction pieces generalizing line with
  | nil => exact .blanks fun _ member => absurd member List.not_mem_nil
  | cons piece rest ih =>
      cases rest with
      | nil =>
          cases read
          rw [List.intercalate_singleton]
          exact .blanks (statementOf_eq_none_iff.mp empty)
      | cons next rest =>
          rw [ofPieces] at read
          · split at read
            · cases read
              have colon :
                  Text.Glyph.char ':' ∈ List.intercalate [.char ':'] (piece :: next :: rest) := by
                rw [List.intercalate_cons_cons]
                exact List.mem_append_left _ (List.mem_append_right _ List.mem_cons_self)
              exact absurd (statementOf_eq_none_iff.mp empty _ colon) (by decide)
            · split at read
              · rename_i identifier
                rcases exists_of_bind_eq_ok read with ⟨inner, innerRead, same⟩
                cases same
                rw [List.intercalate_cons_cons, List.append_assoc]
                exact .label identifier (ih innerRead empty)
              · cases read
          · exact fun none => List.cons_ne_nil _ _ none

theorem ofPieces_of_isBare {text : AssemblyText} (bare : IsBare text) :
    exists labels, ofPieces (AssemblyText.pieces ':' text) = .ok ⟨labels, none⟩ := by
  induction bare with
  | @blanks text blank =>
      have absent : Text.Glyph.char ':' ∉ text := by
        intro member
        exact absurd (blank _ member) (by decide)
      refine ⟨[], ?_⟩
      rw [AssemblyText.pieces, Text.pieces_of_not_mem _ absent, ofPieces,
        statementOf_eq_none_iff.mpr blank]
  | @label name rest identifier further ih =>
      rcases ih with ⟨labels, read⟩
      have absent : Text.Glyph.char ':' ∉ name := by
        intro member
        exact not_mem_of_isIdentifier identifier (by decide) (mem_trim member (by decide))
      have cut : AssemblyText.pieces ':' (name ++ .char ':' :: rest) =
          name :: AssemblyText.pieces ':' rest := by
        rw [AssemblyText.pieces, Text.pieces_append, Text.pieces_of_not_mem _ absent]
        rfl
      refine ⟨Text.shown (trim name) :: labels, ?_⟩
      rw [cut, ofPieces,
        if_neg (by rw [refusesLabel_of_isIdentifier identifier]; exact Bool.false_ne_true),
        if_pos identifier, read]
      · rfl
      · exact Text.pieces_ne_nil _ _

/-- A line has no statement exactly if it is blank, a comment, or holds only labels. -/
theorem statement_eq_none_iff {raw : AssemblyText} {line : Line} (read : parse raw = .ok line) :
    line.statement = none <-> IsBare (withoutComment raw) := by
  constructor
  · intro empty
    have bare := isBare_of_ofPieces read empty
    rw [AssemblyText.pieces, Text.intercalate_pieces] at bare
    exact bare
  · intro bare
    rcases ofPieces_of_isBare bare with ⟨labels, found⟩
    cases found.symm.trans read
    rfl

/-- A line that holds a directive. -/
def IsDirective (raw : AssemblyText) : Prop :=
  exists line statement, parse raw = .ok line ∧ line.statement = some statement ∧
    statement.isDirective = true

/-- A line that holds an instruction: a statement that is not a directive. -/
structure Instructs (raw : AssemblyText) (statement : Statement) : Prop where
  read : exists labels, parse raw = .ok ⟨labels, some statement⟩
  executable : statement.isDirective = false

theorem instructs_iff {raw : AssemblyText} {statement : Statement} :
    Instructs raw statement <-> exists line, parse raw = .ok line ∧
    line.instruction? = some statement := by
  constructor
  · rintro ⟨⟨labels, read⟩, executable⟩
    refine ⟨_, read, ?_⟩
    rw [instruction?, Option.filter_eq_some_iff, executable]
    exact ⟨rfl, rfl⟩
  · rintro ⟨⟨labels, found⟩, read, instruction⟩
    rw [instruction?, Option.filter_eq_some_iff, Bool.not_eq_true'] at instruction
    rcases instruction with ⟨rfl, executable⟩
    exact ⟨⟨labels, read⟩, executable⟩

/-- A line that can be read holds an instruction unless it is blank, a comment, only labels or a
directive. -/
theorem exists_instructs_iff {raw : AssemblyText} {line : Line} (read : parse raw = .ok line) :
    (exists statement, Instructs raw statement) <-> ¬ IsBare (withoutComment raw) ∧
    ¬ IsDirective raw := by
  rw [<- statement_eq_none_iff read]
  constructor
  · rintro ⟨statement, ⟨labels, same⟩, executable⟩
    cases same.symm.trans read
    refine ⟨nofun, ?_⟩
    rintro ⟨other, directive, again, found, isDirective⟩
    cases same.symm.trans again
    cases found
    rw [executable] at isDirective
    cases isDirective
  · rintro ⟨some, other⟩
    rcases Option.ne_none_iff_exists'.mp some with ⟨statement, found⟩
    refine ⟨statement, ⟨line.labels, ?_⟩, Bool.eq_false_of_not_eq_true fun isDirective => ?_⟩
    · rw [read, <- found]
    · exact other ⟨line, statement, read, found, isDirective⟩

theorem getElem?_numbered (text : AssemblyText) (index : Nat) :
    (numbered text)[index]? = (AssemblyText.pieces '\n' text)[index]?.map fun raw =>
      (index + 1, (parse raw).mapError (AssemblyError.mk (index + 1))) := by
  rw [numbered, List.getElem?_map, List.getElem?_zipIdx, Option.map_map, Nat.add_comm 1 index]
  rfl

theorem getElem?_numbered_eq_ok_iff {text : AssemblyText} {index number : Nat} {line : Line} :
    (numbered text)[index]? = some (number, .ok line) <-> number = index + 1 ∧
      exists raw, (AssemblyText.pieces '\n' text)[index]? = some raw ∧ parse raw = .ok line := by
  rw [getElem?_numbered, Option.map_eq_some_iff]
  constructor
  · rintro ⟨raw, stands, same⟩
    cases read : parse raw with
    | error fault =>
        rw [read] at same
        cases same
    | ok found =>
        rw [read] at same
        cases same
        exact ⟨rfl, raw, stands, read⟩
  · rintro ⟨rfl, raw, stands, read⟩
    exact ⟨raw, stands, by rw [read]; rfl⟩

/-- Lines are numbered upwards. -/
theorem pairwise_numbered (text : AssemblyText) :
    (numbered text).Pairwise fun first second => first.1 < second.1 := by
  rw [List.pairwise_iff_getElem]
  intro first second firstInside secondInside before
  have number {index : Nat} (inside : index < (numbered text).length) :
      (numbered text)[index].1 = index + 1 := by
    have found := getElem?_numbered text index
    rw [List.getElem?_eq_getElem inside] at found
    rcases Option.map_eq_some_iff.mp found.symm with ⟨raw, -, same⟩
    rw [<- same]
  rw [number firstInside, number secondInside]
  exact Nat.succ_lt_succ before

end Line

/-! ## Notes in order -/

/-- A note under an offset above all others comes last. -/
theorem SourceMap.toList_insert {sourceMap : SourceMap} (key : UInt32) (number : Nat)
    (above : forall entry, entry ∈ sourceMap.toList -> entry.1 < key) :
    (sourceMap.insert key number).toList = sourceMap.toList ++ [(key, number)] := by
  have ordered (noted : SourceMap) : noted.toList.Pairwise fun first second => first.1 < second.1 :=
    Std.TreeMap.ordered_keys_toList.imp fun less => Std.compare_eq_lt.mp less
  have others :
      sourceMap.toList.filter (fun entry => decide ¬ (key == entry.1) = true) =
        sourceMap.toList := by
    rw [List.filter_eq_self]
    intro entry member
    have different := UInt32.ne_of_lt (above entry member)
    rw [decide_eq_true_eq, beq_iff_eq]
    exact different.symm
  have listed :
      (sourceMap.insert key number).toList.Perm (sourceMap.toList ++ [(key, number)]) := by
    refine Std.TreeMap.toList_insert_perm.trans ?_
    rw [others]
    exact (List.perm_append_singleton _ _).symm
  refine List.Perm.eq_of_pairwise ?_ (ordered _) ?_ listed
  · intro first second _ _ less greater
    exact absurd (UInt32.lt_trans less greater) (UInt32.lt_irrefl _)
  · rw [List.pairwise_append]
    refine ⟨ordered sourceMap, List.pairwise_singleton _ _, ?_⟩
    intro first member second last
    rw [List.mem_singleton.mp last]
    exact above first member

namespace Assembly

/-! ## What the second pass adds -/

/-- What the second pass adds for some lines, when the code in front of them has so many bytes: more
code, and more notes. -/
inductive Adds (labels : LabelTable) : Nat -> Lines -> List UInt8 -> List (UInt32 × Nat) -> Prop
  | done (offset : Nat) : Adds labels offset [] [] []
  | silent {offset : Nat} {line : Line} {rest : Lines} {code : List UInt8}
      {notes : List (UInt32 × Nat)}
      (number : Nat) (silent : line.instruction? = none)
      (further : Adds labels offset rest code notes) :
      Adds labels offset ((number, .ok line) :: rest) code notes
  | instruction {offset : Nat} {line : Line} {statement : Statement} {rest : Lines}
      {bytes code : List UInt8}
      {notes : List (UInt32 × Nat)} (number : Nat) (found : line.instruction? = some statement)
      (encoded : statement.encode labels .emitting = .ok bytes)
      (further : Adds labels (offset + bytes.length) rest code notes) :
      Adds labels offset ((number, .ok line) :: rest) (bytes ++ code)
        ((UInt32.ofNat offset, number) :: notes)

theorem size_append (front : Array UInt8) (bytes : List UInt8) :
    (front ++ bytes).size = front.size + bytes.length := by
  rw [<- Array.length_toList, Array.toList_appendList, List.length_append, Array.length_toList]

theorem append_append (front : Array UInt8) (bytes code : List UInt8) :
    front ++ bytes ++ code = front ++ (bytes ++ code) := by
  apply Array.toList_inj.mp
  rw [Array.toList_appendList, Array.toList_appendList, Array.toList_appendList, List.append_assoc]

/-- No instruction is without code. -/
theorem length_pos_of_encode {statement : Statement} {labels : LabelTable} {pass : Pass}
    {bytes : List UInt8}
    (encoded : statement.encode labels pass = .ok bytes) : 0 < bytes.length := by
  rcases exists_of_bind_eq_ok encoded with ⟨operands, -, selects⟩
  rcases exists_of_bind_eq_ok selects with ⟨operation, -, same⟩
  cases same
  exact Machine.encode_length_pos operation

/-- What is emitted is added.  The induction is over the lines. -/
theorem adds_of_emit {labels : LabelTable} {lines : Lines} {front out : Array UInt8}
    {sourceMap noted : SourceMap} (emitted : emit labels lines front sourceMap = .ok (out, noted)) :
    exists code notes, Adds labels front.size lines code notes := by
  induction lines generalizing front sourceMap with
  | nil => exact ⟨[], [], .done _⟩
  | cons entry rest ih =>
      rcases entry with ⟨number, error | line⟩
      · cases emitted
      · rw [emit] at emitted
        split at emitted
        · rename_i silent
          rcases ih emitted with ⟨code, notes, adds⟩
          exact ⟨code, notes, .silent number silent adds⟩
        · rename_i statement found
          split at emitted
          · cases emitted
          · rename_i bytes encoded
            rcases ih emitted with ⟨code, notes, adds⟩
            rw [size_append] at adds
            exact ⟨_, _, .instruction number found encoded adds⟩

/-- What is added is emitted.  That all notes so far lie below the end of the code puts the next one
behind them, and the code of its instruction keeps it so. -/
theorem emit_of_adds {labels : LabelTable} {lines : Lines} {offset : Nat} {code : List UInt8}
    {notes : List (UInt32 × Nat)} (adds : Adds labels offset lines code notes) {front : Array UInt8}
    (isOffset : front.size = offset) (sourceMap : SourceMap) :
    exists noted, emit labels lines front sourceMap = .ok (front ++ code, noted) ∧
      (offset + code.length < 2 ^ 32 ->
        (forall entry, entry ∈ sourceMap.toList -> entry.1.toNat < offset) ->
          noted.toList = sourceMap.toList ++ notes) := by
  induction adds generalizing front sourceMap with
  | done => exact ⟨sourceMap, by simp [emit], fun _ _ => (List.append_nil _).symm⟩
  | silent number silent further ih =>
      simp only [emit, silent]
      exact ih isOffset sourceMap
  | @instruction offset line statement rest bytes code notes number found encoded further ih =>
      have further : (front ++ bytes).size = offset + bytes.length := by rw [size_append, isOffset]
      rcases ih further (sourceMap.insert (UInt32.ofNat offset) number) with
        ⟨noted, emitted, ordered⟩
      refine ⟨noted, ?_, ?_⟩
      · simp only [emit, found, encoded, isOffset]
        rw [emitted, append_append]
      · intro small below
        -- Without a byte of its own, the instruction would share its offset with the next one.
        have positive := length_pos_of_encode encoded
        rw [List.length_append] at small
        have key : (UInt32.ofNat offset).toNat = offset :=
          UInt32.toNat_ofNat_of_lt' (by change _ < 2 ^ 32; omega)
        have inserted := SourceMap.toList_insert (UInt32.ofNat offset) number fun entry member =>
          UInt32.lt_iff_toNat_lt.mpr (by rw [key]; exact below entry member)
        rw [ordered (by omega), inserted, List.append_assoc, List.singleton_append]
        intro entry member
        rw [inserted, List.mem_append, List.mem_singleton] at member
        rcases member with earlier | last
        · exact Nat.lt_add_right _ (below entry earlier)
        · rw [last, key]
          exact Nat.lt_add_of_pos_right positive

theorem emit_of_ofText {text : AssemblyText} {assembly : Assembly}
    (assembled : ofText text = .ok assembly) :
    emit assembly.labels (Line.numbered text) #[] ∅ =
      .ok (assembly.code.toArray, assembly.sourceMap) := by
  cases surveyed : survey (Line.numbered text) 0 [] with
  | mk labels error? =>
      cases error? with
      | some error =>
          rw [ofText, run, surveyed] at assembled
          cases assembled
      | none =>
          rw [ofText_eq surveyed] at assembled
          cases emitted : emit labels (Line.numbered text) #[] ∅ with
          | error error =>
              rw [emitted] at assembled
              cases assembled
          | ok result =>
              rw [emitted] at assembled
              cases assembled
              exact emitted

/-- A text is assembled to what the second pass adds for its lines.  The notes of the source map in
the order of their offsets are those of the pass in the order of the lines. -/
theorem adds_of_ofText {text : AssemblyText} {assembly : Assembly}
    (assembled : ofText text = .ok assembly) (small : assembly.code.length < 2 ^ 32) :
    Adds assembly.labels 0 (Line.numbered text) assembly.code assembly.sourceMap.toList := by
  have emitted := emit_of_ofText assembled
  rcases adds_of_emit emitted with ⟨code, notes, adds⟩
  rcases emit_of_adds adds rfl ∅ with ⟨noted, same, ordered⟩
  have results := Except.ok.inj (emitted.symm.trans same)
  have isCode : assembly.code = code := by
    have lists := congrArg (Array.toList ∘ Prod.fst) results
    rw [Function.comp_apply, Function.comp_apply, Array.toList_appendList] at lists
    exact lists
  have isNotes : assembly.sourceMap.toList = notes := by
    have isMap : assembly.sourceMap = noted := congrArg Prod.snd results
    have fits : (#[] : Array UInt8).size + code.length < 2 ^ 32 := by
      rw [<- isCode, Array.size_empty, Nat.zero_add]
      exact small
    have none : (∅ : SourceMap).toList = [] := rfl
    rw [isMap, ordered fits (by rw [none]; exact fun _ member => absurd member List.not_mem_nil),
      none, List.nil_append]
  rw [isCode, isNotes]
  exact adds

/-! ## Lines, notes and code -/

section Added

variable {labels : LabelTable} {offset : Nat} {lines : Lines} {code : List UInt8}
  {notes : List (UInt32 × Nat)}

theorem Adds.exists_ok (adds : Adds labels offset lines code notes)
    {entry : Nat × Except AssemblyError Line}
    (member : entry ∈ lines) : exists line, entry.2 = .ok line := by
  induction adds with
  | done => exact absurd member List.not_mem_nil
  | silent number silent further ih =>
      rcases List.mem_cons.mp member with same | behind
      · exact ⟨_, congrArg Prod.snd same⟩
      · exact ih behind
  | instruction number found encoded further ih =>
      rcases List.mem_cons.mp member with same | behind
      · exact ⟨_, congrArg Prod.snd same⟩
      · exact ih behind

/-- A note carries the number of a line with an instruction. -/
theorem Adds.exists_line (adds : Adds labels offset lines code notes) {note : UInt32 × Nat}
    (noted : note ∈ notes) :
    exists line statement, (note.2, .ok line) ∈ lines ∧ line.instruction? = some statement := by
  induction adds with
  | done => exact absurd noted List.not_mem_nil
  | silent number silent further ih =>
      rcases ih noted with ⟨line, statement, member, found⟩
      exact ⟨line, statement, List.mem_cons_of_mem _ member, found⟩
  | instruction number found encoded further ih =>
      rcases List.mem_cons.mp noted with same | later
      · rw [same]
        exact ⟨_, _, List.mem_cons_self, found⟩
      · rcases ih later with ⟨line, statement, member, found⟩
        exact ⟨line, statement, List.mem_cons_of_mem _ member, found⟩

/-- A note stands under an offset in the code that was added. -/
theorem Adds.key_bounds (adds : Adds labels offset lines code notes)
    (small : offset + code.length < 2 ^ 32) {note : UInt32 × Nat} (noted : note ∈ notes) :
    offset ≤ note.1.toNat ∧ note.1.toNat < offset + code.length := by
  induction adds with
  | done => exact absurd noted List.not_mem_nil
  | silent number silent further ih => exact ih small noted
  | instruction number found encoded further ih =>
      have positive := length_pos_of_encode encoded
      rw [List.length_append] at small ⊢
      rcases List.mem_cons.mp noted with same | later
      · rw [same, UInt32.toNat_ofNat_of_lt' (by change _ < 2 ^ 32; omega)]
        omega
      · have bounds := ih (by omega) later
        omega

/-- Notes under larger offsets carry larger numbers, when the lines are numbered upwards. -/
theorem Adds.pairwise (adds : Adds labels offset lines code notes)
    (small : offset + code.length < 2 ^ 32)
    (upwards : lines.Pairwise fun first second => first.1 < second.1) :
    notes.Pairwise fun first second => first.1 < second.1 ∧ first.2 < second.2 := by
  induction adds with
  | done => exact .nil
  | silent number silent further ih => exact ih small (List.pairwise_cons.mp upwards).2
  | instruction number found encoded further ih =>
      have positive := length_pos_of_encode encoded
      rcases List.pairwise_cons.mp upwards with ⟨first, rest⟩
      rw [List.length_append] at small
      refine List.pairwise_cons.mpr ⟨fun note later => ⟨?_, ?_⟩, ih (by omega) rest⟩
      · have bounds := further.key_bounds (by omega) later
        rw [UInt32.lt_iff_toNat_lt, UInt32.toNat_ofNat_of_lt' (by change _ < 2 ^ 32; omega)]
        omega
      · rcases further.exists_line later with ⟨line, statement, member, -⟩
        exact first _ member

/-- Where the code behind some notes begins: under the first of them, or at the end of the code. -/
def nextOffset (ending : Nat) : List (UInt32 × Nat) -> Nat
  | [] => ending
  | (next, _) :: _ => next.toNat

theorem Adds.nextOffset_eq (adds : Adds labels offset lines code notes)
    (small : offset + code.length < 2 ^ 32) :
    nextOffset (offset + code.length) notes = offset := by
  induction adds with
  | done => rfl
  | silent number silent further ih => exact ih small
  | instruction number found encoded further ih =>
      exact UInt32.toNat_ofNat_of_lt' (Nat.lt_of_le_of_lt (Nat.le_add_right _ _) small)

theorem adds_append {before behind : Lines}
    (adds : Adds labels offset (before ++ behind) code notes) :
    exists front back earlier later, Adds labels offset before front earlier ∧
      Adds labels (offset + front.length) behind back later ∧ code = front ++ back ∧
      notes = earlier ++ later := by
  induction before generalizing offset code notes with
  | nil => exact ⟨[], code, [], notes, .done offset, adds, rfl, rfl⟩
  | cons entry rest ih =>
      cases adds with
      | silent number silent further =>
          rcases ih further with ⟨front, back, earlier, later, first, second, isCode, isNotes⟩
          exact ⟨front, back, earlier, later, .silent number silent first, second, isCode, isNotes⟩
      | @instruction _ _ _ _ bytes _ _ number found encoded further =>
          rcases ih further with ⟨front, back, earlier, later, first, second, rfl, rfl⟩
          refine ⟨bytes ++ front, back, _, later, .instruction number found encoded first, ?_,
            (List.append_assoc _ _ _).symm, rfl⟩
          rw [List.length_append, <- Nat.add_assoc]
          exact second

/-- The second pass at a line with an instruction: its code stands between that of the lines in
front and that of the lines behind, and so does its note. -/
theorem Adds.split {before behind : Lines} {number : Nat} {line : Line} {statement : Statement}
    (adds : Adds labels offset (before ++ (number, .ok line) :: behind) code notes)
    (found : line.instruction? = some statement) :
    exists front bytes back earlier later, Adds labels offset before front earlier ∧
      statement.encode labels .emitting = .ok bytes ∧
      Adds labels (offset + front.length + bytes.length) behind back later ∧
      code = front ++ (bytes ++ back) ∧
      notes = earlier ++ (UInt32.ofNat (offset + front.length), number) :: later := by
  rcases adds_append adds with ⟨front, rest, earlier, others, first, second, rfl, rfl⟩
  cases second with
  | silent _ silent _ => cases silent.symm.trans found
  | instruction _ same encoded further =>
      cases same.symm.trans found
      exact ⟨front, _, _, earlier, _, first, encoded, further, rfl, rfl⟩

end Added

/-- Notes with different numbers are split in one way only at a number. -/
theorem split_unique {before after earlier later : List (UInt32 × Nat)} {key other : UInt32}
    {number : Nat} (same : before ++ (key, number) :: after = earlier ++ (other, number) :: later)
    (upwards : (before ++ (key, number) :: after).Pairwise fun first second => first.2 < second.2) :
    key = other ∧ before = earlier ∧ after = later := by
  have front : forall note, note ∈ before -> note.2 < number := by
    intro note member
    exact (List.pairwise_append.mp upwards).2.2 note member _ List.mem_cons_self
  have back : forall note, note ∈ after -> number < note.2 :=
    (List.pairwise_cons.mp (List.pairwise_append.mp upwards).2.1).1
  have notBefore : (other, number) ∉ before := fun member => Nat.lt_irrefl _ (front _ member)
  have notAfter : (other, number) ∉ after := fun member => Nat.lt_irrefl _ (back _ member)
  rcases (List.append_cons_inj_of_notMem notBefore notAfter).mp same with
    ⟨isBefore, isNote, isAfter⟩
  exact ⟨congrArg Prod.fst isNote, isBefore, isAfter⟩

section Texts

variable {text : AssemblyText} {labels : LabelTable} {code : List UInt8}
  {notes : List (UInt32 × Nat)}
variable (adds : Adds labels 0 (Line.numbered text) code notes)

include adds

theorem Adds.exists_read {index : Nat} {raw : AssemblyText}
    (stands : (AssemblyText.pieces '\n' text)[index]? = some raw) :
    exists line, Line.parse raw = .ok line := by
  have listed := Line.getElem?_numbered text index
  rw [stands, Option.map_some] at listed
  rcases adds.exists_ok (List.mem_of_getElem? listed) with ⟨line, isLine⟩
  dsimp only at isLine
  rw [isLine] at listed
  rcases Line.getElem?_numbered_eq_ok_iff.mp listed with ⟨-, other, otherStands, read⟩
  cases stands.symm.trans otherStands
  exact ⟨line, read⟩

/-- A note carries the number of a line that holds an instruction. -/
theorem Adds.exists_instructs {key : UInt32} {number : Nat} (noted : (key, number) ∈ notes) :
    exists index raw statement, number = index + 1 ∧
      (AssemblyText.pieces '\n' text)[index]? = some raw ∧ Line.Instructs raw statement := by
  rcases adds.exists_line noted with ⟨line, statement, member, found⟩
  rcases List.mem_iff_getElem?.mp member with ⟨index, listed⟩
  rcases Line.getElem?_numbered_eq_ok_iff.mp listed with ⟨isNumber, raw, stands, read⟩
  exact ⟨index, raw, statement, isNumber, stands, Line.instructs_iff.mpr ⟨line, read, found⟩⟩

/-- The note and the code of a line that holds an instruction. -/
theorem Adds.noted_at {index : Nat} {raw : AssemblyText} {statement : Statement}
    (stands : (AssemblyText.pieces '\n' text)[index]? = some raw)
    (instructs : Line.Instructs raw statement) :
    exists front bytes back earlier later,
      Adds labels 0 ((Line.numbered text).take index) front earlier ∧
      statement.encode labels .emitting = .ok bytes ∧ code = front ++ (bytes ++ back) ∧
      notes = earlier ++ (UInt32.ofNat front.length, index + 1) :: later ∧
      (code.length < 2 ^ 32 -> nextOffset code.length later = front.length + bytes.length) := by
  rcases Line.instructs_iff.mp instructs with ⟨line, read, found⟩
  have listed := Line.getElem?_numbered_eq_ok_iff.mpr ⟨rfl, raw, stands, read⟩
  rcases List.getElem?_eq_some_iff.mp listed with ⟨inside, isLine⟩
  rw [<- List.take_append_drop index (Line.numbered text), List.drop_eq_getElem_cons inside, isLine]
    at adds
  rcases adds.split found with
    ⟨front, bytes, back, earlier, later, first, encoded, further, isCode, isNotes⟩
  rw [Nat.zero_add] at further isNotes
  refine ⟨front, bytes, back, earlier, later, first, encoded, isCode, isNotes, fun small => ?_⟩
  have ending : code.length = front.length + bytes.length + back.length := by
    rw [isCode, List.length_append, List.length_append, Nat.add_assoc]
  rw [ending] at small ⊢
  exact further.nextOffset_eq small

theorem Adds.noted_iff {index : Nat} {raw : AssemblyText}
    (stands : (AssemblyText.pieces '\n' text)[index]? = some raw) :
    (exists key, (key, index + 1) ∈ notes) <->
      ¬ AssemblyText.IsBare (Line.withoutComment raw) ∧ ¬ Line.IsDirective raw := by
  rcases adds.exists_read stands with ⟨line, read⟩
  rw [<- Line.exists_instructs_iff read]
  constructor
  · rintro ⟨key, noted⟩
    rcases adds.exists_instructs noted with
      ⟨other, otherRaw, statement, isNumber, otherStands, instructs⟩
    cases Nat.succ.inj isNumber
    cases stands.symm.trans otherStands
    exact ⟨statement, instructs⟩
  · rintro ⟨statement, instructs⟩
    rcases adds.noted_at stands instructs with
      ⟨front, bytes, back, earlier, later, -, -, -, isNotes, -⟩
    refine ⟨UInt32.ofNat front.length, ?_⟩
    rw [isNotes]
    exact List.mem_append_right _ List.mem_cons_self

/-- A note stands where the code of its line begins, and the next one where that code ends. -/
theorem Adds.exact_at (small : code.length < 2 ^ 32) {before after : List (UInt32 × Nat)}
    {key : UInt32} {number : Nat} (split : notes = before ++ (key, number) :: after) :
    exists index raw statement noted, number = index + 1 ∧
      (AssemblyText.pieces '\n' text)[index]? = some raw ∧ Line.Instructs raw statement ∧
      key.toNat < code.length ∧
      emit labels ((Line.numbered text).take index) #[] ∅ =
        .ok ((code.take key.toNat).toArray, noted) ∧
      statement.encode labels .emitting =
        .ok ((code.take (nextOffset code.length after)).drop key.toNat) := by
  have fits : 0 + code.length < 2 ^ 32 := by
    rw [Nat.zero_add]
    exact small
  have noted : (key, number) ∈ notes := by
    rw [split]
    exact List.mem_append_right _ List.mem_cons_self
  rcases adds.exists_instructs noted with ⟨index, raw, statement, rfl, stands, instructs⟩
  rcases adds.noted_at stands instructs with
    ⟨front, bytes, back, earlier, later, first, encoded, isCode, isNotes, next⟩
  -- The line is noted where the relation puts it; that this is the given note follows from its
  -- number.
  have numbers : (before ++ (key, index + 1) :: after).Pairwise fun first second =>
      first.2 < second.2 := by
    rw [<- split]
    exact (adds.pairwise fits (Line.pairwise_numbered text)).imp And.right
  rcases split_unique (split.symm.trans isNotes) numbers with ⟨rfl, -, rfl⟩
  have inside := (adds.key_bounds fits noted).2
  have place : (UInt32.ofNat front.length).toNat = front.length := by
    have shorter : front.length ≤ code.length := by
      rw [isCode, List.length_append]
      exact Nat.le_add_right _ _
    exact UInt32.toNat_ofNat_of_lt' (Nat.lt_of_le_of_lt shorter small)
  have empty : (#[] : Array UInt8) ++ front = front.toArray := by simp
  rcases emit_of_adds first Array.size_empty ∅ with ⟨done, emitted, -⟩
  rw [empty] at emitted
  rw [Nat.zero_add] at inside
  refine ⟨index, raw, statement, done, rfl, stands, instructs, inside, ?_, ?_⟩
  · rw [emitted, place, isCode, List.take_left]
  · rw [encoded, next small, place, isCode, <- List.append_assoc,
      List.take_left' List.length_append, List.drop_left]

end Texts

/-- The source map is exact.  A line has a note exactly if it is neither blank nor a comment, holds
more than labels, and is not a directive; every note carries the number of a line, counted from one;
and notes under larger offsets carry larger numbers, so that no line has two.  The offset of a note
is that of the first byte of its line: the code in front of it is what the second pass emits for the
lines above.  From there to the offset of the next note, or to the end of the code, stands the
encoding of the line's instruction and nothing else. -/
theorem source_map_is_exact {text : AssemblyText} {assembly : Assembly}
    (assembled : ofText text = .ok assembly) (small : assembly.code.length < 2 ^ 32) :
    let notes := assembly.sourceMap.toList
    (forall index raw, (AssemblyText.pieces '\n' text)[index]? = some raw ->
      ((exists key, (key, index + 1) ∈ notes) <->
        ¬ AssemblyText.IsBare (Line.withoutComment raw) ∧ ¬ Line.IsDirective raw)) ∧
    notes.Pairwise (fun first second => first.1 < second.1 ∧ first.2 < second.2) ∧
    (forall before key number after, notes = before ++ (key, number) :: after ->
      exists index raw statement noted, number = index + 1 ∧
        (AssemblyText.pieces '\n' text)[index]? = some raw ∧ Line.Instructs raw statement ∧
        key.toNat < assembly.code.length ∧
        emit assembly.labels ((Line.numbered text).take index) #[] ∅ =
          .ok ((assembly.code.take key.toNat).toArray, noted) ∧
        statement.encode assembly.labels .emitting =
          .ok ((assembly.code.take (nextOffset assembly.code.length after)).drop key.toNat)) := by
  intro notes
  have adds := adds_of_ofText assembled small
  have fits : 0 + assembly.code.length < 2 ^ 32 := by
    rw [Nat.zero_add]
    exact small
  refine ⟨?_, adds.pairwise fits (Line.pairwise_numbered text), ?_⟩
  · intro index raw stands
    exact adds.noted_iff stands
  · intro before key number after split
    exact adds.exact_at small split

/-- A text with two instructions, and between them a comment, a directive and a line of labels. -/
theorem source_map_is_exact_second :
    let text := Text.glyphs
      "push rax ; one byte\n; nothing\nbits 64\nfirst: second:\n\nthird: mov rax, 6"
    exists assembly, ofText text = .ok assembly ∧ assembly.code.length = 8 ∧
      assembly.sourceMap.toList = [(0, 1), (1, 6)] ∧
      exists statement, Line.Instructs (Text.glyphs "third: mov rax, 6") statement ∧
        statement.encode assembly.labels .emitting = .ok (assembly.code.drop 1) := by
  intro text
  have facts : (ofText text).toOption.map
      (fun assembly => (assembly.code.length, assembly.sourceMap.toList)) =
        some (8, [(0, 1), (1, 6)]) := by
    decide +kernel
  cases assembled : ofText text with
  | error error =>
      rw [assembled] at facts
      cases facts
  | ok assembly =>
      rw [assembled] at facts
      rcases Prod.mk.inj (Option.some.inj facts) with ⟨length, notes⟩
      have small : assembly.code.length < 2 ^ 32 := by
        rw [length]
        decide
      rcases (source_map_is_exact assembled small).2.2 [(0, 1)] 1 6 [] notes with
        ⟨index, raw, statement, noted, isNumber, stands, instructs, -, -, encoded⟩
      cases Nat.succ.inj isNumber
      have line : (AssemblyText.pieces '\n' text)[5]? = some (Text.glyphs "third: mov rax, 6") := by
        decide +kernel
      cases line.symm.trans stands
      rw [nextOffset, List.take_length] at encoded
      exact ⟨assembly, rfl, length, notes, statement, instructs, encoded⟩

end Assembly
end LoxNative
