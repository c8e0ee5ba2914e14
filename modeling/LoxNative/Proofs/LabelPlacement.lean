import Mathlib
import LoxNative.Proofs.LabelReference

namespace LoxNative

/-!
# Where labels are placed

The first pass places labels by the lengths that it measures, with only the labels above a line
known to it.  The second pass emits the code with all of them known.  In code shorter than 2^31
bytes the two cannot disagree about a length, and from this follows all that a label promises: its
offset is the number of bytes in front of it, and an operand that names it is encoded like that
number.

The first pass is followed as a relation between the offset and the table before some lines and
those behind them.  What it keeps is proved by induction over the lines.
-/

/-- The code of a line, which is empty when the line has no instruction. -/
def Line.encode (labels : LabelTable) (pass : Pass) (line : Line) :
    Except AssemblyFault (List UInt8) :=
  match line.instruction? with
  | none => .ok []
  | some statement => statement.encode labels pass

/-- The length of the code of a line, with every label counted as zero. -/
def Line.extent (line : Line) : Nat :=
  match line.encode [] .measuring with
  | .ok code => code.length
  | .error _ => 0

namespace Assembly

open AssemblyOperand

/-- Lines with their numbers, as the two passes take them. -/
abbrev Lines := List (Nat × Except AssemblyError Line)

/-- The length of the code of some lines. -/
def extent : Lines -> Nat
  | [] => 0
  | (_, .ok line) :: rest => line.extent + extent rest
  | (_, .error _) :: rest => extent rest

/-- The labels of some lines in the order in which they are defined. -/
def definedNames : Lines -> List String
  | [] => []
  | (_, .ok line) :: rest => line.labels ++ definedNames rest
  | (_, .error _) :: rest => definedNames rest

theorem extent_append (first second : Lines) :
    extent (first ++ second) = extent first + extent second := by
  induction first with
  | nil => exact (Nat.zero_add _).symm
  | cons entry rest ih =>
      rcases entry with ⟨number, error | line⟩
      · exact ih
      · rw [List.cons_append, extent, extent, ih, Nat.add_assoc]

theorem definedNames_append (first second : Lines) :
    definedNames (first ++ second) = definedNames first ++ definedNames second := by
  induction first with
  | nil => rfl
  | cons entry rest ih =>
      rcases entry with ⟨number, error | line⟩
      · exact ih
      · rw [List.cons_append, definedNames, definedNames, ih, List.append_assoc]

/-! ## Defining labels -/

/-- Labels are defined unless a name comes twice. -/
theorem define_eq_iff (offset : UInt32) (names : List String) {labels known : LabelTable}
    (unique : (labels.map Prod.fst).Nodup) :
    define offset names labels = (known, none) <->
      known = (names.map fun name => (name, offset)).reverse ++ labels ∧
        (known.map Prod.fst).Nodup := by
  induction names generalizing labels with
  | nil =>
      rw [define, Prod.mk.injEq]
      constructor
      · rintro ⟨rfl, _⟩
        exact ⟨rfl, unique⟩
      · rintro ⟨rfl, _⟩
        exact ⟨rfl, rfl⟩
  | cons name rest ih =>
      rw [define, List.map_cons, List.reverse_cons, List.append_assoc, List.singleton_append]
      by_cases taken : (labels.lookup name).isSome = true
      · rw [if_pos taken, Prod.mk.injEq]
        constructor
        · rintro ⟨_, impossible⟩
          cases impossible
        · rintro ⟨rfl, distinct⟩
          rcases Option.isSome_iff_exists.mp taken with ⟨earlier, found⟩
          have member := List.mem_map_of_mem (f := Prod.fst) (mem_of_lookup found)
          rw [List.map_append, List.map_cons] at distinct
          exact absurd member (List.nodup_cons.mp (List.Nodup.of_append_right distinct)).1
      · rw [if_neg taken]
        apply ih
        rw [List.map_cons, List.nodup_cons]
        refine ⟨?_, unique⟩
        rw [Option.not_isSome_iff_eq_none, List.lookup_eq_none_iff] at taken
        intro member
        rcases List.mem_map.mp member with ⟨entry, listed, same⟩
        exact bne_iff_ne.mp (taken entry listed) same.symm

theorem lookup_eq_some {labels : LabelTable} (unique : (labels.map Prod.fst).Nodup) {name : String}
    {offset : UInt32} (member : (name, offset) ∈ labels) : labels.lookup name = some offset := by
  rcases List.append_of_mem member with ⟨before, behind, split⟩
  rw [split, List.map_append, List.map_cons, List.nodup_append] at unique
  rw [List.lookup_eq_some_iff]
  refine ⟨before, behind, split, ?_⟩
  intro entry listed
  exact bne_iff_ne.mpr (unique.2.2 _ (List.mem_map_of_mem listed) _ List.mem_cons_self).symm

theorem isNone_lookup_iff {labels : LabelTable} {name : String} :
    (labels.lookup name).isNone = true <-> name ∉ labels.map Prod.fst := by
  rw [Option.isNone_iff_eq_none, List.lookup_eq_none_iff, List.mem_map]
  constructor
  · rintro absent ⟨entry, listed, same⟩
    exact bne_iff_ne.mp (absent entry listed) same.symm
  · intro absent entry listed
    exact bne_iff_ne.mpr fun same => absent ⟨entry, listed, same.symm⟩

/-! ## The first pass -/

/-- The first pass gets over some lines, from an offset and a table to another offset and another
table. -/
inductive Surveys : UInt32 -> LabelTable -> Lines -> UInt32 -> LabelTable -> Prop
  | done (offset : UInt32) (labels : LabelTable) : Surveys offset labels [] offset labels
  | line {offset ending : UInt32} {labels known final : LabelTable} {rest : Lines} {line : Line}
      {code : List UInt8} (number : Nat)
      (defined : define offset line.labels labels = (known, none))
      (measured : line.encode known .measuring = .ok code)
      (further : Surveys (offset + UInt32.ofNat code.length) known rest ending final) :
      Surveys offset labels ((number, .ok line) :: rest) ending final

theorem survey_eq_iff {lines : Lines} {offset : UInt32} {labels final : LabelTable} :
    survey lines offset labels = (final, none) <->
      exists ending, Surveys offset labels lines ending final := by
  constructor
  · intro surveyed
    induction lines generalizing offset labels with
    | nil =>
        cases surveyed
        exact ⟨offset, .done _ _⟩
    | cons entry rest ih =>
        rcases entry with ⟨number, error | line⟩
        · cases surveyed
        · simp only [survey] at surveyed
          split at surveyed
          · cases surveyed
          · rename_i known defined
            split at surveyed
            · rename_i none
              have measured : line.encode known .measuring = .ok [] := by rw [Line.encode, none]
              rcases ih surveyed with ⟨ending, further⟩
              rw [<- UInt32.add_zero offset] at further
              exact ⟨ending, .line number defined measured further⟩
            · rename_i statement found
              split at surveyed
              · cases surveyed
              · rename_i code measured
                rcases ih surveyed with ⟨ending, further⟩
                refine ⟨ending, .line number defined ?_ further⟩
                rw [Line.encode, found]
                exact measured
  · rintro ⟨ending, surveys⟩
    induction surveys with
    | done => rfl
    | @line offset ending labels known final rest line code number defined measured further ih =>
        cases found : line.instruction? with
        | none =>
            simp only [Line.encode, found, Except.ok.injEq] at measured
            rw [<- measured] at ih
            simp only [survey, defined, found]
            exact (UInt32.add_zero offset) ▸ ih
        | some statement =>
            simp only [Line.encode, found] at measured
            simp only [survey, defined, found, measured]
            exact ih

theorem surveys_append_iff {before behind : Lines} {offset ending : UInt32}
    {labels final : LabelTable} :
    Surveys offset labels (before ++ behind) ending final <->
      exists middle known, Surveys offset labels before middle known ∧
        Surveys middle known behind ending final := by
  induction before generalizing offset labels with
  | nil =>
      constructor
      · intro surveys
        exact ⟨offset, labels, .done offset labels, surveys⟩
      · rintro ⟨middle, known, first, second⟩
        cases first
        exact second
  | cons entry rest ih =>
      constructor
      · intro surveys
        cases surveys with
        | line number defined measured further =>
            rcases ih.mp further with ⟨middle, known, first, second⟩
            exact ⟨middle, known, .line number defined measured first, second⟩
      · rintro ⟨middle, known, first, second⟩
        cases first with
        | line number defined measured further =>
            exact .line number defined measured (ih.mpr ⟨middle, known, further, second⟩)

theorem exists_encode_of_isResolved {line : Line} {first second : LabelTable}
    (firstShort : LabelTable.IsShort first) (secondShort : LabelTable.IsShort second)
    {firstPass secondPass : Pass} {code : List UInt8}
    (encoded : line.encode first firstPass = .ok code)
    (resolved : forall statement, line.instruction? = some statement ->
      forall text, text ∈ statement.operands -> isResolved second secondPass text = true) :
    exists other, line.encode second secondPass = .ok other ∧ other.length = code.length := by
  rw [Line.encode] at encoded ⊢
  cases found : line.instruction? with
  | none =>
      rw [found] at encoded
      cases encoded
      exact ⟨[], rfl, rfl⟩
  | some statement =>
      rw [found] at encoded
      exact Statement.exists_encode firstShort secondShort encoded (resolved statement found)

/-- The labels that are known make no difference to the length of a line. -/
theorem length_of_encode {line : Line} {labels : LabelTable} (short : LabelTable.IsShort labels)
    {pass : Pass} {code : List UInt8} (encoded : line.encode labels pass = .ok code) :
    code.length = line.extent := by
  have resolved : forall statement, line.instruction? = some statement ->
      forall text, text ∈ statement.operands -> isResolved [] .measuring text = true :=
    fun _ _ _ _ => rfl
  rcases exists_encode_of_isResolved short LabelTable.isShort_nil encoded resolved with
    ⟨other, measured, length⟩
  rw [Line.extent, measured, <- length]

/-- What the first pass has done behind some lines: it is further on by their length, and has added
their labels in order. -/
structure Places (offset : UInt32) (labels : LabelTable) (lines : Lines) (ending : UInt32)
    (final : LabelTable) : Prop where
  further : ending.toNat = offset.toNat + extent lines
  short : LabelTable.IsShort final
  unique : (final.map Prod.fst).Nodup
  added : exists added : LabelTable, final = added.reverse ++ labels ∧
    added.map Prod.fst = definedNames lines ∧
    (added.map fun entry => entry.2.toNat).Pairwise (· ≤ ·) ∧
    forall entry, entry ∈ added -> offset.toNat ≤ entry.2.toNat ∧ entry.2.toNat ≤ ending.toNat

theorem isShort_defined {offset : UInt32} {names : List String} {labels : LabelTable}
    (short : LabelTable.IsShort labels) (small : offset.toNat < 0x80000000)
    (named : forall name, name ∈ names -> AssemblyText.isIdentifier (Text.glyphs name) = true) :
    LabelTable.IsShort ((names.map fun name => (name, offset)).reverse ++ labels) := by
  constructor
  · intro entry member
    rw [List.mem_append, List.mem_reverse, List.mem_map] at member
    rcases member with ⟨name, listed, rfl⟩ | member
    · exact named name listed
    · exact short.named entry member
  · intro entry member
    rw [List.mem_append, List.mem_reverse, List.mem_map] at member
    rcases member with ⟨name, listed, rfl⟩ | member
    · exact small
    · exact short.short entry member

/-- The induction is over the lines.  That all offsets so far have 31 bits is what makes the next
length the expected one, and that length keeps the next offset below 2^31. -/
theorem Surveys.places {offset ending : UInt32} {labels final : LabelTable} {lines : Lines}
    (surveys : Surveys offset labels lines ending final)
    (small : offset.toNat + extent lines < 0x80000000)
    (named : forall name, name ∈ definedNames lines ->
      AssemblyText.isIdentifier (Text.glyphs name) = true)
    (short : LabelTable.IsShort labels) (unique : (labels.map Prod.fst).Nodup) :
    Places offset labels lines ending final := by
  induction surveys with
  | done offset labels =>
      exact ⟨rfl, short, unique, [], rfl, rfl, .nil, fun _ member => absurd member List.not_mem_nil⟩
  | @line offset ending labels known final rest line code number defined measured further ih =>
      rw [extent] at small
      rw [definedNames] at named
      rcases (define_eq_iff offset line.labels unique).mp defined with ⟨isKnown, knownUnique⟩
      have knownShort : LabelTable.IsShort known := by
        rw [isKnown]
        exact isShort_defined short (by omega) fun name listed =>
          named name (List.mem_append_left _ listed)
      have length := length_of_encode knownShort measured
      have next : (offset + UInt32.ofNat code.length).toNat = offset.toNat + line.extent := by
        rw [UInt32.toNat_add,
          UInt32.toNat_ofNat_of_lt' (by change code.length < 0x100000000; omega), length]
        exact Nat.mod_eq_of_lt (by omega)
      rcases ih (by rw [next]; omega)
        (fun name listed => named name (List.mem_append_right _ listed))
        knownShort knownUnique with
        ⟨isEnding, finalShort, finalUnique, added, isFinal, names, ordered, between⟩
      rw [next] at isEnding between
      refine ⟨by rw [isEnding, extent, Nat.add_assoc], finalShort, finalUnique,
        (line.labels.map fun name => (name, offset)) ++ added, ?_, ?_, ?_, ?_⟩
      · rw [isFinal, isKnown, List.reverse_append, List.append_assoc]
      · rw [List.map_append, names, List.map_map, definedNames]
        exact congrArg (· ++ _) (List.map_id line.labels)
      · rw [List.map_append, List.map_map, List.pairwise_append]
        refine ⟨?_, ordered, ?_⟩
        · exact List.pairwise_map.mpr (List.pairwise_of_forall fun _ _ => Nat.le_refl _)
        · intro first isFirst second isSecond
          rcases List.mem_map.mp isFirst with ⟨name, _, rfl⟩
          rcases List.mem_map.mp isSecond with ⟨entry, listed, rfl⟩
          have least := (between entry listed).1
          change offset.toNat ≤ entry.2.toNat
          omega
      · intro entry member
        rcases List.mem_append.mp member with listed | listed
        · rcases List.mem_map.mp listed with ⟨name, _, rfl⟩
          exact ⟨Nat.le_refl _, by change offset.toNat ≤ _; omega⟩
        · have bounds := between entry listed
          exact ⟨by omega, bounds.2⟩

theorem Surveys.measured {offset ending : UInt32} {labels final : LabelTable} {lines : Lines}
    (surveys : Surveys offset labels lines ending final) {number : Nat} {line : Line}
    (member : (number, .ok line) ∈ lines) :
    exists known code, line.encode known .measuring = .ok code := by
  induction surveys with
  | done offset labels => exact absurd member List.not_mem_nil
  | line _ _ measured _ ih =>
      rcases List.mem_cons.mp member with same | behind
      · cases same
        exact ⟨_, _, measured⟩
      · exact ih behind

theorem Surveys.mem_final {offset ending : UInt32} {labels final : LabelTable} {lines : Lines}
    (surveys : Surveys offset labels lines ending final) (unique : (labels.map Prod.fst).Nodup)
    {entry : String × UInt32} (member : entry ∈ labels) : entry ∈ final := by
  induction surveys with
  | done => exact member
  | line number defined measured further ih =>
      rcases (define_eq_iff _ _ unique).mp defined with ⟨isKnown, knownUnique⟩
      apply ih knownUnique
      rw [isKnown]
      exact List.mem_append_right _ member

/-- The first pass at one of its lines: what it knows there, and what it measures. -/
theorem Surveys.split {offset ending : UInt32} {labels final : LabelTable} {before behind : Lines}
    {number : Nat} {line : Line}
    (surveys : Surveys offset labels (before ++ (number, .ok line) :: behind) ending final)
    (small : offset.toNat + extent (before ++ (number, .ok line) :: behind) < 0x80000000)
    (named : forall name, name ∈ definedNames (before ++ (number, .ok line) :: behind) ->
      AssemblyText.isIdentifier (Text.glyphs name) = true)
    (short : LabelTable.IsShort labels) (unique : (labels.map Prod.fst).Nodup) :
    exists middle table known code, Surveys offset labels before middle table ∧
      middle.toNat = offset.toNat + extent before ∧
      define middle line.labels table = (known, none) ∧ LabelTable.IsShort known ∧
      (forall name, name ∈ line.labels -> (name, middle) ∈ final) ∧
      line.encode known .measuring = .ok code := by
  rw [extent_append, extent] at small
  simp only [definedNames_append, definedNames, List.mem_append] at named
  rcases surveys_append_iff.mp surveys with ⟨middle, table, first, second⟩
  have placed :=
    first.places (by omega) (fun name listed => named name (Or.inl listed)) short unique
  cases second with
  | @line _ _ _ known _ _ _ code _ defined measured further =>
      rcases (define_eq_iff middle line.labels placed.unique).mp defined with ⟨isKnown, knownUnique⟩
      have reached := placed.further
      have knownShort : LabelTable.IsShort known := by
        rw [isKnown]
        exact isShort_defined placed.short (by omega) fun name listed =>
          named name (Or.inr (Or.inl listed))
      refine ⟨middle, table, known, code, first, reached, defined, knownShort, ?_, measured⟩
      intro name listed
      apply further.mem_final knownUnique
      rw [isKnown]
      exact List.mem_append_left _ (List.mem_reverse.mpr (List.mem_map.mpr ⟨name, listed, rfl⟩))

/-! ## The second pass -/

theorem emit_cons {labels : LabelTable} {line : Line} {bytes : List UInt8}
    (encoded : line.encode labels .emitting = .ok bytes) (number : Nat) (code : Array UInt8)
    (sourceMap : SourceMap) :
    exists noted, forall rest, emit labels ((number, .ok line) :: rest) code sourceMap =
      emit labels rest (code ++ bytes) noted := by
  rw [Line.encode] at encoded
  cases found : line.instruction? with
  | none =>
      rw [found] at encoded
      cases encoded
      have unchanged : code ++ ([] : List UInt8) = code := by simp
      simp only [emit, found, unchanged]
      exact ⟨sourceMap, fun _ => rfl⟩
  | some statement =>
      rw [found] at encoded
      simp only at encoded
      simp only [emit, found, encoded]
      exact ⟨_, fun _ => rfl⟩

theorem emit_cons_error {labels : LabelTable} {line : Line} {fault : AssemblyFault}
    (encoded : line.encode labels .emitting = .error fault) (number : Nat) (rest : Lines)
    (code : Array UInt8) (sourceMap : SourceMap) :
    emit labels ((number, .ok line) :: rest) code sourceMap = .error ⟨number, fault⟩ := by
  rw [Line.encode] at encoded
  cases found : line.instruction? with
  | none =>
      rw [found] at encoded
      cases encoded
  | some statement =>
      rw [found] at encoded
      simp only at encoded
      simp only [emit, found, encoded]

theorem emit_append (labels : LabelTable) (before behind : Lines) (code : Array UInt8)
    (sourceMap : SourceMap) :
    emit labels (before ++ behind) code sourceMap =
      (emit labels before code sourceMap).bind fun done => emit labels behind done.1 done.2 := by
  induction before generalizing code sourceMap with
  | nil => rfl
  | cons entry rest ih =>
      rcases entry with ⟨number, error | line⟩
      · rfl
      · rw [List.cons_append]
        cases encoded : line.encode labels .emitting with
        | error fault =>
            rw [emit_cons_error encoded, emit_cons_error encoded]
            rfl
        | ok bytes =>
            rcases emit_cons encoded number code sourceMap with ⟨noted, emitted⟩
            rw [emitted, emitted, ih]

/-! ## Labels that are missing -/

end Assembly

/-- Whether an operand names a label that is not among some names. -/
def AssemblyOperand.isMissing (names : List String) (text : AssemblyText) : Bool :=
  AssemblyOperand.namesLabel text && !names.contains (Text.shown text)

/-- The first operand in the instruction of a line that names a label that is not among some
names. -/
def Line.missing? (names : List String) (line : Line) : Option AssemblyText :=
  line.instruction?.bind fun statement => statement.operands.find? (AssemblyOperand.isMissing names)

namespace Assembly

open AssemblyOperand

/-- The error for the first label that is missing in some lines. -/
def firstMissing? (names : List String) (lines : Lines) : Option AssemblyError :=
  lines.findSome? fun (number, parsed) =>
    match parsed with
    | .ok line => (line.missing? names).map fun text => ⟨number, .undefinedLabel (Text.shown text)⟩
    | .error _ => none

theorem firstMissing?_of_some {names : List String} {line : Line} {text : AssemblyText}
    (missing : line.missing? names = some text) (number : Nat) (rest : Lines) :
    firstMissing? names ((number, .ok line) :: rest) =
      some ⟨number, .undefinedLabel (Text.shown text)⟩ := by
  simp [firstMissing?, missing]

theorem firstMissing?_of_none {names : List String} {line : Line}
    (complete : line.missing? names = none) (number : Nat) (rest : Lines) :
    firstMissing? names ((number, .ok line) :: rest) = firstMissing? names rest := by
  simp [firstMissing?, complete]

theorem isSome_missing?_iff {names : List String} {line : Line} :
    (line.missing? names).isSome = true <->
      exists statement operand, line.instruction? = some statement ∧ operand ∈ statement.operands ∧
        namesLabel operand = true ∧ Text.shown operand ∉ names := by
  cases found : line.instruction? with
  | none => simp [Line.missing?, found]
  | some statement => simp [Line.missing?, found, isMissing]

theorem isSome_firstMissing?_iff {names : List String} {lines : Lines} :
    (firstMissing? names lines).isSome = true <->
      exists number line statement operand, (number, .ok line) ∈ lines ∧
        line.instruction? = some statement ∧ operand ∈ statement.operands ∧
        namesLabel operand = true ∧ Text.shown operand ∉ names := by
  rw [firstMissing?, List.findSome?_isSome_iff]
  constructor
  · rintro ⟨⟨number, error | line⟩, member, some⟩
    · cases some
    · rw [Option.isSome_map, isSome_missing?_iff] at some
      rcases some with ⟨statement, operand, missing⟩
      exact ⟨number, line, statement, operand, member, missing⟩
  · rintro ⟨number, line, statement, operand, member, missing⟩
    refine ⟨(number, .ok line), member, ?_⟩
    rw [Option.isSome_map, isSome_missing?_iff]
    exact ⟨statement, operand, missing⟩

section Emission

variable {final : LabelTable} (finalShort : LabelTable.IsShort final) {names : List String}
variable (same : forall name, name ∈ final.map Prod.fst <-> name ∈ names)

include same in
theorem isUndefined_eq_isMissing : isUndefined final = isMissing names := by
  funext text
  rw [isUndefined, isMissing]
  congr 1
  rw [Bool.eq_iff_iff, isNone_lookup_iff, same, Bool.not_eq_true', <- Bool.not_eq_true,
    List.contains_iff_mem]

include finalShort same

/-- A line that could be measured is emitted with the length that was measured, unless a label is
missing. -/
theorem encode_of_measured {line : Line} {known : LabelTable}
    (knownShort : LabelTable.IsShort known)
    {code : List UInt8} (measured : line.encode known .measuring = .ok code) :
    match line.missing? names with
    | some text => line.encode final .emitting = .error (.undefinedLabel (Text.shown text))
    | none => exists bytes, line.encode final .emitting = .ok bytes ∧
        bytes.length = line.extent := by
  split
  · rename_i text missing
    rcases Option.bind_eq_some_iff.mp missing with ⟨statement, found, first⟩
    rw [<- isUndefined_eq_isMissing same] at first
    rw [Line.encode, found] at measured ⊢
    exact Statement.encode_of_find? knownShort finalShort measured first
  · rename_i complete
    have resolved : forall statement, line.instruction? = some statement ->
        forall text, text ∈ statement.operands -> isResolved final .emitting text = true := by
      intro statement found text listed
      have absent := Option.bind_eq_none_iff.mp complete statement found
      rw [<- isUndefined_eq_isMissing same, List.find?_eq_none] at absent
      rw [isResolved, Bool.eq_false_of_not_eq_true (absent text listed)]
      rfl
    rcases exists_encode_of_isResolved knownShort finalShort measured resolved with
      ⟨bytes, encoded, length⟩
    exact ⟨bytes, encoded, length_of_encode finalShort encoded⟩

/-- The second pass over lines that could all be measured. -/
theorem emit_of_measured {lines : Lines}
    (measured : forall entry, entry ∈ lines -> exists line known code, entry.2 = .ok line ∧
      LabelTable.IsShort known ∧ line.encode known .measuring = .ok code)
    (code : Array UInt8) (sourceMap : SourceMap) :
    match firstMissing? names lines with
    | some error => emit final lines code sourceMap = .error error
    | none => exists (bytes : List UInt8) (noted : SourceMap),
        emit final lines code sourceMap = .ok (code ++ bytes, noted) ∧
        bytes.length = extent lines := by
  induction lines generalizing code sourceMap with
  | nil => exact ⟨[], sourceMap, by simp [emit], rfl⟩
  | cons entry rest ih =>
      rcases entry with ⟨number, parsed⟩
      rcases measured _ List.mem_cons_self with ⟨line, known, draft, isLine, knownShort, encoded⟩
      dsimp only at isLine
      subst isLine
      have here := encode_of_measured finalShort same knownShort encoded
      have further := ih fun entry member => measured entry (List.mem_cons_of_mem _ member)
      cases missing : line.missing? names with
      | some text =>
          rw [missing] at here
          rw [firstMissing?_of_some missing]
          exact emit_cons_error here number rest code sourceMap
      | none =>
          rw [missing] at here
          rcases here with ⟨bytes, encoded, length⟩
          rcases emit_cons encoded number code sourceMap with ⟨noted, emitted⟩
          have behind := further (code ++ bytes) noted
          rw [firstMissing?_of_none missing, emitted]
          split at behind
          · exact behind
          · rcases behind with ⟨more, noted, done, moreLength⟩
            refine ⟨bytes ++ more, noted, ?_, ?_⟩
            · rw [done]
              congr 2
              apply Array.toList_inj.mp
              simp
            · rw [List.length_append, extent, length, moreLength]

end Emission

/-! ## Texts that the first pass accepts -/

theorem mem_definedNames {lines : Lines} {name : String} :
    name ∈ definedNames lines <->
      exists number line, (number, .ok line) ∈ lines ∧ name ∈ line.labels := by
  induction lines with
  | nil =>
      constructor
      · exact fun member => absurd member List.not_mem_nil
      · rintro ⟨number, line, member, _⟩
        exact absurd member List.not_mem_nil
  | cons entry rest ih =>
      rcases entry with ⟨number, error | line⟩
      · rw [definedNames, ih]
        constructor
        · rintro ⟨number, line, member, listed⟩
          exact ⟨number, line, List.mem_cons_of_mem _ member, listed⟩
        · rintro ⟨number, line, member, listed⟩
          rcases List.mem_cons.mp member with same | member
          · cases same
          · exact ⟨number, line, member, listed⟩
      · rw [definedNames, List.mem_append, ih]
        constructor
        · rintro (listed | ⟨number, line, member, listed⟩)
          · exact ⟨number, line, List.mem_cons_self, listed⟩
          · exact ⟨number, line, List.mem_cons_of_mem _ member, listed⟩
        · rintro ⟨number, line, member, listed⟩
          rcases List.mem_cons.mp member with same | member
          · cases same
            exact Or.inl listed
          · exact Or.inr ⟨number, line, member, listed⟩

/-- The labels that the first pass knows when it measures a line: those in front of the line and its
own. -/
def knownAt (before : Lines) (line : Line) : LabelTable :=
  (survey (before ++ [(0, .ok { line with statement := none })]) 0 []).1

section Texts

variable {text : AssemblyText} {labels : LabelTable}
variable (surveyed : survey (Line.numbered text) 0 [] = (labels, none))
variable (small : extent (Line.numbered text) < 0x80000000)

theorem isIdentifier_of_definedNames (name : String)
    (listed : name ∈ definedNames (Line.numbered text)) :
    AssemblyText.isIdentifier (Text.glyphs name) = true := by
  rcases mem_definedNames.mp listed with ⟨number, line, member, listed⟩
  exact Line.isIdentifier_of_numbered member listed

include surveyed

theorem ofText_eq :
    ofText text = (emit labels (Line.numbered text) #[] ∅).map fun done =>
      ⟨done.1.toList, done.2, labels⟩ := by
  simp only [ofText, run, surveyed]

include small

theorem places_numbered : exists ending, Surveys 0 [] (Line.numbered text) ending labels ∧
    Places 0 [] (Line.numbered text) ending labels := by
  rcases survey_eq_iff.mp surveyed with ⟨ending, surveys⟩
  have start : (0 : UInt32).toNat + extent (Line.numbered text) < 0x80000000 := by
    rw [UInt32.toNat_zero, Nat.zero_add]
    exact small
  exact ⟨ending, surveys, surveys.places start isIdentifier_of_definedNames LabelTable.isShort_nil
    List.nodup_nil⟩

theorem mem_labels_iff (name : String) :
    name ∈ labels.map Prod.fst <-> name ∈ definedNames (Line.numbered text) := by
  rcases places_numbered surveyed small with ⟨ending, _, placed⟩
  rcases placed.added with ⟨added, isFinal, names, _⟩
  rw [isFinal, <- names, List.append_nil, List.map_reverse, List.mem_reverse]

/-- What the first pass knows and measures at one of the lines. -/
theorem measured_at {before behind : Lines} {number : Nat} {line : Line}
    (split : Line.numbered text = before ++ (number, .ok line) :: behind) :
    exists middle : UInt32, exists code, middle.toNat = extent before ∧
      LabelTable.IsShort (knownAt before line) ∧
      (forall name, name ∈ line.labels -> (name, middle) ∈ labels) ∧
      line.encode (knownAt before line) .measuring = .ok code := by
  rcases places_numbered surveyed small with ⟨ending, surveys, _⟩
  have named : forall name, name ∈ definedNames (Line.numbered text) ->
      AssemblyText.isIdentifier (Text.glyphs name) = true := isIdentifier_of_definedNames
  rw [split] at surveys named small
  rcases surveys.split (by rw [UInt32.toNat_zero, Nat.zero_add]; exact small) named
    LabelTable.isShort_nil List.nodup_nil with
    ⟨middle, table, known, code, first, reached, defined, knownShort, listed, measured⟩
  have isKnown : knownAt before line = known := by
    have further : Surveys (middle + UInt32.ofNat ([] : List UInt8).length) known [] _ known :=
      .done _ _
    have only : Surveys middle table [(0, .ok { line with statement := none })] _ known :=
      .line 0 defined rfl further
    rw [knownAt, survey_eq_iff.mpr ⟨_, surveys_append_iff.mpr ⟨middle, table, first, only⟩⟩]
  rw [UInt32.toNat_zero, Nat.zero_add] at reached
  rw [isKnown]
  exact ⟨middle, code, reached, knownShort, listed, measured⟩

theorem measured_numbered (entry : Nat × Except AssemblyError Line)
    (member : entry ∈ Line.numbered text) :
    exists line known code, entry.2 = .ok line ∧ LabelTable.IsShort known ∧
      line.encode known .measuring = .ok code := by
  rcases List.append_of_mem member with ⟨before, behind, split⟩
  rcases survey_eq_iff.mp surveyed with ⟨ending, surveys⟩
  rw [split] at surveys
  rcases surveys_append_iff.mp surveys with ⟨middle, table, _, second⟩
  cases second with
  | @line _ _ _ _ _ _ line _ number =>
      rcases measured_at surveyed small split with ⟨_, code, _, knownShort, _, measured⟩
      exact ⟨line, knownAt before line, code, rfl, knownShort, measured⟩

/-- Assembling fails exactly with the first label that is missing. -/
theorem ofText_eq_error_iff (error : AssemblyError) :
    ofText text = .error error <->
      firstMissing? (definedNames (Line.numbered text)) (Line.numbered text) = some error := by
  rcases places_numbered surveyed small with ⟨_, _, placed⟩
  have emitted := emit_of_measured placed.short (mem_labels_iff surveyed small)
    (measured_numbered surveyed small) #[] ∅
  rw [ofText_eq surveyed]
  split at emitted
  · rename_i first isFirst
    rw [emitted, isFirst, Except.map, Except.error.injEq, Option.some.injEq]
  · rename_i complete
    rcases emitted with ⟨bytes, noted, emitted, _⟩
    rw [emitted, complete]
    constructor <;> intro impossible <;> cases impossible

/-- The code of a text around one of its lines.  The text splits into the lines in front, the line
and those behind, and so does the run of the second pass. -/
theorem code_around {assembly : Assembly} (assembled : ofText text = .ok assembly)
    {before behind : Lines} {number : Nat} {line : Line}
    (split : Line.numbered text = before ++ (number, .ok line) :: behind) :
    exists front bytes back : List UInt8, exists sourceMap,
      assembly.code = front ++ bytes ++ back ∧
      emit labels before #[] ∅ = .ok (front.toArray, sourceMap) ∧ front.length = extent before ∧
      line.encode labels .emitting = .ok bytes := by
  rcases places_numbered surveyed small with ⟨_, _, placed⟩
  have same := mem_labels_iff surveyed small
  have measured := measured_numbered surveyed small
  rcases measured_at surveyed small split with ⟨_, draft, _, knownShort, _, measuredHere⟩
  have complete :
      firstMissing? (definedNames (Line.numbered text)) (Line.numbered text) = none := by
    rw [Option.eq_none_iff_forall_ne_some]
    intro error first
    rw [(ofText_eq_error_iff surveyed small error).mpr first] at assembled
    cases assembled
  have here := encode_of_measured placed.short same knownShort measuredHere
  rw [ofText_eq surveyed] at assembled
  generalize definedNames (Line.numbered text) = names at same complete here
  rw [split] at measured complete assembled
  rw [firstMissing?, List.findSome?_append, Option.or_eq_none_iff] at complete
  rcases complete with ⟨completeBefore, completeRest⟩
  change firstMissing? names before = none at completeBefore
  change firstMissing? names ((number, .ok line) :: behind) = none at completeRest
  cases missing : line.missing? names with
  | some operand =>
      rw [firstMissing?_of_some missing] at completeRest
      cases completeRest
  | none =>
      rw [firstMissing?_of_none missing] at completeRest
      rw [missing] at here
      rcases here with ⟨bytes, encoded, _⟩
      have emittedBefore := emit_of_measured placed.short same
        (fun entry member => measured entry (List.mem_append_left _ member)) #[] ∅
      rw [completeBefore] at emittedBefore
      rcases emittedBefore with ⟨front, noted, emittedBefore, frontLength⟩
      have empty : (#[] : Array UInt8) ++ front = front.toArray := by simp
      rw [empty] at emittedBefore
      rcases emit_cons encoded number front.toArray noted with ⟨notedHere, emittedHere⟩
      have emittedBehind := emit_of_measured placed.short same
        (fun entry member =>
          measured entry (List.mem_append_right _ (List.mem_cons_of_mem _ member)))
        (front.toArray ++ bytes) notedHere
      rw [completeRest] at emittedBehind
      rcases emittedBehind with ⟨back, notedEnd, emittedBehind, _⟩
      rw [emit_append, emittedBefore] at assembled
      simp only [Except.bind, emittedHere, emittedBehind, Except.map, Except.ok.injEq] at assembled
      refine ⟨front, bytes, back, noted, ?_, emittedBefore, frontLength, encoded⟩
      rw [<- assembled]
      simp

theorem length_code {assembly : Assembly} (assembled : ofText text = .ok assembly) :
    assembly.labels = labels ∧ assembly.code.length = extent (Line.numbered text) := by
  rcases places_numbered surveyed small with ⟨_, _, placed⟩
  have emitted := emit_of_measured placed.short (mem_labels_iff surveyed small)
    (measured_numbered surveyed small) #[] ∅
  rw [ofText_eq surveyed] at assembled
  split at emitted
  · rw [emitted] at assembled
    cases assembled
  · rcases emitted with ⟨bytes, noted, emitted, length⟩
    rw [emitted] at assembled
    cases assembled
    refine ⟨rfl, ?_⟩
    rw [<- length]
    simp

end Texts

/-- The two passes agree.  A line that the first pass measures has the same length in the second.  A
label stands for the number of bytes in front of it, and code that names it is the code with that
number written instead.  Assembling fails after the first pass only for a name that no line defines,
and then with the first of them. -/
theorem passes_agree {text : AssemblyText} {labels : LabelTable}
    (surveyed : survey (Line.numbered text) 0 [] = (labels, none))
    (small : extent (Line.numbered text) < 0x80000000) :
    let lines := Line.numbered text
    (forall before number line behind statement, lines = before ++ (number, .ok line) :: behind ->
      line.instruction? = some statement ->
        exists measured, statement.encode (knownAt before line) .measuring = .ok measured ∧
          forall emitted, statement.encode labels .emitting = .ok emitted ->
            emitted.length = measured.length) ∧
      (forall assembly, ofText text = .ok assembly ->
        assembly.labels = labels ∧ assembly.code.length = extent lines ∧
        (forall before number line behind, lines = before ++ (number, .ok line) :: behind ->
          exists front bytes back : List UInt8, exists sourceMap,
            assembly.code = front ++ bytes ++ back ∧
            emit labels before #[] ∅ = .ok (front.toArray, sourceMap) ∧
            (forall name, name ∈ line.labels -> exists offset,
              labelOffset? assembly.labels name = some offset ∧ offset.toNat = front.length) ∧
            (forall statement, line.instruction? = some statement ->
              (statement.substituted labels).encode [] .emitting = .ok bytes)) ∧
        labels.reverse.map Prod.fst = definedNames lines ∧
        (labels.reverse.map fun entry => entry.2.toNat).Pairwise (· ≤ ·) ∧
        (forall entry, entry ∈ labels -> entry.2.toNat ≤ assembly.code.length)) ∧
      ((exists error, ofText text = .error error) <->
        exists number line statement operand, (number, .ok line) ∈ lines ∧
          line.instruction? = some statement ∧ operand ∈ statement.operands ∧
          namesLabel operand = true ∧ Text.shown operand ∉ definedNames lines) ∧
      (forall error, ofText text = .error error <->
        firstMissing? (definedNames lines) lines = some error) := by
  intro lines
  rcases places_numbered surveyed small with ⟨ending, _, placed⟩
  refine ⟨?lengths, ?labels, ?missing, ofText_eq_error_iff surveyed small⟩
  case lengths =>
    intro before number line behind statement split found
    rcases measured_at surveyed small split with ⟨_, code, _, knownShort, _, measured⟩
    have length := length_of_encode knownShort measured
    rw [Line.encode, found] at measured
    refine ⟨code, measured, ?_⟩
    intro emitted encoded
    have whole : line.encode labels .emitting = .ok emitted := by
      rw [Line.encode, found]
      exact encoded
    rw [length, length_of_encode placed.short whole]
  case labels =>
    intro assembly assembled
    rcases length_code surveyed small assembled with ⟨isTable, length⟩
    rcases placed.added with ⟨added, isFinal, names, ordered, between⟩
    rw [List.append_nil] at isFinal
    refine ⟨isTable, length, ?_, ?_, ?_, ?_⟩
    · intro before number line behind split
      rcases code_around surveyed small assembled split with
        ⟨front, bytes, back, sourceMap, code, emitted, frontLength, encoded⟩
      rcases measured_at surveyed small split with ⟨middle, _, reached, _, listed, _⟩
      refine ⟨front, bytes, back, sourceMap, code, emitted, ?_, ?_⟩
      · intro name member
        refine ⟨middle, ?_, reached.trans frontLength.symm⟩
        have entry := listed name member
        rw [isTable, labelOffset?, AssemblyText.shown_trim (placed.short.named _ entry)]
        exact lookup_eq_some placed.unique entry
      · intro statement found
        rw [Statement.encode_substituted placed.short]
        rw [Line.encode, found] at encoded
        exact encoded
    · rw [isFinal, List.reverse_reverse]
      exact names
    · rw [isFinal, List.reverse_reverse]
      exact ordered
    · intro entry member
      rw [isFinal, List.mem_reverse] at member
      have bound := (between entry member).2
      rw [placed.further, UInt32.toNat_zero, Nat.zero_add] at bound
      rw [length]
      exact bound
  case missing =>
    simp only [ofText_eq_error_iff surveyed small]
    rw [<- Option.isSome_iff_exists]
    exact isSome_firstMissing?_iff

/-- A label used above its line and another used below it. -/
theorem passes_agree_forward :
    let text := Text.glyphs "start: mov rax, finish\npush rax\nmov rbx, start\nfinish:\nsyscall"
    let labels : LabelTable := [("finish", 15), ("start", 0)]
    survey (Line.numbered text) 0 [] = (labels, none) ∧ extent (Line.numbered text) = 17 ∧
      (forall assembly, ofText text = .ok assembly ->
        assembly.labels = labels ∧ assembly.code.length = 17) ∧
      (forall error, ofText text ≠ .error error) := by
  intro text labels
  have surveyed : survey (Line.numbered text) 0 [] = (labels, none) := by decide +kernel
  have length : extent (Line.numbered text) = 17 := by decide +kernel
  have complete :
      firstMissing? (definedNames (Line.numbered text)) (Line.numbered text) = none := by
    decide +kernel
  rcases passes_agree surveyed (by rw [length]; decide) with ⟨_, placed, _, fails⟩
  refine ⟨surveyed, length, ?_, ?_⟩
  · intro assembly assembled
    rcases placed assembly assembled with ⟨isTable, isLength, _⟩
    exact ⟨isTable, isLength.trans length⟩
  · intro error failed
    rw [(fails error).mp failed] at complete
    cases complete

end Assembly
end LoxNative
