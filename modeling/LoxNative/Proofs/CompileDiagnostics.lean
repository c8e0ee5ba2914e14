import Mathlib
import LoxNative.Compilation
import LoxNative.Proofs.ErrorPosition
import LoxNative.Proofs.LoweredCode

namespace LoxNative

/-!
# Compiling fails only with diagnostics

Lowering has errors that concern no source text: a tree built by hand may lack a child, or carry an
operator or a literal that names nothing.  A tree that was read has none of these defects, and
lowering a tree without them leaves exactly one value on the stack.  What remains are literals
without a value, and every literal of a tree that was read is a token of the text: the literals of
the tree from left to right are those of the tokens.

So whoever compiles a text gets a program, or a diagnostic that points into the text.
-/

/-! ## Trees without defects -/

/-- Whether a form of literals is one of those with a name. -/
def LiteralKind.isListed : LiteralKind -> Bool
  | unlisted _ => false
  | _ => true

/-- Whether an operator is one of those with a name. -/
def UnaryOp.isListed : UnaryOp -> Bool
  | unlisted _ => false
  | _ => true

/-- Whether an operator is one of those with a name. -/
def BinaryOp.isListed : BinaryOp -> Bool
  | unlisted _ => false
  | _ => true

namespace Expr

/-- Whether a tree is without defects: nothing is missing, and every literal and operator has a
name. -/
def isWhole : Expr -> Bool
  | .missing => false
  | .literal constant => constant.kind.isListed
  | .unary op right => op.isListed && right.isWhole
  | .binary op left right => op.isListed && left.isWhole && right.isWhole
  | .group inner => inner.isWhole

/-- The literals of a tree from left to right. -/
def literals : Expr -> List Literal
  | .missing => []
  | .literal constant => [constant]
  | .unary _ right => right.literals
  | .binary _ left right => left.literals ++ right.literals
  | .group inner => inner.literals

end Expr

theorem exists_of_bind_eq_error {ε α β : Type} {action : Except ε α} {next : α -> Except ε β}
    {fault : ε} (failed : action >>= next = .error fault) :
    action = .error fault ∨ exists value, action = .ok value ∧ next value = .error fault := by
  cases action with
  | error own =>
      cases failed
      exact Or.inl rfl
  | ok value => exact Or.inr ⟨value, rfl, failed⟩

theorem UnaryOp.exists_idiom {op : UnaryOp} (listed : op.isListed = true) :
    exists idiom, op.idiom = .ok idiom := by
  cases op with
  | unlisted code => cases listed
  | _ => exact ⟨_, rfl⟩

theorem BinaryOp.exists_idiom {op : BinaryOp} (listed : op.isListed = true) :
    exists idiom, op.idiom = .ok idiom := by
  cases op with
  | unlisted code => cases listed
  | _ => exact ⟨_, rfl⟩

/-- A literal of a form with a name has a value, or it is rejected where it stands. -/
theorem Literal.exists_rejection {constant : Literal} (listed : constant.kind.isListed = true)
    {error : CompileError} (failed : constant.value = .error error) :
    exists text, error = constant.rejection text := by
  rcases constant with ⟨kind, raw, line⟩
  cases kind with
  | truth | falsehood | nil => cases failed
  | string =>
      cases failed
      exact ⟨_, rfl⟩
  | unlisted code => cases listed
  | number =>
      simp only [Literal.value] at failed
      split at failed
      · cases failed
        exact ⟨_, rfl⟩
      · split at failed
        · cases failed
        · cases failed
          exact ⟨_, rfl⟩

namespace Expr

/-- Lowering a tree without defects fails only at one of its literals, with the error of that
literal. -/
theorem exists_of_emit_error {options : LoweringOptions} {expr : Expr} (whole : expr.isWhole = true)
    {done : Array Idiom} {error : CompileError} (failed : expr.emit options done = .error error) :
    exists constant text, constant ∈ expr.literals ∧ constant.value = .error error ∧
      error = constant.rejection text := by
  induction expr generalizing done with
  | missing => cases whole
  | literal constant =>
      rcases exists_of_bind_eq_error failed with valueless | ⟨value, -, rest⟩
      · rcases Literal.exists_rejection whole valueless with ⟨text, rejected⟩
        exact ⟨constant, text, List.mem_cons_self, valueless, rejected⟩
      · cases rest
  | group inner ih => exact ih whole failed
  | unary op right ih =>
      rw [isWhole, Bool.and_eq_true] at whole
      rcases UnaryOp.exists_idiom whole.1 with ⟨idiom, found⟩
      rcases exists_of_bind_eq_error failed with inner | ⟨half, -, rest⟩
      · exact ih whole.2 inner
      · rw [found] at rest
        cases rest
  | binary op left right ihLeft ihRight =>
      rw [isWhole, Bool.and_eq_true, Bool.and_eq_true] at whole
      rcases BinaryOp.exists_idiom whole.1.1 with ⟨idiom, found⟩
      rw [emit] at failed
      split at failed
      · cases failed
      · rcases exists_of_bind_eq_error failed with first | ⟨half, -, rest⟩
        · rcases ihLeft whole.1.2 first with ⟨constant, text, member, own⟩
          exact ⟨constant, text, List.mem_append_left _ member, own⟩
        · rcases exists_of_bind_eq_error rest with second | ⟨out, -, rest⟩
          · rcases ihRight whole.2 second with ⟨constant, text, member, own⟩
            exact ⟨constant, text, List.mem_append_right _ member, own⟩
          · rw [found] at rest
            cases rest

theorem emit_of_ungrouped {options : LoweringOptions} {expr : Expr} {constant : Literal}
    {error : CompileError} (same : expr.ungrouped = .literal constant)
    (failed : constant.value = .error error) (done : Array Idiom) :
    expr.emit options done = .error error := by
  induction expr with
  | literal own =>
      cases same
      rw [emit, failed]
      rfl
  | group inner ih => exact ih same
  | _ => cases same

/-- There is no program only if lowering fails; the stack is never out of balance. -/
theorem emit_error_of_ofExpr {options : LoweringOptions} {expr : Expr} {error : CompileError}
    (failed : Program.ofExpr options expr = .error error) :
    expr.emit options #[] = .error error := by
  cases emitted : expr.emit options #[] with
  | ok out =>
      rcases ofExpr_of_isLowerable options (isLowerable_of_emit emitted) with ⟨idioms, lowered, -⟩
      cases lowered.symm.trans failed
  | error own =>
      unfold Program.ofExpr at failed
      split at failed
      · rename_i constant optimized same
        rcases exists_of_bind_eq_error failed with valueless | ⟨value, -, rest⟩
        · rw [<- emitted]
          exact emit_of_ungrouped same valueless #[]
        · cases rest
      · rw [emitted] at failed
        cases failed
        rfl

end Expr

/-! ## Trees that were read -/

namespace Grammar

open Token

/-- The kinds of tokens that denote literals. -/
def literalKinds : List TokenKind :=
  [.number, .string, .trueWord, .falseWord, .nilWord]

theorem ofToken?_of_not_mem {token : Token} (other : token.kind ∉ literalKinds) :
    Literal.ofToken? token = none := by
  rcases token with ⟨kind, lexeme, line⟩
  change kind ∉ literalKinds at other
  cases kind
  case number | string | trueWord | falseWord | nilWord => exact absurd (by decide) other
  all_goals rfl

/-- A tree that is derived has no defects. -/
theorem Derives.isWhole {level : Level} {tokens : List Token} {expr : Expr}
    (derived : Derives level tokens expr) : expr.isWhole = true := by
  induction derived with
  | tighter inner ih => exact ih
  | @binary level left right token op first second derivedLeft listed derivedRight ihLeft ihRight =>
      have every : forall entry, entry ∈ level.operators -> entry.2.isListed = true := by
        cases level <;> decide
      rw [Expr.isWhole, every _ listed, ihLeft, ihRight]
      rfl
  | @unary token right op operand listed derivedRight ih =>
      have every : forall entry, entry ∈ signs -> entry.2.isListed = true := by decide
      rw [Expr.isWhole, every _ listed, ih]
      rfl
  | @literal token kind listed =>
      have every : forall entry, entry ∈ literals -> entry.2.isListed = true := by decide
      exact every _ listed
  | string kind quoted => rfl
  | group opened derivedInside closed ih => exact ih

/-- The literals of a derived tree are those of its tokens, in the same order. -/
theorem Derives.literals_eq {level : Level} {tokens : List Token} {expr : Expr}
    (derived : Derives level tokens expr)
    (spelled : forall token, token ∈ tokens -> Spelled token) :
    expr.literals = tokens.filterMap Literal.ofToken? := by
  induction derived with
  | tighter inner ih => exact ih spelled
  | @binary level left right token op first second derivedLeft listed derivedRight ihLeft ihRight =>
      have every : forall entry, entry ∈ level.operators -> entry.1 ∉ literalKinds := by
        cases level <;> decide
      rcases List.forall_mem_append.mp spelled with ⟨spelledLeft, spelledRest⟩
      rw [Expr.literals, ihLeft spelledLeft, ihRight (List.forall_mem_cons.mp spelledRest).2,
        List.filterMap_append, List.filterMap_cons_none (ofToken?_of_not_mem (every _ listed))]
  | @unary token right op operand listed derivedRight ih =>
      rw [Expr.literals, ih (List.forall_mem_cons.mp spelled).2,
        List.filterMap_cons_none (ofKind?_of_signs listed).2]
  | @literal token kind listed =>
      have found := ofToken?_of_literal (spelled token List.mem_cons_self) listed
      rw [List.filterMap_cons_some found]
      rfl
  | @string token raw kind quoted =>
      rw [List.filterMap_cons_some (ofToken?_of_string kind quoted)]
      rfl
  | @group opening closing inside inner opened derivedInside closed ih =>
      have before : Literal.ofToken? opening = none :=
        ofToken?_of_not_mem (by rw [opened]; decide)
      have behind : Literal.ofToken? closing = none :=
        ofToken?_of_not_mem (by rw [closed]; decide)
      rcases List.forall_mem_append.mp spelled with ⟨spelledBefore, -⟩
      rw [Expr.literals, ih (List.forall_mem_cons.mp spelledBefore).2, List.filterMap_append,
        List.filterMap_cons_none before, List.filterMap_cons_none behind, List.filterMap_nil,
        List.append_nil]

/-- A literal is written as the lexeme of its token, a string with its quotes, and stands on the
same line. -/
theorem written_of_ofToken? {token : Token} {constant : Literal} (spelled : Spelled token)
    (found : Literal.ofToken? token = some constant) :
    constant.written = token.lexeme ∧ constant.line = token.line := by
  rcases token with ⟨kind, lexeme, line⟩
  have word : forall word, (word, kind) ∈ TokenKind.keywords -> lexeme = word := spelled.word
  cases kind <;> cases found
  case number => exact ⟨rfl, rfl⟩
  case trueWord => exact ⟨(word "true" (by decide)).symm, rfl⟩
  case falseWord => exact ⟨(word "false" (by decide)).symm, rfl⟩
  case nilWord => exact ⟨(word "nil" (by decide)).symm, rfl⟩
  case string =>
      rcases spelled.string rfl with ⟨raw, quoted⟩
      have text : lexeme = "\"" ++ raw ++ "\"" := quoted
      rw [text, Literal.written, if_pos rfl, unquoted raw]
      exact ⟨rfl, rfl⟩

end Grammar

/-! ## The diagnostics of a text -/

namespace Diagnostic

/-- A diagnostic points at a literal of a text.  The literal is that of a token of the text and is
rejected with this diagnostic, which carries the line and the lexeme of the token; and the lexeme
stands in the text, on that line. -/
def PointsAtLiteral (source : String) (diagnostic : Diagnostic) : Prop :=
  exists token constant before after, token ∈ (Token.scan source).1 ∧
    Literal.ofToken? token = some constant ∧ constant.value = .error (.rejected diagnostic) ∧
    diagnostic.stage = .codegen ∧ diagnostic.line = token.line ∧
    diagnostic.location = token.lexeme ∧
    source.toList = before ++ token.lexeme.toList ++ after ∧
    token.line = (1 + Cursor.lineBreaks before : Nat)

end Diagnostic

open Grammar

/-- A token stands in its text, behind as many line breaks as its line says. -/
theorem exists_span {source : String} {token : Token}
    (member : .ok token ∈ (Cursor.start source).items.items) :
    exists before after, source.toList = before ++ token.lexeme.toList ++ after ∧
      token.line = (1 + Cursor.lineBreaks before : Nat) := by
  rcases (Cursor.start source).exists_laysOut with ⟨pieces, last, laysOut⟩
  rw [laysOut.items_eq] at member
  rcases List.mem_map.mp member with ⟨piece, listed, same⟩
  rcases List.append_of_mem listed with ⟨before, after, split⟩
  rcases laysOut.reads before piece after split with ⟨-, -, spans, -⟩
  rw [same] at spans
  have text : source.toList = Cursor.covered pieces ++ last := laysOut.text
  refine ⟨Cursor.covered before ++ piece.gap, Cursor.covered after ++ last, ?_, spans.line_eq⟩
  rw [text, split, spans.lexeme_eq]
  simp only [Cursor.covered, List.flatMap_append, List.flatMap_cons, Cursor.Piece.whole,
    List.append_assoc]

/-- Lowering a tree that was read fails only at a literal of the text. -/
theorem pointsAtLiteral_of_ofExpr {options : LoweringOptions} {source : String} {expr : Expr}
    (parsed : Expr.parse source = .ok expr) {error : CompileError}
    (failed : Program.ofExpr options expr = .error error) :
    exists diagnostic, error = .rejected diagnostic ∧ diagnostic.PointsAtLiteral source := by
  have holds := (Cursor.start source).holds_items
  rcases (readFrom_iff holds expr []).mp (parse_eq_ok.mp parsed) with ⟨tokens, split, derived, -⟩
  rw [List.append_nil] at split
  have listed : forall token, token ∈ tokens -> .ok token ∈ (Cursor.start source).items.items := by
    intro token member
    rw [split]
    exact List.mem_map_of_mem member
  have spelled : forall token, token ∈ tokens -> Token.Spelled token :=
    fun token member => holds.isSpelled (listed token member)
  rcases Expr.exists_of_emit_error derived.isWhole (Expr.emit_error_of_ofExpr failed) with
    ⟨constant, text, member, valueless, rejected⟩
  rw [derived.literals_eq spelled] at member
  rcases List.mem_filterMap.mp member with ⟨token, present, found⟩
  rcases written_of_ofToken? (spelled token present) found with ⟨written, line⟩
  rcases exists_span (listed token present) with ⟨before, after, stands, counted⟩
  have scanned : Token.scan source = (tokens ++ [(Cursor.start source).items.ending], none) :=
    Token.untilError_eq.mpr ⟨tokens, split, rfl⟩
  refine ⟨⟨.codegen, constant.line, constant.written, text⟩, rejected, token, constant, before,
    after, ?_, found, ?_, rfl, line, written, stands, counted⟩
  · rw [scanned]
    exact List.mem_append_left _ present
  · rw [valueless, rejected]
    rfl

/-- Reading fails with a diagnostic of the scanner or of the reader. -/
theorem stage_of_parse {source : String} {diagnostic : Diagnostic}
    (failed : Expr.parse source = .error diagnostic) :
    diagnostic.stage = .scan ∨ diagnostic.stage = .parse := by
  rcases exists_boundary source with ⟨before, -, -, ⟨ending, expr, -, -, -, parsed⟩ |
    ⟨-, own, failedOwn, reports⟩⟩
  · cases parsed.symm.trans failed
  · cases failedOwn.symm.trans failed
    cases item : (Cursor.start source).item before.length with
    | error found =>
        rw [item] at reports
        have same : diagnostic = found := reports
        rw [same]
        exact Or.inl (Cursor.stage_of_item item)
    | ok token =>
        rw [item] at reports
        exact Or.inr reports.1

section Stages

variable {options : LoweringOptions} {source : String}

theorem compile_of_parse_error {diagnostic : Diagnostic}
    (refused : Expr.parse source = .error diagnostic) :
    compile options source = .error (.rejected diagnostic) := by
  rw [compile, refused]
  rfl

theorem compile_of_parse_ok {expr : Expr} (parsed : Expr.parse source = .ok expr) :
    compile options source = (Program.ofExpr options expr).map Program.render := by
  rw [compile, parsed]
  cases lowered : Program.ofExpr options expr with
  | error error => simp only [Except.mapError, bind, Except.bind, lowered, Except.map]
  | ok program =>
      simp only [Except.mapError, bind, Except.bind, lowered, Except.map]
      rfl

end Stages

/-- Compiling a text gives a program or a diagnostic.  The diagnostic is that of reading, from the
scanner or the reader, or it points at a literal of the text.  And no tree that can be read makes
lowering fail in any other way. -/
theorem compile_fails_with_diagnostic (options : LoweringOptions) (source : String) :
    ((exists text, compile options source = .ok text) ∨
      exists diagnostic, compile options source = .error (.rejected diagnostic) ∧
        ((Expr.parse source = .error diagnostic ∧
            (diagnostic.stage = .scan ∨ diagnostic.stage = .parse)) ∨
          ((exists expr, Expr.parse source = .ok expr) ∧ diagnostic.PointsAtLiteral source))) ∧
    (forall expr error, Expr.parse source = .ok expr ->
      Program.ofExpr options expr = .error error ->
      exists diagnostic, error = .rejected diagnostic ∧ diagnostic.PointsAtLiteral source) := by
  refine ⟨?_, fun expr error parsed failed => pointsAtLiteral_of_ofExpr parsed failed⟩
  rw [compile]
  cases parsed : Expr.parse source with
  | error diagnostic => exact Or.inr ⟨diagnostic, rfl, Or.inl ⟨rfl, stage_of_parse parsed⟩⟩
  | ok expr =>
      cases lowered : Program.ofExpr options expr with
      | ok program =>
          refine Or.inl ⟨program.render, ?_⟩
          simp only [Except.mapError, bind, Except.bind, lowered]
          rfl
      | error error =>
          rcases pointsAtLiteral_of_ofExpr parsed lowered with ⟨diagnostic, rfl, points⟩
          refine Or.inr ⟨diagnostic, ?_, Or.inr ⟨⟨expr, rfl⟩, points⟩⟩
          simp only [Except.mapError, bind, Except.bind, lowered]

theorem compile_fails_with_diagnostic_string :
    Expr.parse "1 +\n\"a\"" =
        .ok (.binary .add (.literal ⟨.number, "1", 1⟩) (.literal ⟨.string, "a", 2⟩)) ∧
      Diagnostic.PointsAtLiteral "1 +\n\"a\""
        ⟨.codegen, 2, "\"a\"", "String literals cannot be compiled."⟩ := by
  have parsed : Expr.parse "1 +\n\"a\"" =
      .ok (.binary .add (.literal ⟨.number, "1", 1⟩) (.literal ⟨.string, "a", 2⟩)) := by
    decide +kernel
  have failed : Program.ofExpr ⟨true⟩
      (.binary .add (.literal ⟨.number, "1", 1⟩) (.literal ⟨.string, "a", 2⟩)) =
        .error (.rejected ⟨.codegen, 2, "\"a\"", "String literals cannot be compiled."⟩) := by
    rfl
  rcases (compile_fails_with_diagnostic ⟨true⟩ "1 +\n\"a\"").2 _ _ parsed failed with
    ⟨diagnostic, same, points⟩
  cases same
  exact ⟨parsed, points⟩

end LoxNative
