import Mathlib
import LoxNative.Proofs.CompileDiagnostics

namespace LoxNative

/-!
# Layout does not matter

Two texts with the same tokens differ in blanks, comments and line breaks, and so in nothing but the
lines of their tokens.  Lines are carried along into literals, trees and diagnostics, but no stage
ever looks at one.

This is shown by taking the lines away.  Every stage gives the same without lines as it gives with
them, once they are taken away from its result too.  The two texts then go through the same stages
with the same tokens, and what they come to differs at most in the line of a diagnostic.
-/

/-! ## Taking lines away -/

/-- A token without its line. -/
def Token.unplaced (token : Token) : Token :=
  { token with line := 0 }

/-- A literal without its line. -/
def Literal.unplaced (constant : Literal) : Literal :=
  { constant with line := 0 }

/-- A diagnostic without its line. -/
def Diagnostic.unplaced (diagnostic : Diagnostic) : Diagnostic :=
  { diagnostic with line := 0 }

/-- An error without its line, if it has one. -/
def CompileError.unplaced : CompileError -> CompileError
  | .rejected diagnostic => .rejected diagnostic.unplaced
  | error => error

/-- An item without its line. -/
def Cursor.unplaced : Item -> Item
  | .ok token => .ok token.unplaced
  | .error diagnostic => .error diagnostic.unplaced

namespace Expr

/-- A tree without the lines of its literals. -/
def unplaced : Expr -> Expr
  | .missing => .missing
  | .literal constant => .literal constant.unplaced
  | .unary op right => .unary op right.unplaced
  | .binary op left right => .binary op left.unplaced right.unplaced
  | .group inner => .group inner.unplaced

/-- A frame without lines. -/
def Frame.unplaced : Frame -> Frame
  | .group => .group
  | .unary op => .unary op
  | .binary op left => .binary op left.unplaced

/-- A state of the automaton without lines. -/
def Reading.unplaced : Reading -> Reading
  | .operand frames => .operand (frames.map Frame.unplaced)
  | .operator frames value => .operator (frames.map Frame.unplaced) value.unplaced

/-- What reading came to, without lines. -/
def unplacedResult : Except Diagnostic Expr -> Except Diagnostic Expr
  | .ok expr => .ok expr.unplaced
  | .error diagnostic => .error diagnostic.unplaced

end Expr

theorem Diagnostic.unplaced_eq_iff {first second : Diagnostic} :
    first.unplaced = second.unplaced <->
      first.stage = second.stage ∧ first.location = second.location ∧ first.text = second.text := by
  rw [unplaced, unplaced, Diagnostic.mk.injEq]
  exact ⟨fun same => ⟨same.1, same.2.2⟩, fun same => ⟨same.1, rfl, same.2⟩⟩

/-! ## Reading -/

theorem Literal.ofToken?_unplaced (token : Token) :
    ofToken? token.unplaced = (ofToken? token).map Literal.unplaced := by
  rcases token with ⟨kind, lexeme, line⟩
  cases kind <;> rfl

namespace Expr

theorem complete_unplaced (level : Nat) (frames : List Frame) (value : Expr) :
    complete level (frames.map Frame.unplaced) value.unplaced =
      ((complete level frames value).1.map Frame.unplaced,
        (complete level frames value).2.unplaced) := by
  induction frames generalizing value with
  | nil => rfl
  | cons frame frames ih =>
      cases frame with
      | group => rfl
      | unary op => exact ih (.unary op value)
      | binary op left =>
          rw [List.map_cons, Frame.unplaced, complete, complete]
          by_cases tight : level ≤ op.level
          · rw [if_pos tight, if_pos tight]
            exact ih (.binary op left value)
          · rw [if_neg tight, if_neg tight]
            rfl

namespace Reading

/-- Whether a token can be taken does not depend on lines. -/
theorem shift?_unplaced (token : Token) (reading : Reading) :
    reading.unplaced.shift? token.unplaced = (reading.shift? token).map Reading.unplaced := by
  have kind : token.unplaced.kind = token.kind := rfl
  cases reading with
  | operand frames =>
      rw [unplaced, shift?, shift?, Literal.ofToken?_unplaced, kind]
      cases Literal.ofToken? token with
      | some constant => rfl
      | none =>
          cases UnaryOp.ofKind? token.kind with
          | some op => rfl
          | none =>
              by_cases opens : token.kind = .leftParen
              · simp only [Option.map_none, if_pos opens]
                rfl
              · simp only [Option.map_none, if_neg opens]
  | operator frames value =>
      rw [unplaced, shift?, shift?, kind]
      cases BinaryOp.ofKind? token.kind with
      | some op =>
          simp only [complete_unplaced]
          rfl
      | none =>
          simp only [complete_unplaced]
          rcases complete 0 frames value with ⟨completed, whole⟩
          cases completed with
          | nil => rfl
          | cons frame rest =>
              cases frame with
              | group =>
                  by_cases closes : token.kind = .rightParen
                  · simp only [List.map_cons, Frame.unplaced, if_pos closes]
                    rfl
                  · simp only [List.map_cons, Frame.unplaced, if_neg closes, Option.map_none]
              | _ => rfl

theorem finish_unplaced (reading : Reading) :
    reading.unplaced.finish = reading.finish.map Expr.unplaced := by
  cases reading with
  | operand frames => rfl
  | operator frames value =>
      rw [unplaced, finish, finish]
      simp only [complete_unplaced]
      rcases complete 0 frames value with ⟨_ | ⟨_ | _ | _, rest⟩, whole⟩ <;> rfl

end Reading

/-- What is read at the end of an expression, or complained about, does not depend on lines. -/
theorem finish_complaint_unplaced (reading : Reading) (token : Token) :
    reading.unplaced.finish.mapError (complaint token.unplaced) =
      unplacedResult (reading.finish.mapError (complaint token)) := by
  rw [Reading.finish_unplaced]
  cases reading.finish <;> rfl

/-- Reading without lines.  The induction is over the items, with the automaton in any state. -/
theorem readFrom_unplaced (ending : Token) (reading : Reading) (items : List Item) :
    readFrom ending.unplaced reading.unplaced (items.map Cursor.unplaced) =
      (unplacedResult (readFrom ending reading items).1,
        (readFrom ending reading items).2.map Cursor.unplaced) := by
  induction items generalizing reading with
  | nil =>
      rw [List.map_nil, readFrom, readFrom, finish_complaint_unplaced]
      rfl
  | cons item items ih =>
      cases item with
      | error diagnostic => rfl
      | ok token =>
          rw [List.map_cons, Cursor.unplaced, readFrom, readFrom, Reading.shift?_unplaced]
          cases reading.shift? token with
          | some next => exact ih next
          | none =>
              simp only [Option.map_none, finish_complaint_unplaced]
              rfl

end Expr

theorem Grammar.conclude_unplaced (result : Except Diagnostic Expr) (rest : List Item) :
    conclude (Expr.unplacedResult result, rest.map Cursor.unplaced) =
      Expr.unplacedResult (conclude (result, rest)) := by
  rcases result with diagnostic | expr
  · rfl
  · rcases rest with _ | ⟨diagnostic | token, rest⟩ <;> rfl

/-! ## Lowering -/

theorem Literal.value_unplaced (constant : Literal) :
    constant.unplaced.value = constant.value.mapError CompileError.unplaced := by
  rcases constant with ⟨kind, raw, line⟩
  cases kind with
  | number =>
      have stripped : unplaced ⟨.number, raw, line⟩ = ⟨.number, raw, 0⟩ := rfl
      rw [stripped]
      by_cases fraction : (!isInteger raw) = true
      · simp only [value, if_pos fraction]
        rfl
      · by_cases small : decimalValue raw < 0x100000000
        · simp only [value, if_neg fraction, if_pos small]
          rfl
        · simp only [value, if_neg fraction, if_neg small]
          rfl
  | _ => rfl

namespace Expr

theorem ungrouped_unplaced (expr : Expr) : expr.unplaced.ungrouped = expr.ungrouped.unplaced := by
  induction expr with
  | group inner ih => exact ih
  | _ => rfl

theorem literalValue?_unplaced (expr : Expr) :
    expr.unplaced.literalValue? = expr.literalValue? := by
  rw [literalValue?, literalValue?, ungrouped_unplaced]
  cases expr.ungrouped with
  | literal constant =>
      simp only [unplaced, Literal.value_unplaced]
      cases constant.value <;> rfl
  | _ => rfl

theorem emit_unplaced (options : LoweringOptions) (expr : Expr) (done : Array Idiom) :
    expr.unplaced.emit options done = (expr.emit options done).mapError CompileError.unplaced := by
  induction expr generalizing done with
  | missing => rfl
  | literal constant =>
      rw [unplaced, emit, emit, Literal.value_unplaced]
      cases constant.value <;> rfl
  | group inner ih => exact ih done
  | unary op right ih =>
      rw [unplaced, emit, emit, ih]
      cases right.emit options done with
      | error error => rfl
      | ok half => cases op <;> rfl
  | binary op left right ihLeft ihRight =>
      have same : constantIdiom? op left.unplaced right.unplaced =
          constantIdiom? op left right := by
        rw [constantIdiom?, constantIdiom?, literalValue?_unplaced, literalValue?_unplaced]
      rw [unplaced, emit, emit, same, ihLeft]
      split
      · rfl
      · cases left.emit options done with
        | error error => rfl
        | ok half =>
            change (right.unplaced.emit options half >>= _) =
              (right.emit options half >>= _).mapError CompileError.unplaced
            rw [ihRight]
            cases right.emit options half with
            | error error => rfl
            | ok out => cases op <;> rfl

end Expr

namespace Program

/-- The program around the code of an expression, which must leave one value on the stack. -/
def around (body : Array Idiom) : Except CompileError Program :=
  if depth body = 1 then
    .ok (ofIdioms (body.toList ++ [.popRegister .rax, .exit (some (.register .rax))]))
  else .error (.unbalancedStack (depth body))

theorem ofExpr_eq_around {options : LoweringOptions} {expr : Expr}
    (other : options.optimize = false ∨ forall constant, expr.ungrouped ≠ .literal constant) :
    ofExpr options expr = expr.emit options #[] >>= around := by
  unfold ofExpr
  split
  · rename_i constant optimized same
    rcases other with plain | notLiteral
    · cases optimized.symm.trans plain
    · exact absurd same (notLiteral constant)
  · rfl

theorem ofExpr_eq_exit {options : LoweringOptions} {expr : Expr} {constant : Literal}
    (optimized : options.optimize = true) (same : expr.ungrouped = .literal constant) :
    ofExpr options expr = constant.value.map fun value =>
      ofIdioms [.exit (some (.immediate value))] := by
  rw [ofExpr, optimized, same]
  change (constant.value >>= fun value => pure (ofIdioms [.exit (some (.immediate value))])) = _
  cases constant.value <;> rfl

theorem around_unplaced (body : Array Idiom) :
    (around body).mapError CompileError.unplaced = around body := by
  rw [around]
  split <;> rfl

/-- The program of a tree does not depend on lines. -/
theorem ofExpr_unplaced (options : LoweringOptions) (expr : Expr) :
    ofExpr options expr.unplaced = (ofExpr options expr).mapError CompileError.unplaced := by
  have onStack (other : options.optimize = false ∨ forall constant,
      expr.ungrouped ≠ .literal constant)
      (unplacedOther : options.optimize = false ∨ forall constant,
        expr.unplaced.ungrouped ≠ .literal constant) :
      ofExpr options expr.unplaced = (ofExpr options expr).mapError CompileError.unplaced := by
    rw [ofExpr_eq_around other, ofExpr_eq_around unplacedOther, Expr.emit_unplaced]
    cases expr.emit options #[] with
    | error error => rfl
    | ok body => exact (around_unplaced body).symm
  -- Taking lines away makes no tree a literal, so both sides take the same way.
  cases optimized : options.optimize with
  | false => exact onStack (Or.inl optimized) (Or.inl optimized)
  | true =>
      cases same : expr.ungrouped with
      | literal constant =>
          have unplacedSame : expr.unplaced.ungrouped = .literal constant.unplaced := by
            rw [Expr.ungrouped_unplaced, same]
            rfl
          rw [ofExpr_eq_exit optimized same, ofExpr_eq_exit optimized unplacedSame,
            Literal.value_unplaced]
          cases constant.value <;> rfl
      | _ =>
          refine onStack (Or.inr ?_) (Or.inr ?_)
          · rw [same]
            exact nofun
          · rw [Expr.ungrouped_unplaced, same]
            exact nofun

end Program

/-! ## Compiling -/

/-- What the items of a text compile to. -/
def compileItems (options : LoweringOptions) (ending : Token) (items : List Item) :
    Except CompileError String :=
  match Grammar.conclude (Expr.readFrom ending .start items) with
  | .error diagnostic => .error (.rejected diagnostic)
  | .ok expr => (Program.ofExpr options expr).map Program.render

theorem compile_eq (options : LoweringOptions) (source : String) :
    compile options source =
      compileItems options (Cursor.start source).items.ending
        (Cursor.start source).items.items := by
  have parsed := Grammar.parse_eq_conclude source
  rw [compileItems, <- parsed]
  cases read : Expr.parse source with
  | error diagnostic => exact compile_of_parse_error read
  | ok expr => exact compile_of_parse_ok read

theorem compileItems_unplaced (options : LoweringOptions) (ending : Token) (items : List Item) :
    compileItems options ending.unplaced (items.map Cursor.unplaced) =
      (compileItems options ending items).mapError CompileError.unplaced := by
  have start : Expr.Reading.start.unplaced = .start := rfl
  have read := Expr.readFrom_unplaced ending .start items
  rw [start] at read
  rw [compileItems, compileItems, read, Grammar.conclude_unplaced]
  cases Grammar.conclude (Expr.readFrom ending .start items) with
  | error diagnostic => rfl
  | ok expr =>
      simp only [Expr.unplacedResult, Program.ofExpr_unplaced]
      cases Program.ofExpr options expr <;> rfl

/-- Results that are the same without lines are one value, or errors that are the same without
lines. -/
theorem cases_of_unplaced_eq {Result : Type} {first second : Except CompileError Result}
    (alike : first.mapError CompileError.unplaced = second.mapError CompileError.unplaced) :
    (exists result, first = .ok result ∧ second = .ok result) ∨
      exists here there : CompileError, first = .error here ∧ second = .error there ∧
        here.unplaced = there.unplaced := by
  cases first with
  | ok result =>
      cases second with
      | ok other =>
          cases alike
          exact Or.inl ⟨result, rfl, rfl⟩
      | error there => cases alike
  | error here =>
      cases second with
      | ok other => cases alike
      | error there => exact Or.inr ⟨here, there, rfl, rfl, Except.error.inj alike⟩

/-- Compiling fails with diagnostics only. -/
theorem exists_rejected_of_compile {options : LoweringOptions} {source : String}
    {error : CompileError}
    (failed : compile options source = .error error) :
    exists diagnostic, error = .rejected diagnostic := by
  cases parsed : Expr.parse source with
  | error diagnostic =>
      cases (compile_of_parse_error parsed).symm.trans failed
      exact ⟨diagnostic, rfl⟩
  | ok expr =>
      rw [compile_of_parse_ok parsed] at failed
      cases lowered : Program.ofExpr options expr with
      | error own =>
          rw [lowered] at failed
          cases failed
          rcases pointsAtLiteral_of_ofExpr parsed lowered with ⟨diagnostic, same, -⟩
          exact ⟨diagnostic, same⟩
      | ok program =>
          rw [lowered] at failed
          cases failed

/-- The items of a text that can be scanned are known, up to lines, from the kinds and lexemes of
its tokens. -/
theorem unplaced_items_of_scan {source : String} (scans : (Token.scan source).2 = none) :
    (Cursor.start source).items.items.map Cursor.unplaced =
      ((Token.scan source).1.map fun token => (token.kind, token.lexeme)).dropLast.map
        fun (kind, lexeme) => .ok ⟨kind, lexeme, 0⟩ := by
  have scanned :
      Token.untilError (Cursor.start source).items.ending (Cursor.start source).items.items =
        ((Token.scan source).1, none) := Prod.ext rfl scans
  rcases Token.untilError_eq.mp scanned with ⟨tokens, isItems, isTokens⟩
  rw [isItems, isTokens, <- List.map_dropLast, List.dropLast_concat, List.map_map, List.map_map]
  rfl

/-- Layout does not change compiling.  Two texts that can be scanned and have tokens of the same
kinds with the same lexemes, in the same order, are both compiled to one text, or both refused with
diagnostics of one stage, at one location and with one wording.  The diagnostics differ at most in
their line. -/
theorem layout_does_not_change_compiling (options : LoweringOptions) {first second : String}
    (firstScans : (Token.scan first).2 = none) (secondScans : (Token.scan second).2 = none)
    (same : (Token.scan first).1.map (fun token => (token.kind, token.lexeme)) =
      (Token.scan second).1.map fun token => (token.kind, token.lexeme)) :
    (exists text, compile options first = .ok text ∧ compile options second = .ok text) ∨
      exists here there : Diagnostic, compile options first = .error (.rejected here) ∧
        compile options second = .error (.rejected there) ∧ here.stage = there.stage ∧
        here.location = there.location ∧ here.text = there.text := by
  have sameItems : (Cursor.start first).items.items.map Cursor.unplaced =
      (Cursor.start second).items.items.map Cursor.unplaced := by
    rw [unplaced_items_of_scan firstScans, unplaced_items_of_scan secondScans, same]
  have sameEnding :
      (Cursor.start first).items.ending.unplaced = (Cursor.start second).items.ending.unplaced :=
    rfl
  have alike : (compile options first).mapError CompileError.unplaced =
      (compile options second).mapError CompileError.unplaced := by
    rw [compile_eq, compile_eq, <- compileItems_unplaced, <- compileItems_unplaced, sameItems,
      sameEnding]
  rcases cases_of_unplaced_eq alike with
    compiled | ⟨here, there, failedFirst, failedSecond, sameError⟩
  · exact Or.inl compiled
  · rcases exists_rejected_of_compile failedFirst with ⟨here, rfl⟩
    rcases exists_rejected_of_compile failedSecond with ⟨there, rfl⟩
    have sameDiagnostic := Diagnostic.unplaced_eq_iff.mp (CompileError.rejected.inj sameError)
    exact Or.inr ⟨here, there, failedFirst, failedSecond, sameDiagnostic⟩

/-- One refused literal, on the first line of one text and on the fourth line of the other. -/
theorem layout_does_not_change_compiling_comment :
    let first := "1 + \"a\""
    let second := "1 // one\n+\n\n\"a\""
    (Token.scan first).2 = none ∧ (Token.scan second).2 = none ∧
      (Token.scan first).1.map (fun token => (token.kind, token.lexeme)) =
        (Token.scan second).1.map (fun token => (token.kind, token.lexeme)) ∧
      compile ⟨true⟩ first =
        .error (.rejected ⟨.codegen, 1, "\"a\"", "String literals cannot be compiled."⟩) ∧
      exists line, compile ⟨true⟩ second =
        .error (.rejected ⟨.codegen, line, "\"a\"", "String literals cannot be compiled."⟩) := by
  intro first second
  have firstScans : (Token.scan first).2 = none := by decide +kernel
  have secondScans : (Token.scan second).2 = none := by decide +kernel
  have same : (Token.scan first).1.map (fun token => (token.kind, token.lexeme)) =
      (Token.scan second).1.map (fun token => (token.kind, token.lexeme)) := by
    decide +kernel
  have refused : compile ⟨true⟩ first =
      .error (.rejected ⟨.codegen, 1, "\"a\"", "String literals cannot be compiled."⟩) := by
    decide +kernel
  refine ⟨firstScans, secondScans, same, refused, ?_⟩
  rcases layout_does_not_change_compiling ⟨true⟩ firstScans secondScans same with
    ⟨text, compiled, -⟩ | ⟨here, ⟨stage, line, location, text⟩, isHere, isThere, sameStage,
      sameLocation, sameText⟩
  · cases refused.symm.trans compiled
  · cases refused.symm.trans isHere
    cases sameStage
    cases sameLocation
    cases sameText
    exact ⟨line, isThere⟩

end LoxNative
