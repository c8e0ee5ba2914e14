import Mathlib
import LoxNative.Command.Listing
import LoxNative.Proofs.CompileDiagnostics
import LoxNative.Proofs.ScanAgreement

namespace LoxNative

/-!
# Listing agrees with compiling

The listing goes through the stages one by one, and scans the whole text before it reads anything.
Compiling reads while it scans, and stops at the first complaint of either kind.  So the listing
gives up on some texts before it reads them, and it has to be shown that compiling would have
refused them as well: reading succeeds only at the end of the input, and by then it has come past
every character.
-/

section Stages

variable {source : String}

/-- A text that can be read has no diagnostic of the scanner anywhere. -/
theorem scanAll_of_parse {expr : Expr} (parsed : Expr.parse source = .ok expr) :
    (Token.scanAll source).2 = [] := by
  have holds := (Cursor.start source).holds_items
  rcases (Grammar.readFrom_iff holds expr []).mp (Grammar.parse_eq_ok.mp parsed) with
    ⟨tokens, split, -, -⟩
  rw [Token.scanAll_eq, split, Token.complaints_append]
  rfl

/-- Wherever the scanner finds something to complain about, reading fails. -/
theorem exists_parse_error (found : (Token.scanAll source).2 ≠ []) :
    exists diagnostic, Expr.parse source = .error diagnostic := by
  cases parsed : Expr.parse source with
  | error diagnostic => exact ⟨diagnostic, rfl⟩
  | ok expr => exact absurd (scanAll_of_parse parsed) found

end Stages

namespace Listing

/-- How a listing ends: with the assembly text behind the earlier stages, or with the status of a
failure when there is none. -/
inductive Ends (report : Report) : Except CompileError String -> Prop
  | shown {text : String} (front : String) (succeeded : report.status = 0)
      (shown : report.output = front ++ "Generated Assembly\n" ++ text)
      (silent : report.errors = "") :
      Ends report (.ok text)
  | refused (error : CompileError) (failed : report.status = compileFailure) :
      Ends report (.error error)

/-- A listing ends as compiling does.  The cases follow the stages. -/
theorem run_ends (options : LoweringOptions) (source : String) :
    Ends (run options source) (compile options source) := by
  rcases scanned : Token.scanAll source with ⟨tokens, diagnostics⟩
  unfold run
  rw [scanned]
  cases diagnostics with
  | cons first others =>
      have found : (Token.scanAll source).2 ≠ [] := by
        rw [scanned]
        exact List.cons_ne_nil first others
      rcases exists_parse_error found with ⟨diagnostic, refused⟩
      rw [compile_of_parse_error refused]
      exact .refused _ rfl
  | nil =>
      cases parsed : Expr.parse source with
      | error diagnostic =>
          rw [compile_of_parse_error parsed]
          exact .refused _ rfl
      | ok expr =>
          rw [compile_of_parse_ok parsed]
          cases lowered : Program.ofExpr options expr with
          | error error =>
              simp only [lowered]
              exact .refused _ rfl
          | ok program =>
              simp only [lowered]
              refine .shown
                (tokenPart source tokens ++ "AST\n  " ++ expr.render ++ "\n\n") rfl ?_ rfl
              rfl

/-- Listing a text agrees with compiling it.  The status is zero exactly if the text compiles, and
is that of a failure otherwise.  What is shown of a text that compiles ends with the assembly text,
and nothing is reported as an error.  And a text in which the scanner finds anything to complain
about is not compiled: it is not even read. -/
theorem listing_agrees_with_compiling (options : LoweringOptions) (source : String) :
    let report := run options source
    (report.status = 0 <-> exists text, compile options source = .ok text) ∧
    (report.status = 65 <-> exists error, compile options source = .error error) ∧
    (forall text, compile options source = .ok text ->
      report.errors = "" ∧ exists front, report.output = front ++ "Generated Assembly\n" ++ text) ∧
    ((Token.scanAll source).2 ≠ [] -> exists diagnostic, Expr.parse source = .error diagnostic ∧
      compile options source = .error (.rejected diagnostic)) := by
  intro report
  have ends := run_ends options source
  have notRead : (Token.scanAll source).2 ≠ [] -> exists diagnostic,
      Expr.parse source = .error diagnostic ∧
      compile options source = .error (.rejected diagnostic) := by
    intro found
    rcases exists_parse_error found with ⟨diagnostic, refused⟩
    exact ⟨diagnostic, refused, compile_of_parse_error refused⟩
  cases compiled : compile options source with
  | ok text =>
      rw [compiled] at ends notRead
      cases ends with
      | shown front succeeded shown silent =>
          refine ⟨⟨fun _ => ⟨text, rfl⟩, fun _ => succeeded⟩, ⟨?_, nofun⟩, ?_, notRead⟩
          · intro failed
            cases succeeded.symm.trans failed
          · intro same isText
            cases isText
            exact ⟨silent, front, shown⟩
  | error error =>
      rw [compiled] at ends notRead
      cases ends with
      | refused _ failed =>
          refine ⟨⟨?_, nofun⟩, ⟨fun _ => ⟨error, rfl⟩, fun _ => failed⟩, nofun, notRead⟩
          intro succeeded
          cases succeeded.symm.trans failed

/-- A text that compiles, and one that is refused for its second token, in front of a character that
starts none. -/
theorem listing_agrees_with_compiling_behind :
    (exists text front, compile ⟨true⟩ "1 + 2" = .ok text ∧ (run ⟨true⟩ "1 + 2").status = 0 ∧
      (run ⟨true⟩ "1 + 2").output = front ++ "Generated Assembly\n" ++ text) ∧
    (Token.scanAll "1 2 ?").2 = [⟨.scan, 1, "", "Unexpected character '?'."⟩] ∧
    compile ⟨true⟩ "1 2 ?" = .error (.rejected ⟨.parse, 1, "2", "Expect end of expression."⟩) ∧
    (run ⟨true⟩ "1 2 ?").status = 65 := by
  have accepted : (compile ⟨true⟩ "1 + 2").toOption.isSome = true := by decide +kernel
  have complaints : (Token.scanAll "1 2 ?").2 = [⟨.scan, 1, "", "Unexpected character '?'."⟩] := by
    decide +kernel
  have offence : Expr.parse "1 2 ?" = .error ⟨.parse, 1, "2", "Expect end of expression."⟩ := by
    decide +kernel
  rcases listing_agrees_with_compiling ⟨true⟩ "1 + 2" with ⟨succeeds, -, shows, -⟩
  rcases listing_agrees_with_compiling ⟨true⟩ "1 2 ?" with ⟨-, fails, -, notRead⟩
  rcases notRead (by rw [complaints]; exact List.cons_ne_nil _ _) with ⟨diagnostic, refused, failed⟩
  cases offence.symm.trans refused
  refine ⟨?_, complaints, failed, fails.mpr ⟨_, failed⟩⟩
  cases compiled : compile ⟨true⟩ "1 + 2" with
  | error error =>
      rw [compiled] at accepted
      cases accepted
  | ok text =>
      rcases shows text compiled with ⟨-, front, shown⟩
      exact ⟨text, front, rfl, succeeds.mpr ⟨text, compiled⟩, shown⟩

end Listing
end LoxNative
