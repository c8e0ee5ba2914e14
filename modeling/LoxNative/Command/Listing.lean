import LoxNative.Command.Report
import LoxNative.Expr.Reader
import LoxNative.Lowering

namespace LoxNative
namespace Listing

/-!
# The listing command

Show every stage of compiling one source: the source itself, its tokens, the expression tree and the
assembly text.  All scan errors are reported together; behind the first stage that fails nothing
more is shown.
-/

/-- The source that is listed when none is given. -/
def sampleSource : String := "-123 * (45 - 1) >= !true\n"

/-- The status of a source that does not compile. -/
def compileFailure : Nat := 65

/-- The listing of the source and its tokens. -/
def tokenPart (source : String) (tokens : List Token) : String :=
  "Source:\n" ++ source ++ "\n" ++ s!"Tokens ({tokens.length})\n" ++
    String.join (tokens.map fun token => "  " ++ token.listed ++ "\n") ++ "\n"

/-- List all stages of a source. -/
def run (options : LoweringOptions) (source : String) : Report :=
  let (tokens, diagnostics) := Token.scanAll source
  let output := tokenPart source tokens
  if !diagnostics.isEmpty then
    { status := compileFailure, output,
      errors := String.join (diagnostics.map fun diagnostic =>
        "lex error: " ++ diagnostic.message ++ "\n") }
  else
    match Expr.parse source with
    | .error diagnostic =>
        { status := compileFailure, output,
          errors := "parse error: " ++ diagnostic.message ++ "\n" }
    | .ok expr =>
        let output := output ++ "AST\n  " ++ expr.render ++ "\n\n"
        match Program.ofExpr options expr with
        | .error error =>
            { status := compileFailure, output,
              errors := "codegen error: " ++ error.message ++ "\n" }
        | .ok program => { output := output ++ "Generated Assembly\n" ++ program.render }

/-- The report on a source that cannot be read. -/
def unreadable (reason : String) : Report :=
  { status := 1, errors := "read error: " ++ reason ++ "\n" }

end Listing
end LoxNative
