import LoxNative.Assembly
import LoxNative.Expr.Reader
import LoxNative.Lowering
import LoxNative.Machine.Execution

namespace LoxNative

/-!
# Compiling and running

The whole way from a source text to the machine: compile it to assembly text, assemble that text,
and run the code.  The value of the expression is the machine's exit status.
-/

/-- Compile a source text to assembly text. -/
def compile (options : LoweringOptions) (source : String) : Except CompileError String := do
  let expr <- (Expr.parse source).mapError .rejected
  return (<- Program.ofExpr options expr).render

/-- How an attempt to run assembly text ended. -/
inductive Outcome
  | notAssembled (error : AssemblyError)
  /-- The text does not define the entry point. -/
  | noEntry
  | notLoaded (error : LoadError)
  /-- The machine ran until it halted. -/
  | halted (machine : Machine)
  /-- The machine crashed. -/
  | crashed (machine : Machine)

namespace Outcome

/-- How a run ended. -/
def ofRun : Attempt Unit -> Outcome
  | .completed _ machine => halted machine
  | .crashed machine => crashed machine

/-- The machine, if there was one. -/
def machine? : Outcome -> Option Machine
  | halted machine | crashed machine => some machine
  | _ => none

/-- What went wrong, if anything did. -/
def error? : Outcome -> Option String
  | notAssembled error => some ("assembly error: " ++ error.message)
  | noEntry => some s!"assembly error: no {Program.entryPoint} label"
  | notLoaded error => some error.message
  | halted machine => machine.fault.map fun fault => "run error: " ++ fault.message
  | crashed _ => some "run error: crash"

end Outcome

/-- Assemble a text and run it from its entry point on a new machine. -/
def execute (text : AssemblyText) : Outcome :=
  match Assembly.ofText text with
  | .error error => .notAssembled error
  | .ok assembly =>
      match Assembly.labelOffset? assembly.labels Program.entryPoint with
      | none => .noEntry
      | some entry =>
          match Machine.initial.load assembly.code entry with
          | .error error => .notLoaded error
          | .ok machine => .ofRun (machine.attemptRun machine.limit)

/-- Compile a source text and run it. -/
def evaluate (options : LoweringOptions) (source : String) : Except CompileError Outcome := do
  return execute (Text.glyphs (<- compile options source))

end LoxNative
