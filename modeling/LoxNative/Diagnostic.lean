namespace LoxNative

/-!
# Diagnostics

What the compiler tells the author of a source text.  A diagnostic names the stage that rejected the
text, the line, and the piece of text at fault: nothing while scanning, the offending lexeme while
parsing, and the literal that cannot be lowered while generating code.
-/

/-- The stage that rejected a source text. -/
inductive Stage
  | scan
  | parse
  | codegen
deriving DecidableEq, Inhabited

namespace Stage

/-- The stages in the order of their numbers. -/
def all : List Stage :=
  [.scan, .parse, .codegen]

/-- The name of a stage's errors. -/
def name : Stage -> String
  | .scan => "scan error"
  | .parse => "parse error"
  | .codegen => "codegen error"

/-- The text shown for a stage number, which need not belong to any stage. -/
def nameOfCode (code : Int) : String :=
  match (if code < 0 then none else all[code.toNat]?) with
  | some stage => stage.name
  | none => s!"ErrorKind({code})"

end Stage

/-- A complaint about a source text. -/
structure Diagnostic where
  stage : Stage
  line : Int
  location : String
  text : String
deriving DecidableEq, Inhabited

namespace Diagnostic

/-- The location of a complaint about the end of the source. -/
def atEnd : String := " at end"

/-- The full wording of a diagnostic. -/
def message (diagnostic : Diagnostic) : String :=
  s!"[line {diagnostic.line}] Error {diagnostic.location}: {diagnostic.text}"

end Diagnostic

end LoxNative
