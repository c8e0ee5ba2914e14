import LoxNative.Command.Report
import LoxNative.Compilation
import LoxNative.Text.Pieces

namespace LoxNative
namespace Session

/-!
# The session command

Evaluate an expression on every line of the input: show its tree and then its value, or the
complaint.  Empty lines are skipped.  A line that is too long for the input buffer ends the session.
-/

/-- The number of bytes that are too many for one line. -/
def lineLimit : Nat := 65536

/-- A line without one carriage return at its end. -/
def withoutReturn (line : List UInt8) : List UInt8 :=
  if line.getLast? = some 0x0D then line.dropLast else line

/-- The lines of an input.  What follows the last line break is a line only if it is not empty. -/
def lines (input : List UInt8) : List (List UInt8) :=
  let all := Text.pieces 0x0A input
  if all.getLast? = some [] then all.dropLast else all

/-- What is shown for one line. -/
def evaluateLine (source : String) : String :=
  match Expr.parse source with
  | .error diagnostic => diagnostic.message ++ "\n"
  | .ok expr =>
      expr.render ++ "\n" ++
        match evaluate {} source with
        | .error error => error.message ++ "\n"
        | .ok outcome =>
            match outcome.error?, outcome.machine? with
            | some reason, _ => reason ++ "\n"
            | none, some machine =>
                s!"= {machine.exitStatus.toInt64.toInt} (exit {machine.exitCode})\n"
            | none, none => ""

/-- Evaluate lines behind what has been shown already. -/
def runLines (shown : String) : List (List UInt8) -> Report
  | [] => { output := shown }
  | line :: rest =>
      if lineLimit ≤ line.length then
        { status := 1, output := shown, errors := "read error: bufio.Scanner: token too long\n" }
      else
        let source := Text.ofBytes (withoutReturn line)
        runLines (if source.isEmpty then shown else shown ++ evaluateLine source) rest

/-- The whole session. -/
def run (input : List UInt8) : Report :=
  runLines "" (lines input)

end Session
end LoxNative
