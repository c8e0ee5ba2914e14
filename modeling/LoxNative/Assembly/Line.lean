import LoxNative.Assembly.Error
import LoxNative.Text.Blank
import LoxNative.Text.DecimalDigit
import LoxNative.Text.Glyph
import LoxNative.Text.Letter
import LoxNative.Text.LetterCase
import LoxNative.Text.Pieces

namespace LoxNative

/-!
# Lines of assembly text

A line holds any number of labels, each ended by a colon, then at most one statement, and a comment
from the first semicolon on.  A statement is a mnemonic, in either case, and its operands between
commas.  The operands are only cut out here; what they mean depends on the labels of the whole text.
-/

/-- A piece of assembly text, which may contain stray bytes. -/
abbrev AssemblyText := List Text.Glyph

namespace AssemblyText

/-- The pieces of a text between occurrences of a character. -/
def pieces (separator : Char) (text : AssemblyText) : List AssemblyText :=
  Text.pieces (.char separator) text

/-- Whether a glyph is white space. -/
def isBlank : Text.Glyph -> Bool
  | .char c => Text.isBlank c
  | .stray _ => false

/-- Text without white space at its ends. -/
def trim (text : AssemblyText) : AssemblyText :=
  ((text.dropWhile isBlank).reverse.dropWhile isBlank).reverse

/-- Text in upper case, as it is shown. -/
def upperCase (text : AssemblyText) : String :=
  String.ofList (text.map fun glyph => Text.upperCase glyph.shown)

/-- Text in lower case, for comparison with names spelled in ASCII. -/
def lowerCase (text : AssemblyText) : String :=
  String.ofList (text.map fun glyph => Text.asciiLowerCase glyph.shown)

/-- The characters of a text without stray bytes. -/
def chars? (text : AssemblyText) : Option (List Char) :=
  text.mapM Text.Glyph.char?

/-- Whether a glyph can begin an identifier. -/
def isIdentifierStart : Text.Glyph -> Bool
  | .char c => Text.isLetter c || c == '_' || c == '.'
  | .stray _ => false

/-- Whether a glyph can continue an identifier. -/
def isIdentifierPart : Text.Glyph -> Bool
  | .char c => Text.isLetter c || Text.isDecimalDigit c || c == '_' || c == '.' || c == '$'
  | .stray _ => false

/-- Whether a text is an identifier, as labels are. -/
def isIdentifier : AssemblyText -> Bool
  | [] => false
  | first :: rest => isIdentifierStart first && rest.all isIdentifierPart

end AssemblyText

/-- A mnemonic in upper case and the texts of its operands. -/
structure Statement where
  mnemonic : String
  operands : List AssemblyText
deriving DecidableEq, Inhabited

namespace Statement

open AssemblyText

/-- Whether a glyph ends the mnemonic. -/
def endsMnemonic (glyph : Text.Glyph) : Bool :=
  glyph == .char ' ' || glyph == .char '\t'

/-- Cut operands out of the text behind a mnemonic. -/
def splitOperands (text : AssemblyText) : List AssemblyText :=
  match trim text with
  | [] => []
  | text => (pieces ',' text).map trim

/-- The statement in a text without white space at its ends. -/
def ofText (text : AssemblyText) : Statement where
  mnemonic := upperCase (text.takeWhile (!endsMnemonic ·))
  operands := splitOperands ((text.dropWhile (!endsMnemonic ·)).drop 1)

/-- The directives, which are accepted and produce no code. -/
def directives : List String :=
  ["SECTION", "GLOBAL", "BITS", "DEFAULT"]

/-- Whether a statement is a directive. -/
def isDirective (statement : Statement) : Bool :=
  directives.contains statement.mnemonic

end Statement

/-- The labels and the statement of one line. -/
structure Line where
  labels : List String
  statement : Option Statement
deriving DecidableEq, Inhabited

namespace Line

open AssemblyText

/-- The statement in a text, if it is not empty. -/
def statementOf (text : AssemblyText) : Option Statement :=
  match trim text with
  | [] => none
  | text => some (.ofText text)

/-- Whether the text before a colon cannot be meant as a label, so that the colon belongs to the
statement. -/
def refusesLabel (text : AssemblyText) : Bool :=
  text.isEmpty || text.any fun glyph =>
    glyph == .char ' ' || glyph == .char '\t' || glyph == .char '['

/-- Read the pieces of a line between its colons.  Labels are taken from the front as long as they
are meant as labels; everything behind them is the statement. -/
def ofPieces : List AssemblyText -> Except AssemblyFault Line
  | [] => .ok ⟨[], none⟩
  | [last] => .ok ⟨[], statementOf last⟩
  | piece :: rest => do
      let name := trim piece
      if refusesLabel name then
        return ⟨[], statementOf (List.intercalate [.char ':'] (piece :: rest))⟩
      else if isIdentifier name then
        let line <- ofPieces rest
        return { line with labels := Text.shown name :: line.labels }
      else
        throw (.invalidLabel (Text.shown name))

/-- A line without its comment. -/
def withoutComment (text : AssemblyText) : AssemblyText :=
  text.takeWhile (· != .char ';')

/-- Read one line. -/
def parse (text : AssemblyText) : Except AssemblyFault Line :=
  ofPieces (pieces ':' (withoutComment text))

/-- The statement of a line that produces code. -/
def instruction? (line : Line) : Option Statement :=
  line.statement.filter (!·.isDirective)

/-- The lines of a text with their numbers, which start at one. -/
def numbered (text : AssemblyText) : List (Nat × Except AssemblyError Line) :=
  ((pieces '\n' text).zipIdx 1).map fun (line, number) =>
    (number, (parse line).mapError (AssemblyError.mk number))

end Line

end LoxNative
