import LoxNative.Expr
import LoxNative.Token.Scanner

namespace LoxNative

/-!
# Reading expressions

The grammar, loosest level first, is

* equality: comparisons joined by `==` and `!=`,
* comparison: terms joined by `>`, `>=`, `<` and `<=`,
* term: factors joined by `+` and `-`,
* factor: unary expressions joined by `*` and `/`,
* unary: any number of `!` and `-` in front of a primary,
* primary: a number, a string, `true`, `false`, `nil`, or an expression in parentheses.

The four binary levels associate to the left.  Reading is a pushdown automaton that takes one token
at a time.  Its stack holds the operators and parentheses whose right side is still to come, and
every token either moves the automaton on or ends the expression.  A token that cannot be taken is
left unread, and the state in front of it alone decides between a finished expression and a
complaint.  Because the automaton only moves on while the tokens read so far can still be completed,
a complaint always concerns the first offending token.
-/

namespace Literal

/-- The literal that a token denotes, if it denotes one. -/
def ofToken? (token : Token) : Option Literal :=
  match token.kind with
  | .falseWord => some ⟨.falsehood, "false", token.line⟩
  | .trueWord => some ⟨.truth, "true", token.line⟩
  | .nilWord => some ⟨.nil, "nil", token.line⟩
  | .number => some ⟨.number, token.lexeme, token.line⟩
  | .string => some ⟨.string, String.ofList (token.lexeme.toList.drop 1).dropLast, token.line⟩
  | _ => none

end Literal

namespace UnaryOp

/-- The operator that a kind of token denotes in front of an operand. -/
def ofKind? : TokenKind -> Option UnaryOp
  | .bang => some .not
  | .minus => some .negate
  | _ => none

end UnaryOp

namespace BinaryOp

/-- The operator that a kind of token denotes between two operands. -/
def ofKind? : TokenKind -> Option BinaryOp
  | .equalEqual => some .equal
  | .bangEqual => some .notEqual
  | .greater => some .greater
  | .greaterEqual => some .greaterEqual
  | .less => some .less
  | .lessEqual => some .lessEqual
  | .plus => some .add
  | .minus => some .subtract
  | .star => some .multiply
  | .slash => some .divide
  | _ => none

/-- How tightly an operator binds: equality least, then comparison, term and factor. -/
def level : BinaryOp -> Nat
  | equal | notEqual => 0
  | less | lessEqual | greater | greaterEqual => 1
  | add | subtract => 2
  | multiply | divide => 3
  | unlisted _ => 0

end BinaryOp

namespace Expr

/-- Something whose right side is still to come. -/
inductive Frame
  | group
  | unary (op : UnaryOp)
  | binary (op : BinaryOp) (left : Expr)
deriving DecidableEq, Inhabited

/-- Complete the frames on top of the stack that bind at least as tightly as `level`, with `value`
on their right side.  An open parenthesis stops this at every level. -/
def complete (level : Nat) : List Frame -> Expr -> List Frame × Expr
  | .unary op :: frames, value => complete level frames (.unary op value)
  | .binary op left :: frames, value =>
      if level ≤ op.level then complete level frames (.binary op left value)
      else (.binary op left :: frames, value)
  | frames, value => (frames, value)

/-- The state of the automaton between two tokens. -/
inductive Reading
  /-- An operand has to come next. -/
  | operand (frames : List Frame)
  /-- An operand has just been read. -/
  | operator (frames : List Frame) (value : Expr)
deriving DecidableEq

namespace Reading

/-- Before the first token. -/
def start : Reading := .operand []

/-- Take one token, if the expression can go on with it. -/
def shift? (token : Token) : Reading -> Option Reading
  | .operand frames =>
      match Literal.ofToken? token with
      | some value => some (.operator frames (.literal value))
      | none =>
          match UnaryOp.ofKind? token.kind with
          | some op => some (.operand (.unary op :: frames))
          | none => if token.kind = .leftParen then some (.operand (.group :: frames)) else none
  | .operator frames value =>
      match BinaryOp.ofKind? token.kind with
      | some op =>
          let (frames, left) := complete op.level frames value
          some (.operand (.binary op left :: frames))
      | none =>
          match complete 0 frames value with
          | (.group :: frames, value) =>
              if token.kind = .rightParen then some (.operator frames (.group value)) else none
          | _ => none

/-- The expression read, when it is complete, or else what should have come next. -/
def finish : Reading -> Except String Expr
  | .operand _ => .error "Expect expression."
  | .operator frames value =>
      match complete 0 frames value with
      | (.group :: _, _) => .error "Expect ')' after expression."
      | (_, value) => .ok value

end Reading

/-- A complaint located at a token. -/
def complaint (token : Token) (text : String) : Diagnostic :=
  ⟨.parse, token.line, if token.kind = .endOfInput then Diagnostic.atEnd else token.lexeme, text⟩

/-- Run the automaton as far as it goes.  The result is the expression or the complaint, with the
items that were not taken. -/
def readFrom (ending : Token) : Reading -> List Item -> Except Diagnostic Expr × List Item
  | reading, [] => (reading.finish.mapError (complaint ending), [])
  | _, .error diagnostic :: rest => (.error diagnostic, .error diagnostic :: rest)
  | reading, .ok token :: rest =>
      match reading.shift? token with
      | some reading => readFrom ending reading rest
      | none => (reading.finish.mapError (complaint token), .ok token :: rest)

/-- Read one expression from a stream of items.  The stream returned begins with the first item that
was not taken, also when reading failed. -/
def read (stream : ItemStream) : Except Diagnostic Expr × ItemStream :=
  let (result, items) := readFrom stream.ending .start stream.items
  (result, { stream with items })

/-- Read one expression at the beginning of a text and ignore what follows it. -/
def parseLeading (source : String) : Except Diagnostic Expr :=
  (read (Cursor.start source).items).1

/-- Read a text as one complete expression. -/
def parse (source : String) : Except Diagnostic Expr := do
  let (result, rest) := read (Cursor.start source).items
  let expr <- result
  match rest.items with
  | [] => return expr
  | .ok token :: _ => throw (complaint token "Expect end of expression.")
  | .error diagnostic :: _ => throw diagnostic

end Expr

end LoxNative
