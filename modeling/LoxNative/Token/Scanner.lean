import LoxNative.Diagnostic
import LoxNative.Text.DecimalDigit
import LoxNative.Text.Letter
import LoxNative.Token

namespace LoxNative

/-!
# Scanning

A cursor holds the characters still to be read and the line it stands on.  Reading one item skips
layout, which is blanks and comments, and then takes the longest token that starts at the next
character.  A character that starts no token, and a string that is never closed, give a diagnostic
in the place of a token; both consume what they complain about, so that scanning can go on behind
them.

All items of a text are collected by `Cursor.items`.  Every item other than the end of the input
consumes at least one character, hence the number of characters left bounds the number of items.
-/

/-- What scanning yields: a token, or a complaint about the text at this place. -/
abbrev Item := Except Diagnostic Token

/-- A place in a source text: the characters still to be read, and the number of the current
line. -/
structure Cursor where
  rest : List Char
  line : Nat
deriving DecidableEq, Inhabited

namespace Cursor

/-- The beginning of a source text. -/
def start (source : String) : Cursor :=
  ⟨source.toList, 1⟩

/-- The number of line breaks in a piece of text. -/
def lineBreaks (text : List Char) : Nat :=
  text.count '\n'

/-- Whether a character separates tokens without being part of one. -/
def isLayout (c : Char) : Bool :=
  c == ' ' || c == '\t' || c == '\r' || c == '\n' || c.toNat == 0x0C || c.toNat == 0x0B

/-- Whether a character can begin a word. -/
def isWordStart (c : Char) : Bool :=
  Text.isLetter c || c == '_'

/-- Whether a character can continue a word. -/
def isWordPart (c : Char) : Bool :=
  isWordStart c || Text.isDecimalDigit c

/-- Skip blanks and comments.  The flag tells whether the cursor stands inside a comment, which ends
before the next line break. -/
def skipLayout : Bool -> List Char -> Nat -> Cursor
  | _, [], line => ⟨[], line⟩
  | true, c :: rest, line =>
      if c = '\n' then skipLayout false rest (line + 1) else skipLayout true rest line
  | false, '/' :: '/' :: rest, line => skipLayout true rest line
  | false, c :: rest, line =>
      if isLayout c then skipLayout false rest (if c = '\n' then line + 1 else line)
      else ⟨c :: rest, line⟩

/-- The digits of a number and what follows them.  A dot belongs to the number only when a digit
follows it, so that `1.` is a number and a dot. -/
def splitNumber (text : List Char) : List Char × List Char :=
  let whole := text.takeWhile Char.isDigit
  match text.dropWhile Char.isDigit with
  | '.' :: digit :: rest =>
      if digit.isDigit then
        (whole ++ '.' :: (digit :: rest).takeWhile Char.isDigit,
          (digit :: rest).dropWhile Char.isDigit)
      else
        (whole, '.' :: digit :: rest)
  | rest => (whole, rest)

/-- A token at the head of the text, and the cursor behind it. -/
def take (kind : TokenKind) (lexeme rest : List Char) (line : Nat) : Item × Cursor :=
  (.ok ⟨kind, String.ofList lexeme, line⟩, ⟨rest, line + lineBreaks lexeme⟩)

/-- A complaint about text at the head, and the cursor behind that text. -/
def reject (text : String) (consumed rest : List Char) (line : Nat) : Item × Cursor :=
  (.error ⟨.scan, line, "", text⟩, ⟨rest, line + lineBreaks consumed⟩)

/-- A string, given the text behind its opening quote. -/
def takeString (body : List Char) (line : Nat) : Item × Cursor :=
  match body.dropWhile (· != '"') with
  | _ :: rest => take .string ('"' :: body.takeWhile (· != '"') ++ ['"']) rest line
  | [] => reject "Unterminated string." ('"' :: body) [] line

/-- A symbol that becomes another one when an equals sign follows. -/
def takeComparison (symbol : Char) (plain withEqual : TokenKind) (rest : List Char) (line : Nat) :
    Item × Cursor :=
  match rest with
  | '=' :: rest => take withEqual [symbol, '='] rest line
  | rest => take plain [symbol] rest line

/-- A symbol, or a complaint when the character is not one. -/
def takeSymbol (c : Char) (rest : List Char) (line : Nat) : Item × Cursor :=
  match c with
  | '(' => take .leftParen [c] rest line
  | ')' => take .rightParen [c] rest line
  | '\x7b' => take .leftBrace [c] rest line
  | '\x7d' => take .rightBrace [c] rest line
  | ',' => take .comma [c] rest line
  | '.' => take .dot [c] rest line
  | '-' => take .minus [c] rest line
  | '+' => take .plus [c] rest line
  | ';' => take .semicolon [c] rest line
  | '*' => take .star [c] rest line
  | '/' => take .slash [c] rest line
  | '!' => takeComparison c .bang .bangEqual rest line
  | '=' => takeComparison c .equal .equalEqual rest line
  | '<' => takeComparison c .less .lessEqual rest line
  | '>' => takeComparison c .greater .greaterEqual rest line
  | _ => reject s!"Unexpected character '{c}'." [c] rest line

/-- The item at a place where no layout is left to skip. -/
def takeItem : List Char -> Nat -> Item × Cursor
  | [], line => (.ok ⟨.endOfInput, "", line⟩, ⟨[], line⟩)
  | c :: rest, line =>
      if c.isDigit then
        let (lexeme, rest) := splitNumber (c :: rest)
        take .number lexeme rest line
      else if isWordStart c then
        let word := (c :: rest).takeWhile isWordPart
        take (.ofWord (String.ofList word)) word ((c :: rest).dropWhile isWordPart) line
      else if c = '"' then
        takeString rest line
      else
        takeSymbol c rest line

/-- Read one item, and move behind it.  Once the input is exhausted every further reading gives its
end again. -/
def next (cursor : Cursor) : Item × Cursor :=
  let place := skipLayout false cursor.rest cursor.line
  takeItem place.rest place.line

/-- The item that `next` would read, without moving. -/
def peek (cursor : Cursor) : Item :=
  cursor.next.1

end Cursor

/-- All items of a text in order, without the end of the input, and the line on which the input
ends. -/
structure ItemStream where
  items : List Item
  lastLine : Nat
deriving Inhabited

namespace ItemStream

/-- The token that marks the end of the input. -/
def ending (stream : ItemStream) : Token :=
  ⟨.endOfInput, "", stream.lastLine⟩

/-- A stream with one more item in front. -/
def cons (item : Item) (stream : ItemStream) : ItemStream :=
  { stream with items := item :: stream.items }

end ItemStream

namespace Cursor

/-- Whether an item marks the end of the input. -/
def isEnding : Item -> Bool
  | .ok token => token.kind == .endOfInput
  | .error _ => false

/-- Read items until the input ends, at most `fuel` of them. -/
def itemsWithin : Nat -> Cursor -> ItemStream
  | 0, cursor => ⟨[], cursor.line⟩
  | fuel + 1, cursor =>
      match cursor.next with
      | (item, after) =>
          if isEnding item then ⟨[], after.line⟩ else .cons item (itemsWithin fuel after)

/-- All items from a place on. -/
def items (cursor : Cursor) : ItemStream :=
  cursor.itemsWithin (cursor.rest.length + 1)

/-- Read items until the input ends, a diagnostic has been read, or `limit` items have been read.
The result holds the items, and the cursor behind the last thing that was read. -/
def pullWithin : Nat -> Cursor -> List Item × Cursor
  | 0, cursor => ([], cursor)
  | limit + 1, cursor =>
      match cursor.next with
      | (.error diagnostic, after) => ([.error diagnostic], after)
      | (.ok token, after) =>
          if token.kind = .endOfInput then ([], after)
          else
            let (items, last) := pullWithin limit after
            (.ok token :: items, last)

/-- Read items until the input ends or a diagnostic has been read, at most `count` of them when
`count` is positive. -/
def pull (count : Int) (cursor : Cursor) : List Item × Cursor :=
  cursor.pullWithin (if 0 < count then count.toNat else cursor.rest.length + 1)

end Cursor

namespace Token

/-- The tokens of a text up to the first diagnostic, and that diagnostic if there is one.  Without a
diagnostic the end of the input comes last. -/
def untilError (ending : Token) : List Item -> List Token × Option Diagnostic
  | [] => ([ending], none)
  | .error diagnostic :: _ => ([], some diagnostic)
  | .ok token :: rest =>
      let (tokens, failure) := untilError ending rest
      (token :: tokens, failure)

/-- Scan a text up to the first diagnostic. -/
def scan (source : String) : List Token × Option Diagnostic :=
  let stream := (Cursor.start source).items
  untilError stream.ending stream.items

/-- Scan a whole text and collect every token, the end of the input last, and every diagnostic. -/
def scanAll (source : String) : List Token × List Diagnostic :=
  let stream := (Cursor.start source).items
  (stream.items.filterMap Except.toOption ++ [stream.ending],
    stream.items.filterMap fun item =>
      match item with
      | .error diagnostic => some diagnostic
      | .ok _ => none)

end Token

end LoxNative
