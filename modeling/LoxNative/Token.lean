import LoxNative.Text.Quoted

namespace LoxNative

/-!
# Tokens

The lexical units of the source language.  Besides the symbols and literals that expressions use,
the scanner recognises the words and brackets of the full language, so that an expression which runs
into one of them is rejected with the right complaint.
-/

/-- The category of a token. -/
inductive TokenKind
  | endOfInput
  | leftParen | rightParen | leftBrace | rightBrace
  | comma | dot | minus | plus | semicolon | slash | star
  | bang | bangEqual | equal | equalEqual | greater | greaterEqual | less | lessEqual
  | identifier | string | number
  | andWord | classWord | elseWord | falseWord | forWord | funWord | ifWord | nilWord | orWord
  | printWord | returnWord | superWord | thisWord | trueWord | varWord | whileWord
deriving DecidableEq, Inhabited

namespace TokenKind

/-- The kinds in the order of their numbers. -/
def all : List TokenKind :=
  [.endOfInput, .leftParen, .rightParen, .leftBrace, .rightBrace, .comma, .dot, .minus, .plus,
    .semicolon, .slash, .star, .bang, .bangEqual, .equal, .equalEqual, .greater,
    .greaterEqual, .less, .lessEqual, .identifier, .string, .number, .andWord, .classWord,
    .elseWord, .falseWord, .forWord, .funWord, .ifWord, .nilWord, .orWord, .printWord, .returnWord,
    .superWord, .thisWord, .trueWord, .varWord, .whileWord]

/-- The name of a kind in listings. -/
def name : TokenKind -> String
  | .endOfInput => "EOF"
  | .leftParen => "LPAREN"
  | .rightParen => "RPAREN"
  | .leftBrace => "LBRACE"
  | .rightBrace => "RBRACE"
  | .comma => "COMMA"
  | .dot => "DOT"
  | .minus => "MINUS"
  | .plus => "PLUS"
  | .semicolon => "SEMICOLON"
  | .slash => "SLASH"
  | .star => "STAR"
  | .bang => "NOT"
  | .bangEqual => "NOT_EQ"
  | .equal => "ASSIGN"
  | .equalEqual => "EQUALS"
  | .greater => "GREATER"
  | .greaterEqual => "GREATER_EQ"
  | .less => "LESS"
  | .lessEqual => "LESS_EQ"
  | .identifier => "IDENTIFIER"
  | .string => "STRING"
  | .number => "NUMBER"
  | .andWord => "AND"
  | .classWord => "CLASS"
  | .elseWord => "ELSE"
  | .falseWord => "FALSE"
  | .forWord => "FOR"
  | .funWord => "FUN"
  | .ifWord => "IF"
  | .nilWord => "NIL"
  | .orWord => "OR"
  | .printWord => "PRINT"
  | .returnWord => "RETURN"
  | .superWord => "SUPER"
  | .thisWord => "THIS"
  | .trueWord => "TRUE"
  | .varWord => "VAR"
  | .whileWord => "WHILE"

/-- The text shown for a kind number, which need not belong to any kind. -/
def nameOfCode (code : Int) : String :=
  match (if code < 0 then none else all[code.toNat]?) with
  | some kind => kind.name
  | none => s!"TokenType({code})"

/-- The words of the language, each with its kind. -/
def keywords : List (String × TokenKind) :=
  [("and", .andWord), ("class", .classWord), ("else", .elseWord), ("false", .falseWord),
    ("for", .forWord), ("fun", .funWord), ("if", .ifWord), ("nil", .nilWord), ("or", .orWord),
    ("print", .printWord), ("return", .returnWord), ("super", .superWord), ("this", .thisWord),
    ("true", .trueWord), ("var", .varWord), ("while", .whileWord)]

/-- The kind of a word: its own when it is a keyword, and otherwise an identifier. -/
def ofWord (word : String) : TokenKind :=
  (keywords.lookup word).getD .identifier

end TokenKind

/-- A lexical unit: its category, its exact source text, and the line it starts on. -/
structure Token where
  kind : TokenKind
  lexeme : String
  line : Int
deriving DecidableEq, Inhabited

namespace Token

/-- A text filled up with blanks on the right; the width counts characters. -/
def padded (width : Nat) (text : String) : String :=
  text ++ String.ofList (List.replicate (width - text.length) ' ')

/-- The columns of a listing: the kind's name, the quoted lexeme, and the line. -/
def columns (kindName lexeme : String) (line : Int) : String :=
  s!"{padded 10 kindName} {padded 14 (Text.quoted lexeme)}  line {line}"

/-- A token as one line of a listing. -/
def listed (token : Token) : String :=
  columns token.kind.name token.lexeme token.line

end Token

end LoxNative
