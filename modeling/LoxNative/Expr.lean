namespace LoxNative

/-!
# Expression trees

The tree of one expression.  Parentheses are kept as nodes, so that the printed form shows where the
source had them.  Trees can also be built by hand, and then a child may be missing and an operator
or a literal may carry a number that names none; code generation rejects such trees with an error of
its own.
-/

/-- The forms of a literal. -/
inductive LiteralKind
  | number
  | string
  | truth
  | falsehood
  | nil
  /-- A form number that names none of the others. -/
  | unlisted (code : Int)
deriving DecidableEq, Inhabited

/-- A constant taken from one token.  The raw text of a string is without its quotes. -/
structure Literal where
  kind : LiteralKind
  raw : String
  line : Int
deriving DecidableEq, Inhabited

/-- The operators with one operand. -/
inductive UnaryOp
  | negate
  | not
  /-- An operator number that names none of the others. -/
  | unlisted (code : Int)
deriving DecidableEq, Inhabited

/-- The operators with two operands. -/
inductive BinaryOp
  | equal
  | notEqual
  | less
  | lessEqual
  | greater
  | greaterEqual
  | add
  | subtract
  | multiply
  | divide
  /-- An operator number that names none of the others. -/
  | unlisted (code : Int)
deriving DecidableEq, Inhabited

/-- An expression. -/
inductive Expr
  /-- The place of a child that a tree built by hand lacks. -/
  | missing
  | literal (value : Literal)
  | unary (op : UnaryOp) (right : Expr)
  | binary (op : BinaryOp) (left right : Expr)
  | group (inner : Expr)
deriving DecidableEq, Inhabited

namespace LiteralKind

/-- The literal form with a number. -/
def ofCode (code : Int) : LiteralKind :=
  match (if code < 0 then none else [number, string, truth, falsehood, nil][code.toNat]?) with
  | some kind => kind
  | none => unlisted code

end LiteralKind

namespace UnaryOp

/-- The operator with a number. -/
def ofCode (code : Int) : UnaryOp :=
  match (if code < 0 then none else [negate, not][code.toNat]?) with
  | some op => op
  | none => unlisted code

/-- The symbol of an operator. -/
def symbol : UnaryOp -> String
  | negate => "-"
  | not => "!"
  | unlisted code => s!"UnaryOp({code})"

end UnaryOp

namespace BinaryOp

/-- The operators in the order of their numbers. -/
def all : List BinaryOp :=
  [equal, notEqual, less, lessEqual, greater, greaterEqual, add, subtract, multiply, divide]

/-- The operator with a number. -/
def ofCode (code : Int) : BinaryOp :=
  match (if code < 0 then none else all[code.toNat]?) with
  | some op => op
  | none => unlisted code

/-- The symbol of an operator. -/
def symbol : BinaryOp -> String
  | equal => "=="
  | notEqual => "!="
  | less => "<"
  | lessEqual => "<="
  | greater => ">"
  | greaterEqual => ">="
  | add => "+"
  | subtract => "-"
  | multiply => "*"
  | divide => "/"
  | unlisted code => s!"BinaryOp({code})"

end BinaryOp

namespace Expr

/-- The fully parenthesised form, with every operator in front of its operands. -/
def render : Expr -> String
  | missing => "%!s(<nil>)"
  | literal value => value.raw
  | unary op right => "(" ++ op.symbol ++ " " ++ right.render ++ ")"
  | binary op left right => "(" ++ op.symbol ++ " " ++ left.render ++ " " ++ right.render ++ ")"
  | group inner => "(group " ++ inner.render ++ ")"

/-- An expression without the parentheses around it. -/
def ungrouped : Expr -> Expr
  | group inner => inner.ungrouped
  | expr => expr

end Expr

end LoxNative
