import LoxNative.Diagnostic
import LoxNative.Expr
import LoxNative.Instruction.Program

namespace LoxNative

/-!
# Lowering

Turn an expression tree into a program that evaluates it on the machine's stack and exits with its
value.  Subexpressions are lowered before their operator, left before right, and each one leaves
exactly one value on the stack.

With optimisation, an arithmetic operator whose operands are both literals is computed in registers,
and a program that is a single literal exits with it at once.  The errors do not depend on this
choice: the first node in post-order that cannot be lowered is reported.
-/

/-- The choices in code generation. -/
structure LoweringOptions where
  optimize : Bool := false
deriving DecidableEq, Inhabited

/-- Why there is no program.  Only the first case can arise for a tree that was parsed. -/
inductive CompileError
  /-- Something is wrong with the source text. -/
  | rejected (diagnostic : Diagnostic)
  | unknownLiteral (code : Int)
  | unknownUnary (code : Int)
  | unknownBinary (code : Int)
  | missingExpression
  | unbalancedStack (depth : Int)
deriving DecidableEq, Inhabited

namespace CompileError

/-- The wording of an error. -/
def message : CompileError -> String
  | rejected diagnostic => diagnostic.message
  | unknownLiteral code => s!"unknown literal kind {code}"
  | unknownUnary code => s!"unknown unary operator {code}"
  | unknownBinary code => s!"unknown binary operator {code}"
  | missingExpression => "unsupported expression <nil>"
  | unbalancedStack depth => s!"unbalanced evaluation stack: depth {depth} after expression"

end CompileError

namespace Literal

/-- A literal as it stands in the source. -/
def written (literal : Literal) : String :=
  if literal.kind = .string then "\"" ++ literal.raw ++ "\"" else literal.raw

/-- The complaint that a literal cannot be lowered. -/
def rejection (literal : Literal) (text : String) : CompileError :=
  .rejected ⟨.codegen, literal.line, literal.written, text⟩

/-- Whether a text consists of ASCII digits and is not empty. -/
def isInteger (raw : String) : Bool :=
  !raw.isEmpty && raw.toList.all Char.isDigit

/-- The number that a text of ASCII digits denotes. -/
def decimalValue (raw : String) : Nat :=
  raw.toList.foldl (fun value digit => value * 10 + (digit.toNat - 0x30)) 0

/-- The integer that a literal lowers to.  The truth values are one and zero, and `nil` is zero. -/
def value (literal : Literal) : Except CompileError UInt32 :=
  match literal.kind with
  | .truth => .ok 1
  | .falsehood | .nil => .ok 0
  | .number =>
      if !isInteger literal.raw then
        .error (literal.rejection "Only integer literals can be compiled.")
      else if decimalValue literal.raw < 0x100000000 then
        .ok (UInt32.ofNat (decimalValue literal.raw))
      else
        .error (literal.rejection "Integer literal out of range.")
  | .string => .error (literal.rejection "String literals cannot be compiled.")
  | .unlisted code => .error (.unknownLiteral code)

end Literal

namespace UnaryOp

/-- The stack idiom of an operator. -/
def idiom : UnaryOp -> Except CompileError Idiom
  | negate => .ok .negate
  | not => .ok .not
  | unlisted code => .error (.unknownUnary code)

end UnaryOp

namespace BinaryOp

/-- The stack idiom of an operator. -/
def idiom : BinaryOp -> Except CompileError Idiom
  | add => .ok (.binary .add)
  | subtract => .ok (.binary .sub)
  | multiply => .ok (.binary .mul)
  | divide => .ok .divide
  | equal => .ok (.compare .equal)
  | notEqual => .ok (.compare .notEqual)
  | less => .ok (.compare .less)
  | lessEqual => .ok (.compare .lessEqual)
  | greater => .ok (.compare .greater)
  | greaterEqual => .ok (.compare .greaterEqual)
  | unlisted code => .error (.unknownBinary code)

/-- The idiom of an arithmetic operator on two constants. -/
def valueIdiom? (left right : UInt32) : BinaryOp -> Option Idiom
  | add => some (.binaryValue .add left right)
  | subtract => some (.binaryValue .sub left right)
  | multiply => some (.binaryValue .mul left right)
  | divide => some (.divideValue left right)
  | _ => none

end BinaryOp

namespace Expr

/-- The value of an expression that is a literal, possibly in parentheses, and that can be
lowered. -/
def literalValue? (expr : Expr) : Option UInt32 :=
  match expr.ungrouped with
  | .literal constant => constant.value.toOption
  | _ => none

/-- The idiom of a binary node that optimisation computes in registers. -/
def constantIdiom? (op : BinaryOp) (left right : Expr) : Option Idiom := do
  op.valueIdiom? (<- left.literalValue?) (<- right.literalValue?)

/-- Lower an expression behind the idioms already emitted. -/
def emit (options : LoweringOptions) : Expr -> Array Idiom -> Except CompileError (Array Idiom)
  | .missing, _ => .error .missingExpression
  | .literal constant, done => do
      return done.push (.constant (<- constant.value))
  | .group inner, done => inner.emit options done
  | .unary op right, done => do
      let done <- right.emit options done
      return done.push (<- op.idiom)
  | .binary op left right, done =>
      match (if options.optimize then constantIdiom? op left right else none) with
      | some idiom => .ok ((done.push idiom).push (.pushRegister .rax))
      | none => do
          let done <- left.emit options done
          let done <- right.emit options done
          return done.push (<- op.idiom)

end Expr

namespace Program

/-- The program with a single section, which starts at the entry point. -/
def ofIdioms (idioms : List Idiom) : Program :=
  { text := [⟨entryPoint, idioms⟩] }

/-- The number of values that idioms leave on the stack. -/
def depth (idioms : Array Idiom) : Int :=
  (idioms.toList.map Idiom.stackEffect).foldr (· + ·) 0

/-- The program that evaluates an expression and exits with its value. -/
def ofExpr (options : LoweringOptions) (expr : Expr) : Except CompileError Program :=
  match options.optimize, expr.ungrouped with
  | true, .literal constant => do
      return ofIdioms [.exit (some (.immediate (<- constant.value)))]
  | _, _ => do
      let body <- expr.emit options #[]
      if depth body = 1 then
        return ofIdioms (body.toList ++ [.popRegister .rax, .exit (some (.register .rax))])
      else
        throw (.unbalancedStack (depth body))

end Program

end LoxNative
