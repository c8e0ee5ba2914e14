import LoxNative.Instruction.Operand

namespace LoxNative

/-!
# Instructions

The closed set of instructions that the compiler emits.  An instruction has up to two operands, and
an operand that it needs may be missing in one built by hand.
-/

/-- The operation of an instruction. -/
inductive Mnemonic
  | mov
  | push
  | pop
  | add
  | sub
  /-- Signed multiplication of two registers. -/
  | mul
  /-- Unsigned division of the double word in `rdx` and `rax`. -/
  | div
  | xor
  | cmp
  /-- Set a byte by a condition. -/
  | set
  | movzx
  | syscall
  /-- An operation number that names none of the others. -/
  | unlisted (code : UInt8)
deriving DecidableEq, Inhabited

namespace Mnemonic

/-- The operations in the order of their numbers. -/
def all : List Mnemonic :=
  [mov, push, pop, add, sub, mul, div, xor, cmp, set, movzx, syscall]

/-- The operation with a number. -/
def ofCode (code : UInt8) : Mnemonic :=
  match all[code.toNat]? with
  | some mnemonic => mnemonic
  | none => unlisted code

/-- The word of an operation. -/
def name : Mnemonic -> String
  | mov => "mov"
  | push => "push"
  | pop => "pop"
  | add => "add"
  | sub => "sub"
  | mul => "imul"
  | div => "div"
  | xor => "xor"
  | cmp => "cmp"
  | set => "set"
  | movzx => "movzx"
  | syscall => "syscall"
  | unlisted code => s!"Mnemonic({code.toNat})"

end Mnemonic

/-- The test of a conditional instruction.  The orderings are signed. -/
inductive Condition
  | equal
  | notEqual
  | less
  | lessEqual
  | greater
  | greaterEqual
  /-- A condition number that names none of the others. -/
  | unlisted (code : UInt8)
deriving DecidableEq, Inhabited

namespace Condition

/-- The conditions in the order of their numbers. -/
def all : List Condition :=
  [equal, notEqual, less, lessEqual, greater, greaterEqual]

/-- The condition with a number. -/
def ofCode (code : UInt8) : Condition :=
  match all[code.toNat]? with
  | some condition => condition
  | none => unlisted code

/-- The letters that a condition adds to a mnemonic. -/
def suffix : Condition -> String
  | equal => "e"
  | notEqual => "ne"
  | less => "l"
  | lessEqual => "le"
  | greater => "g"
  | greaterEqual => "ge"
  | unlisted code => s!"Condition({code.toNat})"

end Condition

/-- One operation with its operands.  An operation with a single operand keeps it as its
destination, except that `push` reads its operand and so keeps it as its source. -/
structure Instruction where
  mnemonic : Mnemonic
  destination : Option Operand := none
  source : Option Operand := none
  condition : Condition := .equal
deriving DecidableEq, Inhabited

namespace Instruction

/-- An operand as it is written, with a mark in the place of a missing one. -/
def operandText : Option Operand -> String
  | some operand => operand.render
  | none => "%!s(<nil>)"

/-- Whether an instruction can be written.  One with a single operand cannot without it, but of two
operands either may be missing. -/
def isWritable (instruction : Instruction) : Bool :=
  match instruction.mnemonic with
  | .push => instruction.source.isSome
  | .pop | .div | .set => instruction.destination.isSome
  | _ => true

/-- An instruction as it is written, if it can be. -/
def render (instruction : Instruction) : String :=
  match instruction.mnemonic with
  | .syscall => "syscall"
  | .push => "push " ++ operandText instruction.source
  | .pop => "pop " ++ operandText instruction.destination
  | .div => "div " ++ operandText instruction.destination
  | .set => "set" ++ instruction.condition.suffix ++ " " ++ operandText instruction.destination
  | mnemonic =>
      mnemonic.name ++ " " ++ operandText instruction.destination ++ ", " ++
        operandText instruction.source

/-- The change in the depth of the evaluation stack, in slots. -/
def stackEffect (instruction : Instruction) : Int :=
  match instruction.mnemonic with
  | .push => 1
  | .pop => -1
  | _ => 0

def mov (destination source : Operand) : Instruction :=
  { mnemonic := .mov, destination, source }

def push (source : Operand) : Instruction :=
  { mnemonic := .push, source }

def pop (destination : Operand) : Instruction :=
  { mnemonic := .pop, destination }

def xor (destination source : Operand) : Instruction :=
  { mnemonic := .xor, destination, source }

def sub (destination source : Operand) : Instruction :=
  { mnemonic := .sub, destination, source }

def cmp (destination source : Operand) : Instruction :=
  { mnemonic := .cmp, destination, source }

def div (divisor : Operand) : Instruction :=
  { mnemonic := .div, destination := divisor }

def set (condition : Condition) (destination : Operand) : Instruction :=
  { mnemonic := .set, destination, condition }

def movzx (destination source : Operand) : Instruction :=
  { mnemonic := .movzx, destination, source }

def syscall : Instruction :=
  { mnemonic := .syscall }

end Instruction

end LoxNative
