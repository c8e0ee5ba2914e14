import LoxNative.Instruction

namespace LoxNative

/-!
# Idioms

Short instruction sequences, one for each logical operation.  The stack idioms take their operands
from the stack and leave their result there: `rax` is the accumulator, `rbx` holds the second
operand, and `rdx` is cleared before a division because it holds the upper half of the dividend.
-/

/-- The instructions of one logical operation. -/
abbrev Idiom := List Instruction

namespace Idiom

/-- The number of the system call that ends the process. -/
def exitNumber : UInt32 := 60

/-- The number of the system call that writes to a file. -/
def writeNumber : UInt32 := 1

private def rax : Operand := .register .rax
private def rbx : Operand := .register .rbx
private def rdx : Operand := .register .rdx
private def rdi : Operand := .register .rdi
private def rsi : Operand := .register .rsi
private def al : Operand := .register .al

/-- The change in stack depth over a whole idiom. -/
def stackEffect (idiom : Idiom) : Int :=
  (idiom.map Instruction.stackEffect).foldr (· + ·) 0

/-- Whether all instructions of an idiom can be written. -/
def isWritable (idiom : Idiom) : Bool :=
  idiom.all Instruction.isWritable

/-- One indented line for each instruction. -/
def render (idiom : Idiom) : String :=
  String.join (idiom.map fun instruction => "    " ++ instruction.render ++ "\n")

/-- Push a constant. -/
def constant (value : UInt32) : Idiom :=
  [.mov rax (.immediate value), .push rax]

/-- Replace the two topmost slots by the result of a two-operand instruction on them. -/
def binary (mnemonic : Mnemonic) : Idiom :=
  [.pop rbx, .pop rax, { mnemonic, destination := rax, source := rbx }, .push rax]

/-- Replace the two topmost slots by the quotient of the second by the first. -/
def divide : Idiom :=
  [.pop rbx, .pop rax, .xor rdx rdx, .div rbx, .push rax]

/-- Replace the two topmost slots by one if the condition holds between the second and the first,
and by zero otherwise. -/
def compare (condition : Condition) : Idiom :=
  [.pop rbx, .pop rax, .cmp rax rbx, .set condition al, .movzx rax al, .push rax]

/-- Replace the topmost slot by its two's complement. -/
def negate : Idiom :=
  [.pop rbx, .xor rax rax, .sub rax rbx, .push rax]

/-- Replace the topmost slot by one if it is zero, and by zero otherwise. -/
def not : Idiom :=
  [.pop rax, .xor rbx rbx, .cmp rax rbx, .set .equal al, .movzx rax al, .push rax]

/-- Leave the result of a two-operand instruction on two constants in `rax`, without touching the
stack. -/
def binaryValue (mnemonic : Mnemonic) (left right : UInt32) : Idiom :=
  [.mov rax (.immediate left), .mov rbx (.immediate right),
    { mnemonic, destination := rax, source := rbx }]

/-- Leave the quotient of two constants in `rax`, without touching the stack. -/
def divideValue (left right : UInt32) : Idiom :=
  [.mov rax (.immediate left), .mov rbx (.immediate right), .xor rdx rdx, .div rbx]

/-- End the process.  A constant zero is made by clearing the register. -/
def exit (status : Option Operand) : Idiom :=
  let load : Instruction :=
    if status = some (.immediate 0) then .xor rdi rdi
    else { mnemonic := .mov, destination := rdi, source := status }
  [load, .mov rax (.immediate exitNumber), .syscall]

/-- Write `count` bytes from `buffer` to an open file. -/
def write (file : UInt32) (buffer : Option Operand) (count : UInt32) : Idiom :=
  [.mov rdi (.immediate file), { mnemonic := .mov, destination := rsi, source := buffer },
    .mov rdx (.immediate count), .mov rax (.immediate writeNumber), .syscall]

/-- Push one register. -/
def pushRegister (register : Register) : Idiom :=
  [.push (.register register)]

/-- Pop one register. -/
def popRegister (register : Register) : Idiom :=
  [.pop (.register register)]

end Idiom

end LoxNative
