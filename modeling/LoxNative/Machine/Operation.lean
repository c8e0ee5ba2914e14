import LoxNative.Instruction.Register

namespace LoxNative

/-!
# Machine operations

What one machine instruction does, apart from its encoding.  The assembler turns a line of text into
an operation and writes its bytes; the machine reads bytes back into an operation and performs it.
-/

/-- The two-operand operations that set all four flags. -/
inductive Arithmetic
  | add
  | sub
  | xor
  /-- Subtract for the flags only. -/
  | cmp
deriving DecidableEq, Inhabited

/-- A byte inside a register. -/
inductive ByteRegister
  | low (number : RegisterNumber)
  | high (number : Fin 4)
deriving DecidableEq, Inhabited

/-- A place in memory: the contents of a register plus a signed distance. -/
structure Address where
  base : RegisterNumber
  displacement : Int32
deriving DecidableEq, Inhabited

/-- The second operand of an arithmetic operation.  A constant is extended by its sign. -/
inductive Source
  | register (number : RegisterNumber)
  | constant (bits : UInt32)
deriving DecidableEq, Inhabited

/-- The number of one of the sixteen tests on the flags. -/
abbrev ConditionCode := Fin 16

/-- What one machine instruction does. -/
inductive Operation
  | push (register : RegisterNumber)
  | pop (register : RegisterNumber)
  /-- Put a constant into a register. -/
  | load (register : RegisterNumber) (value : UInt64)
  | move (destination source : RegisterNumber)
  /-- Read a quadword of memory. -/
  | read (destination : RegisterNumber) (address : Address)
  /-- Write a register to memory. -/
  | write (address : Address) (source : RegisterNumber)
  /-- Write a constant, extended by its sign, to memory. -/
  | writeConstant (address : Address) (bits : UInt32)
  | arithmetic (operation : Arithmetic) (destination : RegisterNumber) (source : Source)
  /-- Signed multiplication into a register. -/
  | multiply (destination source : RegisterNumber)
  /-- Unsigned division of the double word in `rdx` and `rax`. -/
  | divide (divisor : RegisterNumber)
  /-- Put a byte into a register and clear the rest of it. -/
  | zeroExtend (destination : RegisterNumber) (source : ByteRegister)
  /-- Set a byte to one or zero by a test on the flags. -/
  | setByte (condition : ConditionCode) (destination : ByteRegister)
  /-- Fill `rdx` with the sign of `rax`. -/
  | extendSign
  | nothing
  | systemCall
deriving DecidableEq, Inhabited

/-- The sign of thirty-two bits continued over sixty-four. -/
def signExtended (bits : UInt32) : UInt64 :=
  bits.toInt32.toInt64.toUInt64

namespace Arithmetic

/-- The opcode of the form with two registers. -/
def opcode : Arithmetic -> UInt8
  | add => 0x01
  | sub => 0x29
  | xor => 0x31
  | cmp => 0x39

/-- The number that selects the operation in the form with a constant. -/
def extension : Arithmetic -> UInt8
  | add => 0
  | sub => 5
  | xor => 6
  | cmp => 7

/-- The operation of the form with two registers that has an opcode. -/
def ofOpcode? (opcode : UInt8) : Option Arithmetic :=
  [add, sub, xor, cmp].find? fun operation => operation.opcode == opcode

/-- The operation that a number selects in the form with a constant. -/
def ofExtension? (extension : UInt8) : Option Arithmetic :=
  [add, sub, xor, cmp].find? fun operation => operation.extension == extension

end Arithmetic

namespace ByteRegister

/-- The number of a byte register in an encoding. -/
def code : ByteRegister -> UInt8
  | low number => UInt8.ofNat number
  | high number => UInt8.ofNat (number + 4)

/-- Whether an encoding needs an extension byte to mean this register: the numbers from four on name
a low byte only behind one. -/
def needsExtension : ByteRegister -> Bool
  | low number => 4 ≤ number.val
  | high _ => false

end ByteRegister

end LoxNative
