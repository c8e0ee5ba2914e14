import LoxNative.Assembly.Operand
import LoxNative.Machine.Operation

namespace LoxNative

/-!
# Selecting operations

Find the machine operation that a mnemonic and its operands stand for, or say why there is none.
Only 64-bit registers take part, except where an instruction works on a byte, and only quadwords of
memory.
-/

/-- What a mnemonic asks for. -/
inductive Verb
  /-- An operation without operands. -/
  | plain (operation : Operation)
  | push
  | pop
  | arithmetic (operation : Arithmetic)
  | setByte (condition : ConditionCode)
  | move
  | multiply
  | divide
  | zeroExtend
deriving DecidableEq, Inhabited

namespace Verb

/-- The mnemonics with their meanings. -/
def all : List (String × Verb) :=
  [("SYSCALL", .plain .systemCall), ("NOP", .plain .nothing), ("CQO", .plain .extendSign),
    ("PUSH", .push), ("POP", .pop),
    ("ADD", .arithmetic .add), ("SUB", .arithmetic .sub), ("XOR", .arithmetic .xor),
    ("CMP", .arithmetic .cmp),
    ("SETO", .setByte 0x0), ("SETNO", .setByte 0x1), ("SETB", .setByte 0x2),
    ("SETAE", .setByte 0x3), ("SETE", .setByte 0x4), ("SETZ", .setByte 0x4),
    ("SETNE", .setByte 0x5), ("SETNZ", .setByte 0x5), ("SETBE", .setByte 0x6),
    ("SETA", .setByte 0x7), ("SETS", .setByte 0x8), ("SETNS", .setByte 0x9), ("SETL", .setByte 0xC),
    ("SETGE", .setByte 0xD), ("SETLE", .setByte 0xE), ("SETG", .setByte 0xF), ("MOV", .move),
    ("IMUL", .multiply), ("DIV", .divide), ("MOVZX", .zeroExtend)]

end Verb

namespace AssemblyOperand

/-- The number of a 64-bit register operand. -/
def qwordRegister (mnemonic : String) : AssemblyOperand -> Except AssemblyFault RegisterNumber
  | .register (.qword number) => .ok number
  | .register other => .error (.notQuadword mnemonic other.name)
  | _ => .error (.notRegister mnemonic)

/-- The byte of a byte register operand. -/
def byteRegister (mnemonic : String) : AssemblyOperand -> Except AssemblyFault ByteRegister
  | .register (.low number) => .ok (.low number)
  | .register (.high number) => .ok (.high number)
  | _ => .error (.notByte mnemonic)

end AssemblyOperand

namespace MemoryOperand

/-- The address of a memory operand, which must be a quadword relative to a 64-bit register. -/
def quadwordAddress (place : MemoryOperand) : Except AssemblyFault Address :=
  if place.size ≠ .unsized ∧ place.size ≠ .qword then
    .error .memorySize
  else
    match place.base with
    | .qword base => .ok ⟨base, place.offset⟩
    | _ => .error .memoryBase

end MemoryOperand

namespace Operation

/-- A constant that keeps its value when its sign is extended. -/
def signedConstant (value : UInt64) : Except AssemblyFault UInt32 :=
  if value.toNat < 0x80000000 then .ok value.toUInt32 else .error (.signedImmediate value)

/-- The forms of a move. -/
def ofMove (mnemonic : String) :
    AssemblyOperand -> AssemblyOperand -> Except AssemblyFault Operation
  | .register destination, .register source => do
      let destination <- AssemblyOperand.qwordRegister mnemonic (.register destination)
      let source <- AssemblyOperand.qwordRegister mnemonic (.register source)
      return .move destination source
  | .register destination, .immediate value => do
      let destination <- AssemblyOperand.qwordRegister mnemonic (.register destination)
      if value.toNat < 0x100000000 then
        return .load destination value
      else
        throw (.immediateRange value)
  | .register destination, .memory place => do
      let destination <- AssemblyOperand.qwordRegister mnemonic (.register destination)
      return .read destination (<- place.quadwordAddress)
  | .memory place, .register source => do
      let source <- AssemblyOperand.qwordRegister mnemonic (.register source)
      return .write (<- place.quadwordAddress) source
  | .memory place, .immediate value => do
      if place.size = .qword then
        let bits <- signedConstant value
        return .writeConstant (<- place.quadwordAddress) bits
      else
        throw .storeWithoutSize
  | _, _ => .error .moveOperands

/-- The forms of an arithmetic operation. -/
def ofArithmetic (mnemonic : String) (operation : Arithmetic) (destination : AssemblyOperand)
    (source : AssemblyOperand) : Except AssemblyFault Operation := do
  let destination <- destination.qwordRegister mnemonic
  match source with
  | .register _ =>
      return .arithmetic operation destination (.register (<- source.qwordRegister mnemonic))
  | .immediate value =>
      return .arithmetic operation destination (.constant (<- signedConstant value))
  | .memory _ => throw (.memoryRefused mnemonic)

/-- A byte extended to a 64-bit register.  The extension byte that the width needs takes the second
bytes of registers out of reach. -/
def ofZeroExtend (mnemonic : String) (destination source : AssemblyOperand) :
    Except AssemblyFault Operation := do
  let destination <- destination.qwordRegister mnemonic
  match <- source.byteRegister mnemonic with
  | .low number => return .zeroExtend destination (.low number)
  | .high number => throw (.secondByteSource (Register.high number).name)

/-- The operation of a mnemonic on its operands. -/
def select (mnemonic : String) (operands : List AssemblyOperand) : Except AssemblyFault Operation :=
  match Verb.all.lookup mnemonic with
  | none => .error (.unknownInstruction mnemonic)
  | some verb =>
      match verb, operands with
      | .plain operation, [] => .ok operation
      | .plain _, _ => .error (.operandCount mnemonic 0)
      | .push, [source] => (source.qwordRegister mnemonic).map .push
      | .push, _ => .error (.operandCount mnemonic 1)
      | .pop, [destination] => (destination.qwordRegister mnemonic).map .pop
      | .pop, _ => .error (.operandCount mnemonic 1)
      | .arithmetic operation, [destination, source] =>
          ofArithmetic mnemonic operation destination source
      | .arithmetic _, _ => .error (.operandCount mnemonic 2)
      | .setByte condition, [destination] =>
          (destination.byteRegister mnemonic).map (.setByte condition)
      | .setByte _, _ => .error (.operandCount mnemonic 1)
      | .move, [destination, source] => ofMove mnemonic destination source
      | .move, _ => .error (.operandCount mnemonic 2)
      | .multiply, [destination, source] => do
          let destination <- destination.qwordRegister mnemonic
          return .multiply destination (<- source.qwordRegister mnemonic)
      | .multiply, _ => .error (.operandCount mnemonic 2)
      | .divide, [divisor] => (divisor.qwordRegister mnemonic).map .divide
      | .divide, _ => .error (.operandCount mnemonic 1)
      | .zeroExtend, [destination, source] => ofZeroExtend mnemonic destination source
      | .zeroExtend, _ => .error (.operandCount mnemonic 2)

end Operation

end LoxNative
