import LoxNative.Text.Numeral

namespace LoxNative

/-!
# Faults

Why a machine stopped other than by exiting.  Most faults carry an address: where the instruction
started, or where the machine stood when it noticed.
-/

/-- The instructions that do not work on memory. -/
inductive RegisterOnly
  | arithmetic
  | multiply
  | zeroExtend
  | setByte
deriving DecidableEq, Inhabited

namespace RegisterOnly

/-- The name of such an instruction in messages. -/
def name : RegisterOnly -> String
  | arithmetic => "ALU"
  | multiply => "IMUL"
  | zeroExtend => "MOVZX"
  | setByte => "SETcc"

end RegisterOnly

/-- Why a machine stopped other than by exiting. -/
inductive Fault
  | ranPastEnd (address : UInt64)
  | truncated (address : UInt64)
  | unknownOpcode (opcode : UInt8) (start : UInt64)
  | unknownSecondOpcode (opcode : UInt8) (start : UInt64)
  | narrowOperand (start : UInt64)
  | memoryOperand (instruction : RegisterOnly) (start : UInt64)
  | indexedAddress (index : UInt8) (address : UInt64)
  | relativeAddress (address : UInt64)
  | unsupportedArithmetic (extension : UInt8) (address : UInt64)
  | unsupportedGroup (start : UInt64)
  | unsupportedCondition (code : Nat)
  | divideError (start : UInt64)
  | stackOverflow (address : UInt64)
  | stackUnderflow (address : UInt64)
  | readOutOfBounds (target : UInt64)
  | writeOutOfBounds (target : UInt64)
  | bufferOutOfBounds (buffer count : UInt64)
  | unsupportedSystemCall (number address : UInt64)
deriving DecidableEq, Inhabited

namespace Fault

/-- An address in hexadecimal capitals behind its mark. -/
def hex (address : UInt64) : String :=
  "0x" ++ Text.hexCapitals address.toNat

/-- The wording of a fault. -/
def message : Fault -> String
  | ranPastEnd address => "execution ran past end of program at " ++ hex address
  | truncated address => "instruction runs past end of program at " ++ hex address
  | unknownOpcode opcode start => "unknown opcode 0x" ++ Text.hexByte opcode ++ " at " ++ hex start
  | unknownSecondOpcode opcode start =>
      "unknown opcode 0x0F 0x" ++ Text.hexByte opcode ++ " at " ++ hex start
  | narrowOperand start => "32-bit operand size not supported at " ++ hex start
  | memoryOperand instruction start =>
      "memory " ++ instruction.name ++ " operand not supported at " ++ hex start
  | indexedAddress index address =>
      "unsupported SIB byte 0x" ++ Text.hexByte index ++ " at " ++ hex address
  | relativeAddress address => "RIP-relative addressing is not supported at " ++ hex address
  | unsupportedArithmetic extension address =>
      s!"unsupported ALU operation /{extension.toNat} at " ++ hex address
  | unsupportedGroup start => "unsupported group-3 instruction at " ++ hex start
  | unsupportedCondition code => "unsupported condition code 0x" ++ Text.hexCapitals code
  | divideError start => "divide error at " ++ hex start
  | stackOverflow address => "stack overflow at RIP=" ++ hex address
  | stackUnderflow address => "stack underflow at RIP=" ++ hex address
  | readOutOfBounds target => "memory read out of bounds at " ++ hex target
  | writeOutOfBounds target => "memory write out of bounds at " ++ hex target
  | bufferOutOfBounds buffer count => s!"write buffer out of bounds: {hex buffer}+{count.toNat}"
  | unsupportedSystemCall number address =>
      s!"unsupported syscall {number.toNat} at " ++ hex address

end Fault

end LoxNative
