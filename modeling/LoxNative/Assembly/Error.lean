namespace LoxNative

/-!
# Errors in assembly text

Each error has a cause and the number of the line it was found on.  Where the cause concerns one
word of the line, it carries that word as it was written.
-/

/-- What is wrong with a line of assembly text. -/
inductive AssemblyFault
  | invalidLabel (name : String)
  | duplicateLabel (name : String)
  | undefinedLabel (name : String)
  | missingOperand
  | unterminatedMemory
  | sizeWithoutMemory
  | invalidRegister (text : String)
  | invalidDisplacement (text : String)
  | invalidImmediate (text : String)
  | operandCount (mnemonic : String) (expected : Nat)
  | notRegister (mnemonic : String)
  | notQuadword (mnemonic register : String)
  | notByte (mnemonic : String)
  | memoryRefused (mnemonic : String)
  /-- A constant that would change its value when its sign is extended. -/
  | signedImmediate (value : UInt64)
  | immediateRange (value : UInt64)
  | storeWithoutSize
  | memorySize
  | memoryBase
  | moveOperands
  | secondByteSource (register : String)
  | unknownInstruction (mnemonic : String)
deriving DecidableEq, Inhabited

/-- An error on a line. -/
structure AssemblyError where
  line : Nat
  fault : AssemblyFault
deriving DecidableEq, Inhabited

namespace AssemblyError

/-- The wording of an error. -/
def message (error : AssemblyError) : String :=
  let place := s!" on line {error.line}"
  match error.fault with
  | .invalidLabel name => s!"invalid label '{name}'" ++ place
  | .duplicateLabel name => s!"duplicate label '{name}'" ++ place
  | .undefinedLabel name => s!"undefined label '{name}'" ++ place
  | .missingOperand => "missing operand" ++ place
  | .unterminatedMemory => "unterminated memory operand" ++ place
  | .sizeWithoutMemory => "size directive needs a bracketed memory operand" ++ place
  | .invalidRegister text => s!"invalid register '{text}'" ++ place
  | .invalidDisplacement text => s!"invalid displacement '{text}'" ++ place
  | .invalidImmediate text => s!"invalid immediate '{text}'" ++ place
  | .operandCount mnemonic expected =>
      s!"{mnemonic} expects {expected} " ++
        (if expected = 1 then "operand" else "operands") ++ place
  | .notRegister mnemonic => mnemonic ++ " expects a register operand" ++ place
  | .notQuadword mnemonic register =>
      mnemonic ++ " supports only 64-bit registers" ++ place ++ ": " ++ register
  | .notByte mnemonic => mnemonic ++ " expects an 8-bit register" ++ place
  | .memoryRefused mnemonic => mnemonic ++ " does not accept a memory operand" ++ place
  | .signedImmediate value =>
      s!"immediate does not fit a sign-extended imm32{place}: {value.toNat}"
  | .immediateRange value => s!"immediate out of range{place}: {value.toNat}"
  | .storeWithoutSize => "MOV to memory needs a QWORD size" ++ place
  | .memorySize => "only QWORD memory operands are supported" ++ place
  | .memoryBase => "memory base must be a 64-bit register" ++ place
  | .moveOperands => "unsupported MOV operands" ++ place
  | .secondByteSource register =>
      "MOVZX cannot encode " ++ register ++ " with a 64-bit destination" ++ place
  | .unknownInstruction mnemonic => "unknown instruction" ++ place ++ ": " ++ mnemonic

end AssemblyError

end LoxNative
