import LoxNative.LittleEndian
import LoxNative.Machine.Fault
import LoxNative.Machine.Operation

namespace LoxNative

/-!
# Decoding of operations

Read the operation at a place in memory.  Reading past the end of the code does not stop decoding:
the missing bytes count as zero, the attempt is remembered, and the operation so found is still
performed.  Everything is read before anything is performed, so decoding only looks at memory.

Bytes that stand for no operation give a fault.  What decoding has consumed until then stays
consumed.

Code may also end behind the end of memory.  A byte that code has but memory has not cannot be
fetched; what is decoded from there on has no meaning, and the place stays in front of that byte.
-/

/-- The bytes that can be fetched: the memory and the end of the code in it. -/
structure Code where
  memory : Array UInt8
  ending : Nat

/-- A place from which bytes are fetched. -/
structure Fetching where
  position : UInt64
  /-- Whether a byte behind the end of the code was asked for. -/
  overrun : Bool := false
  /-- Whether a byte before the end of the code, but outside memory, was asked for. -/
  crashed : Bool := false
deriving DecidableEq, Inhabited

/-- A computation that fetches bytes and may find that they stand for no operation. -/
abbrev Decoder := ExceptT Fault (StateM Fetching)

namespace Decoder

/-- Fetch one byte. -/
def fetchByte (code : Code) : Decoder UInt8 := fun place =>
  if code.ending ≤ place.position.toNat then
    (.ok 0, { place with overrun := true })
  else
    match code.memory[place.position.toNat]? with
    | some byte => (.ok byte, { place with position := place.position + 1 })
    | none => (.ok 0, { place with crashed := true })

/-- Fetch several bytes. -/
def fetchBytes (code : Code) : Nat -> Decoder (List UInt8)
  | 0 => return []
  | count + 1 => do
      let byte <- fetchByte code
      return byte :: (<- fetchBytes code count)

/-- Fetch a double word. -/
def fetchDword (code : Code) : Decoder UInt32 := do
  return UInt32.ofNat (LittleEndian.value (<- fetchBytes code 4))

/-- Fetch a quadword. -/
def fetchQword (code : Code) : Decoder UInt64 := do
  return UInt64.ofNat (LittleEndian.value (<- fetchBytes code 8))

/-- The place of the next byte. -/
def position : Decoder UInt64 := do
  return (<- get).position

/-- The extension byte in front of an opcode, zero when there is none. -/
structure Extension where
  bits : UInt8
deriving DecidableEq, Inhabited

namespace Extension

/-- Whether an extension byte is there at all. -/
def isPresent (extension : Extension) : Bool :=
  extension.bits != 0

/-- Whether the operation is on 64 bits. -/
def isWide (extension : Extension) : Bool :=
  extension.bits &&& 0x08 != 0

/-- The number of the register named by three bits in the place of an operand. -/
def place (extension : Extension) (bits : UInt8) : RegisterNumber :=
  Fin.ofNat 16 ((bits &&& 7).toNat + if extension.bits &&& 0x01 != 0 then 8 else 0)

/-- The number of the register named by three bits in the register field. -/
def register (extension : Extension) (bits : UInt8) : RegisterNumber :=
  Fin.ofNat 16 ((bits &&& 7).toNat + if extension.bits &&& 0x04 != 0 then 8 else 0)

/-- The byte register with a number.  Without an extension byte the numbers from four to seven mean
second bytes. -/
def byteRegister (extension : Extension) (number : RegisterNumber) : ByteRegister :=
  if second : !extension.isPresent ∧ 4 ≤ number.val ∧ number.val < 8 then
    .high ⟨number.val - 4, by omega⟩
  else
    .low number

end Extension

/-- The parts of an operand byte. -/
structure OperandByte where
  mode : UInt8
  /-- The three bits of the register field, which some opcodes use to select an operation. -/
  field : UInt8
  register : RegisterNumber
  place : RegisterNumber
deriving DecidableEq, Inhabited

/-- Fetch an operand byte. -/
def fetchOperand (code : Code) (extension : Extension) : Decoder OperandByte := do
  let byte <- fetchByte code
  let field := (byte >>> 3) &&& 7
  return ⟨byte >>> 6, field, extension.register field, extension.place byte⟩

/-- Fetch an operand byte that must name registers only. -/
def fetchRegisters (code : Code) (extension : Extension) (fault : Fault) : Decoder OperandByte := do
  let operand <- fetchOperand code extension
  if operand.mode = 3 then return operand else throw fault

/-- Fetch the rest of an address in memory.  A base with the low bits of `rsp` is followed by a
further byte, of which only the form without an index is supported. -/
def fetchAddress (code : Code) (operand : OperandByte) : Decoder Address := do
  if operand.place.val % 8 = 4 then
    let index <- fetchByte code
    if index ≠ 0x24 then
      throw (.indexedAddress index (<- position))
  if operand.mode = 0 ∧ operand.place.val % 8 = 5 then
    throw (.relativeAddress (<- position))
  else if operand.mode = 1 then
    return ⟨operand.place, (<- fetchByte code).toInt8.toInt32⟩
  else if operand.mode = 2 then
    return ⟨operand.place, (<- fetchDword code).toInt32⟩
  else
    return ⟨operand.place, 0⟩

/-- The operation behind the byte that opens the second table of opcodes. -/
def secondTable (code : Code) (start : UInt64) (extension : Extension) : Decoder Operation := do
  let opcode <- fetchByte code
  if opcode = 0x05 then
    return .systemCall
  else if opcode = 0xAF then
    let operand <- fetchRegisters code extension (.memoryOperand .multiply start)
    return .multiply operand.register operand.place
  else if opcode = 0xB6 then
    let operand <- fetchRegisters code extension (.memoryOperand .zeroExtend start)
    return .zeroExtend operand.register (extension.byteRegister operand.place)
  else if 0x90 ≤ opcode ∧ opcode < 0xA0 then
    let operand <- fetchRegisters code extension (.memoryOperand .setByte start)
    return .setByte (Fin.ofNat 16 (opcode - 0x90).toNat) (extension.byteRegister operand.place)
  else
    throw (.unknownSecondOpcode opcode start)

/-- The operation with an opcode of the first table. -/
def firstTable (code : Code) (start : UInt64) (extension : Extension) (opcode : UInt8) :
    Decoder Operation := do
  if 0x50 ≤ opcode ∧ opcode < 0x58 then
    return .push (extension.place opcode)
  else if 0x58 ≤ opcode ∧ opcode < 0x60 then
    return .pop (extension.place opcode)
  else if 0xB8 ≤ opcode ∧ opcode < 0xC0 then
    if extension.isWide then
      return .load (extension.place opcode) (<- fetchQword code)
    else
      return .load (extension.place opcode) (<- fetchDword code).toUInt64
  else if let some operation := Arithmetic.ofOpcode? opcode then
    if extension.isWide then
      let operand <- fetchRegisters code extension (.memoryOperand .arithmetic start)
      return .arithmetic operation operand.place (.register operand.register)
    else
      throw (.narrowOperand start)
  else if opcode = 0x81 then
    if extension.isWide then
      let operand <- fetchRegisters code extension (.memoryOperand .arithmetic start)
      let bits <- fetchDword code
      match Arithmetic.ofExtension? operand.field with
      | some operation => return .arithmetic operation operand.place (.constant bits)
      | none => throw (.unsupportedArithmetic operand.field (<- position))
    else
      throw (.narrowOperand start)
  else if opcode = 0x89 then
    let operand <- fetchOperand code extension
    if operand.mode = 3 then
      return .move operand.place operand.register
    else
      return .write (<- fetchAddress code operand) operand.register
  else if opcode = 0x8B then
    let operand <- fetchOperand code extension
    if operand.mode = 3 then
      return .move operand.register operand.place
    else
      return .read operand.register (<- fetchAddress code operand)
  else if opcode = 0xC7 then
    let operand <- fetchOperand code extension
    if operand.mode = 3 then
      return .load operand.place (signExtended (<- fetchDword code))
    else
      let address <- fetchAddress code operand
      return .writeConstant address (<- fetchDword code)
  else if opcode = 0x90 then
    return .nothing
  else if opcode = 0x99 then
    return .extendSign
  else if opcode = 0xF7 then
    let operand <- fetchOperand code extension
    if operand.mode = 3 ∧ operand.field = 6 then
      return .divide operand.place
    else
      throw (.unsupportedGroup start)
  else if opcode = 0x0F then
    secondTable code start extension
  else
    throw (.unknownOpcode opcode start)

/-- The operation at the current place.  One extension byte may stand in front of the opcode. -/
def operation (code : Code) : Decoder Operation := do
  let start <- position
  let first <- fetchByte code
  if first &&& 0xF0 = 0x40 then
    firstTable code start ⟨first⟩ (<- fetchByte code)
  else
    firstTable code start ⟨0⟩ first

end Decoder

end LoxNative
