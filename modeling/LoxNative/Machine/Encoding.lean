import LoxNative.LittleEndian
import LoxNative.Machine.Operation

namespace LoxNative

/-!
# Encoding of operations

The bytes of each operation.  A register number has four bits: three of them stand in the opcode or
in the operand byte, and the fourth in the extension byte in front of the opcode, which also selects
the 64-bit width.
-/

namespace Encoding

/-- The operand byte, packed from its mode and two register numbers. -/
def operandByte (mode register place : UInt8) : UInt8 :=
  (mode <<< 6) ||| ((register &&& 7) <<< 3) ||| (place &&& 7)

/-- The extension byte, which carries the width and the fourth bits of three register numbers. -/
def extensionByte (wide : Bool) (register index place : UInt8) : UInt8 :=
  0x40 ||| (if wide then 0x08 else 0) ||| (if register &&& 8 != 0 then 0x04 else 0) |||
    (if index &&& 8 != 0 then 0x02 else 0) ||| (if place &&& 8 != 0 then 0x01 else 0)

/-- A register number as a byte. -/
def byteOf (number : RegisterNumber) : UInt8 :=
  UInt8.ofNat number

/-- An opcode that holds a register number, behind an extension byte when the number needs one. -/
def withRegister (opcode : UInt8) (number : RegisterNumber) : List UInt8 :=
  (if 8 ≤ number.val then [0x41] else []) ++ [opcode + (byteOf number &&& 7)]

/-- A 64-bit opcode on two registers. -/
def onRegisters (opcode : List UInt8) (register place : UInt8) : List UInt8 :=
  extensionByte true register 0 place :: opcode ++ [operandByte 3 register place]

/-- A 64-bit opcode on a register and a place in memory.  The distance takes no byte, one byte or
four; a base with the low bits of `rbp` always has one, and a base with the low bits of `rsp` needs
a further byte. -/
def onMemory (opcode : UInt8) (register : UInt8) (address : Address) : List UInt8 :=
  let base := byteOf address.base
  let displacement := address.displacement
  let mode : UInt8 :=
    if displacement = 0 ∧ base &&& 7 ≠ 5 then 0
    else if -128 ≤ displacement ∧ displacement ≤ 127 then 1
    else 2
  [extensionByte true register 0 base, opcode, operandByte mode register base] ++
    (if base &&& 7 = 4 then [0x24] else []) ++
    (if mode = 1 then LittleEndian.bytes 1 displacement.toUInt32.toNat
      else if mode = 2 then LittleEndian.dword displacement.toUInt32
      else [])

end Encoding

namespace Operation

open Encoding

/-- The bytes of an operation.  A constant below 2^31 is loaded by the form that extends its sign,
one below 2^32 by the form that clears the upper half, and any other by the form with eight
bytes. -/
def encode : Operation -> List UInt8
  | push register => withRegister 0x50 register
  | pop register => withRegister 0x58 register
  | load register value =>
      if value.toNat < 0x80000000 then
        onRegisters [0xC7] 0 (byteOf register) ++ LittleEndian.dword value.toUInt32
      else if value.toNat < 0x100000000 then
        withRegister 0xB8 register ++ LittleEndian.dword value.toUInt32
      else
        [extensionByte true 0 0 (byteOf register), 0xB8 + (byteOf register &&& 7)] ++
          LittleEndian.qword value
  | move destination source => onRegisters [0x89] (byteOf source) (byteOf destination)
  | read destination address => onMemory 0x8B (byteOf destination) address
  | write address source => onMemory 0x89 (byteOf source) address
  | writeConstant address bits => onMemory 0xC7 0 address ++ LittleEndian.dword bits
  | arithmetic operation destination (.register source) =>
      onRegisters [operation.opcode] (byteOf source) (byteOf destination)
  | arithmetic operation destination (.constant bits) =>
      extensionByte true 0 0 (byteOf destination) :: 0x81 ::
        operandByte 3 operation.extension (byteOf destination) :: LittleEndian.dword bits
  | multiply destination source => onRegisters [0x0F, 0xAF] (byteOf destination) (byteOf source)
  | divide divisor =>
      [extensionByte true 0 0 (byteOf divisor), 0xF7, operandByte 3 6 (byteOf divisor)]
  | zeroExtend destination source => onRegisters [0x0F, 0xB6] (byteOf destination) source.code
  | setByte condition destination =>
      (if destination.needsExtension then [extensionByte false 0 0 destination.code] else []) ++
        [0x0F, 0x90 ||| UInt8.ofNat condition, operandByte 3 0 destination.code]
  | extendSign => [0x48, 0x99]
  | nothing => [0x90]
  | systemCall => [0x0F, 0x05]

end Operation

end LoxNative
