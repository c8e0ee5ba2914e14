import LoxNative.Instruction.Register

namespace LoxNative

/-!
# Operands

What an instruction works on: a register, a place in memory relative to a register, or a constant.
-/

/-- The width directive in front of a memory operand. -/
inductive Size
  /-- No directive. -/
  | unsized
  | byte
  | word
  | dword
  | qword
  /-- A directive number that names none of the others; it is written as no word at all. -/
  | unlisted (code : UInt8)
deriving DecidableEq, Inhabited

namespace Size

/-- The directive with a number. -/
def ofCode (code : UInt8) : Size :=
  match [unsized, byte, word, dword, qword][code.toNat]? with
  | some size => size
  | none => unlisted code

/-- The word of a directive. -/
def name : Size -> String
  | byte => "BYTE"
  | word => "WORD"
  | dword => "DWORD"
  | qword => "QWORD"
  | unsized | unlisted _ => ""

/-- The number of bytes a directive selects, zero when it selects none. -/
def bytes : Size -> Nat
  | byte => 1
  | word => 2
  | dword => 4
  | qword => 8
  | unsized | unlisted _ => 0

end Size

/-- A place given by a register and a distance from it.  Without brackets the operand names the
address itself. -/
structure MemoryOperand where
  base : Register
  size : Size := .unsized
  offset : Int32 := 0
  dereferenced : Bool := true
deriving DecidableEq, Inhabited

namespace MemoryOperand

/-- The base and the signed distance, which is left out when it is zero. -/
def address (operand : MemoryOperand) : String :=
  if 0 < operand.offset then s!"{operand.base.name}+{operand.offset.toInt}"
  else if operand.offset < 0 then s!"{operand.base.name}{operand.offset.toInt}"
  else operand.base.name

/-- A memory operand as it is written. -/
def render (operand : MemoryOperand) : String :=
  let place := if operand.dereferenced then "[" ++ operand.address ++ "]" else operand.address
  if operand.size = .unsized then place else operand.size.name ++ " " ++ place

end MemoryOperand

/-- What an instruction works on. -/
inductive Operand
  | register (which : Register)
  /-- A register listing number that belongs to no register. -/
  | unlisted (index : UInt8)
  | memory (place : MemoryOperand)
  | immediate (value : UInt32)
deriving DecidableEq, Inhabited

namespace Operand

/-- An operand as it is written. -/
def render : Operand -> String
  | register which => which.name
  | unlisted index => Register.nameOfIndex index
  | memory place => place.render
  | immediate value => s!"{value.toNat}"

/-- The register operand with a listing number. -/
def ofIndex (index : UInt8) : Operand :=
  match Register.all[index.toNat]? with
  | some which => .register which
  | none => .unlisted index

end Operand

end LoxNative
