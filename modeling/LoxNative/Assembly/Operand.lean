import LoxNative.Assembly.Line
import LoxNative.Instruction.Operand
import LoxNative.Text.Numeral

namespace LoxNative

/-!
# Operands in assembly text

An operand is a register, a bracketed place in memory with an optional width in front, or a
constant.  A constant is a numeral or a label; a label stands for its offset in the code.  While the
code is only being measured, a label that is defined further down counts as zero.
-/

/-- The offset of every label that has been defined, latest definition first. -/
abbrev LabelTable := List (String × UInt32)

/-- The two passes over a text: the first measures every instruction to place the labels, the second
emits the code with all labels known. -/
inductive Pass
  | measuring
  | emitting
deriving DecidableEq, Inhabited

/-- An operand with its meaning. -/
inductive AssemblyOperand
  | register (which : Register)
  | immediate (value : UInt64)
  | memory (place : MemoryOperand)
deriving DecidableEq, Inhabited

namespace AssemblyOperand

open AssemblyText

/-- The words for widths. -/
def sizes : List (String × Size) :=
  [("BYTE", .byte), ("WORD", .word), ("DWORD", .dword), ("QWORD", .qword)]

/-- Take a width off the front of an operand.  The word for it must be followed by a space. -/
def splitSize (text : AssemblyText) : Size × AssemblyText :=
  match text.dropWhile (· != .char ' ') with
  | _ :: tail =>
      match sizes.lookup (upperCase (text.takeWhile (· != .char ' '))) with
      | some size => (size, trim tail)
      | none => (.unsized, text)
  | [] => (.unsized, text)

/-- Whether a glyph is the sign in front of a displacement. -/
def isSign (glyph : Text.Glyph) : Bool :=
  glyph == .char '+' || glyph == .char '-'

/-- Read the inside of brackets: a base register, and a displacement behind its sign.  Spaces do not
count, wherever they stand. -/
def parseMemory (size : Size) (inner : AssemblyText) : Except AssemblyFault AssemblyOperand := do
  let inner := Text.rejoin (inner.filter (· != .char ' '))
  let baseText := inner.takeWhile (!isSign ·)
  let displacementText := inner.dropWhile (!isSign ·)
  match Register.ofName? (lowerCase baseText) with
  | none => throw (.invalidRegister (Text.shown baseText))
  | some base =>
      if displacementText.isEmpty then
        return .memory { base, size }
      else
        match (chars? displacementText).bind (Text.readSigned 0x80000000) with
        | some displacement => return .memory { base, size, offset := Int32.ofInt displacement }
        | none => throw (.invalidDisplacement (Text.shown displacementText))

/-- The offset of a label, looked up by the text of an operand. -/
def labelOffset? (labels : LabelTable) (text : AssemblyText) : Option UInt32 := do
  labels.lookup (String.ofList (<- chars? text))

/-- Read a constant. -/
def parseImmediate (labels : LabelTable) (pass : Pass) (text : AssemblyText) :
    Except AssemblyFault UInt64 :=
  match (chars? text).bind (Text.readUnsigned 0x10000000000000000) with
  | some value => .ok (UInt64.ofNat value)
  | none =>
      match labelOffset? labels text with
      | some offset => .ok offset.toUInt64
      | none =>
          if isIdentifier text then
            match pass with
            | .measuring => .ok 0
            | .emitting => .error (.undefinedLabel (Text.shown text))
          else
            .error (.invalidImmediate (Text.shown text))

/-- Read an operand. -/
def parse (labels : LabelTable) (pass : Pass) (text : AssemblyText) :
    Except AssemblyFault AssemblyOperand :=
  if text.isEmpty then
    .error .missingOperand
  else
    match Register.ofName? (lowerCase text) with
    | some which => .ok (.register which)
    | none =>
        match splitSize text with
        | (size, .char '[' :: rest) =>
            if rest.getLast? = some (.char ']') then parseMemory size rest.dropLast
            else .error .unterminatedMemory
        | (.unsized, text) => (parseImmediate labels pass text).map .immediate
        | _ => .error .sizeWithoutMemory

end AssemblyOperand

end LoxNative
