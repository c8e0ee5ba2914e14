import LoxNative.Assembly.Selection
import LoxNative.Machine.Encoding
import Std.Data.TreeMap

namespace LoxNative

/-!
# Assembling

Turn assembly text into machine code in two passes.  The first pass gives every label the offset of
the code behind it, and to know that offset it measures every instruction.  The second pass emits
the code, and notes for each instruction the line it came from.

A label that is not yet defined when an instruction is measured counts as zero.  This takes the same
form as any offset below 2^31, so both passes agree on every length.
-/

/-- The line of each instruction, by the offset of its first byte. -/
abbrev SourceMap := Std.TreeMap UInt32 Nat

/-- Assembled code and where it came from. -/
structure Assembly where
  code : List UInt8
  sourceMap : SourceMap
  labels : LabelTable

namespace Statement

/-- The code of a statement. -/
def encode (labels : LabelTable) (pass : Pass) (statement : Statement) :
    Except AssemblyFault (List UInt8) := do
  let operands <- statement.operands.mapM (AssemblyOperand.parse labels pass)
  return (<- Operation.select statement.mnemonic operands).encode

end Statement

namespace Assembly

/-- Define labels at an offset.  The definitions before a duplicate stay. -/
def define (offset : UInt32) : List String -> LabelTable -> LabelTable × Option AssemblyFault
  | [], labels => (labels, none)
  | name :: rest, labels =>
      if (labels.lookup name).isSome then (labels, some (.duplicateLabel name))
      else define offset rest ((name, offset) :: labels)

/-- The first pass: the labels of the lines, and the first error.  The labels before an error
stay. -/
def survey : List (Nat × Except AssemblyError Line) -> UInt32 -> LabelTable ->
    LabelTable × Option AssemblyError
  | [], _, labels => (labels, none)
  | (_, .error error) :: _, _, labels => (labels, some error)
  | (number, .ok line) :: rest, offset, labels =>
      match define offset line.labels labels with
      | (labels, some fault) => (labels, some ⟨number, fault⟩)
      | (labels, none) =>
          match line.instruction? with
          | none => survey rest offset labels
          | some statement =>
              match statement.encode labels .measuring with
              | .error fault => (labels, some ⟨number, fault⟩)
              | .ok code => survey rest (offset + UInt32.ofNat code.length) labels

/-- The second pass: the code of the lines behind the code already emitted. -/
def emit (labels : LabelTable) : List (Nat × Except AssemblyError Line) -> Array UInt8 ->
    SourceMap ->
    Except AssemblyError (Array UInt8 × SourceMap)
  | [], code, sourceMap => .ok (code, sourceMap)
  | (_, .error error) :: _, _, _ => .error error
  | (number, .ok line) :: rest, code, sourceMap =>
      match line.instruction? with
      | none => emit labels rest code sourceMap
      | some statement =>
          match statement.encode labels .emitting with
          | .error fault => .error ⟨number, fault⟩
          | .ok bytes =>
              let sourceMap := sourceMap.insert (UInt32.ofNat code.size) number
              emit labels rest (code ++ bytes) sourceMap

/-- Assemble a text.  The labels are there also when assembling fails: those defined before the
error. -/
def run (text : AssemblyText) : LabelTable × Except AssemblyError Assembly :=
  let lines := Line.numbered text
  match survey lines 0 [] with
  | (labels, some error) => (labels, .error error)
  | (labels, none) =>
      (labels, (emit labels lines #[] ∅).map fun (code, sourceMap) =>
        ⟨code.toList, sourceMap, labels⟩)

/-- Assemble a text. -/
def ofText (text : AssemblyText) : Except AssemblyError Assembly :=
  (run text).2

/-- The offset of a label.  White space around its name does not count. -/
def labelOffset? (labels : LabelTable) (name : String) : Option UInt32 :=
  labels.lookup (Text.shown (AssemblyText.trim (Text.glyphs name)))

end Assembly

end LoxNative
