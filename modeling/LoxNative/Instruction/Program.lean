import LoxNative.Instruction.Idiom

namespace LoxNative

/-!
# Programs

A program is an optional data section followed by text sections, and is written as assembly text
with one blank line behind every idiom.
-/

/-- A labelled run of idioms. -/
structure Section where
  name : String
  idioms : List Idiom
deriving DecidableEq, Inhabited

namespace Section

/-- The change in stack depth over a whole section. -/
def stackEffect (part : Section) : Int :=
  (part.idioms.map Idiom.stackEffect).foldr (· + ·) 0

/-- Whether all idioms of a section can be written. -/
def isWritable (part : Section) : Bool :=
  part.idioms.all Idiom.isWritable

/-- A section as it is written. -/
def render (part : Section) : String :=
  part.name ++ ":\n" ++ String.join (part.idioms.map fun idiom => idiom.render ++ "\n")

end Section

/-- An optional data section and the text sections. -/
structure Program where
  data : Option Section := none
  text : List Section
deriving DecidableEq, Inhabited

namespace Program

/-- The label at which execution starts. -/
def entryPoint : String := "_start"

/-- Whether all sections of a program can be written. -/
def isWritable (program : Program) : Bool :=
  program.data.all Section.isWritable && program.text.all Section.isWritable

/-- A program as assembly text. -/
def render (program : Program) : String :=
  (match program.data with
    | some part => "section .data\n" ++ part.render
    | none => "") ++
    "section .text\nglobal " ++ entryPoint ++ "\n" ++ String.join (program.text.map Section.render)

end Program

end LoxNative
