import LoxNative.Assembly
import LoxNative.ExecutableImage
import LoxNative.Instruction.Program
import LoxNative.ObjectFile
import LoxNative.Text.Quoted
import LoxNative.Workspace

namespace LoxNative

/-!
# Toolchains

A toolchain assembles text into objects and links objects into an executable.  The builtin one does
both itself.  An external one would start other programs, which this library cannot do, so it
reports that its program could not be started.  A recording one does no work and notes what it was
asked for.

A call may come with a request to cancel.  The builtin toolchain then refuses before doing anything,
and an external one before starting its program.
-/

/-- A toolchain that notes what it was asked for, and fails when it was told to. -/
structure Recording where
  assembleFailure : Option String := none
  linkFailure : Option String := none
  /-- The sources it was asked to assemble, in order. -/
  sources : List (List UInt8) := []
  /-- How often it was asked to link. -/
  links : Nat := 0
deriving DecidableEq, Inhabited

/-- A program that an external toolchain would start. -/
structure Tool where
  /-- Its name or its path. -/
  name : String
  failure : StartFailure
deriving DecidableEq, Inhabited

/-- A way to turn assembly text into an executable. -/
inductive Toolchain
  | builtin
  | external (assembler linker : Tool)
  | recording (record : Recording)
deriving DecidableEq, Inhabited

/-- Why a toolchain failed. -/
inductive ToolchainError
  | canceled
  | notAssembled (error : AssemblyError)
  | noEntry
  | objectCount (count : Nat)
  | badObject (error : ObjectFile.Error)
  | noObjects
  | toolCanceled (name : String)
  | notStarted (tool : Tool)
  /-- A failure that a recording toolchain was told to report. -/
  | told (text : String)
deriving DecidableEq, Inhabited

namespace ToolchainError

/-- The wording of an error. -/
def message : ToolchainError -> String
  | canceled => "context canceled"
  | notAssembled error => "Assemble: " ++ error.message
  | noEntry => s!"Assemble: no {Program.entryPoint} label"
  | objectCount count => s!"Link: builtin linker takes exactly one object, got {count}"
  | badObject error => "Link: " ++ error.message
  | noObjects => "Link: no objects"
  | toolCanceled name => name ++ ": context canceled"
  | notStarted ⟨name, .unknownName⟩ =>
      name ++ ": exec: " ++ Text.quoted name ++ ": executable file not found in $PATH"
  | notStarted ⟨name, .root⟩ => name ++ ": exec: " ++ Text.quoted name ++ ": is a directory"
  | notStarted ⟨name, .place reason⟩ => name ++ ": fork/exec " ++ name ++ ": " ++ reason
  | told text => text

end ToolchainError

namespace Toolchain

/-- The toolchain with a name.  An external one falls back on the usual names of its programs, and
is told why they cannot be started. -/
def ofName {m : Type -> Type} [Monad m] (startFailure : String -> m StartFailure)
    (name assembler linker : String) : m (Except String Toolchain) := do
  if name = "builtin" ∨ name = "" then
    return .ok .builtin
  else if name = "nasm" then
    let assembler := if assembler = "" then "nasm" else assembler
    let linker := if linker = "" then "ld" else linker
    return .ok (.external ⟨assembler, <- startFailure assembler⟩ ⟨linker, <- startFailure linker⟩)
  else
    return .error s!"unknown toolchain {Text.quoted name} (want builtin or nasm)"

/-- Assemble a text into an object file. -/
def objectOf (text : AssemblyText) : Except ToolchainError (List UInt8) :=
  match Assembly.ofText text with
  | .error error => .error (.notAssembled error)
  | .ok assembly =>
      match Assembly.labelOffset? assembly.labels Program.entryPoint with
      | none => .error .noEntry
      | some entry => .ok (ObjectFile.encode assembly.code entry)

/-- Link exactly one object file into an executable. -/
def imageOf (objects : List (List UInt8)) : Except ToolchainError (List UInt8) :=
  match objects with
  | [object] =>
      match ObjectFile.decode object with
      | .error error => .error (.badObject error)
      | .ok (code, entry) => .ok (ExecutableImage.encode code entry)
  | _ => .error (.objectCount objects.length)

/-- The failure to run a program. -/
def toolError (canceled : Bool) (tool : Tool) : ToolchainError :=
  if canceled then .toolCanceled tool.name else .notStarted tool

/-- Assemble the bytes of a source into an object. -/
def assemble (canceled : Bool) (source : List UInt8) :
    Toolchain -> Except ToolchainError (List UInt8) × Toolchain
  | builtin => (if canceled then .error .canceled else objectOf (Text.decode source), builtin)
  | external assembler linker => (.error (toolError canceled assembler), external assembler linker)
  | recording record =>
      (match record.assembleFailure with
        | some text => .error (.told text)
        | none => .ok source,
        recording { record with sources := record.sources ++ [source] })

/-- Link objects into an executable. -/
def link (canceled : Bool) (objects : List (List UInt8)) :
    Toolchain -> Except ToolchainError (List UInt8) × Toolchain
  | builtin => (if canceled then .error .canceled else imageOf objects, builtin)
  | external assembler linker =>
      (.error (if objects.isEmpty then .noObjects else toolError canceled linker),
        external assembler linker)
  | recording record =>
      (match record.linkFailure with
        | some text => .error (.told text)
        | none => .ok (Text.toBytes "EXE:" ++ objects.flatten),
        recording { record with links := record.links + 1 })

/-- Assemble a source and link the object. -/
def build (canceled : Bool) (source : List UInt8) (toolchain : Toolchain) :
    Except ToolchainError (List UInt8) × Toolchain :=
  match toolchain.assemble canceled source with
  | (.error error, toolchain) => (.error error, toolchain)
  | (.ok object, toolchain) => toolchain.link canceled [object]

end Toolchain

end LoxNative
