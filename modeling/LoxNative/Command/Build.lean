import LoxNative.Command.Report
import LoxNative.Compilation
import LoxNative.Toolchain
import LoxNative.Workspace

namespace LoxNative

/-!
# The build command

Compile source files, one after the other, and write an executable or assembly text for each.  A
failure in one file does not stop the others: the complaints follow at the end, in the order of the
files.
-/

/-- What to do with the files. -/
structure BuildOptions where
  lowering : LoweringOptions := {}
  toolchain : Toolchain := .builtin
  /-- Write assembly text, not an executable. -/
  emitAssembly : Bool := false
  /-- Also run each program on the machine. -/
  runProgram : Bool := false
  /-- Where to write; otherwise the place follows from the source's path. -/
  output : Option String := none
deriving Inhabited

/-- Why a file could not be built. -/
inductive BuildError
  | unreadable (path : String) (error : FileError)
  | notCompiled (path : String) (error : CompileError)
  | notRun (path reason : String)
  | notBuilt (path : String) (error : ToolchainError)
  | assemblyNotWritten (path : String) (error : FileError)
  | executableNotWritten (path : String) (error : FileError)
deriving DecidableEq, Inhabited

namespace BuildError

/-- The wording of an error. -/
def message : BuildError -> String
  | unreadable path error => s!"failed to read input file {Text.quoted path}: {error.message}"
  | notCompiled path error => path ++ ": " ++ error.message
  | notRun path reason => path ++ ": " ++ reason
  | notBuilt path error => path ++ ": " ++ error.message
  | assemblyNotWritten path error =>
      s!"failed to write assembly file {Text.quoted path}: {error.message}"
  | executableNotWritten path error =>
      s!"failed to write executable {Text.quoted path}: {error.message}"

/-- Whether the source itself was at fault. -/
def isDiagnostic : BuildError -> Bool
  | notCompiled _ (.rejected _) => true
  | _ => false

end BuildError

namespace Build

/-- The path to write to. -/
def outputPath (options : BuildOptions) (path extension : String) : String :=
  options.output.getD (Path.withExtension path extension)

/-- The line that reports a finished run. -/
def runLine (path : String) (machine : Machine) : String :=
  s!"run complete ({path}): exit={machine.exitCode} value={machine.exitStatus.toInt64.toInt}" ++
    s!" steps={machine.steps.toNat}\n"

/-- Run a compiled program if that is asked for. -/
def runText (options : BuildOptions) (path assembly : String) : Except BuildError String :=
  if options.runProgram then
    let outcome := execute (Text.glyphs assembly)
    match outcome.error?, outcome.machine? with
    | some reason, _ => .error (.notRun path reason)
    | none, some machine => .ok (Text.ofBytes machine.output.toList ++ runLine path machine)
    | none, none => .ok ""
  else
    .ok ""

variable {m : Type -> Type} [Monad m]

/-- Write the product of one file.  The text is what was printed before. -/
def writeProduct (files : FileAccess m) (options : BuildOptions) (path assembly printed : String) :
    m (String × Option BuildError) := do
  if options.emitAssembly then
    let output := outputPath options path ".asm"
    match <- files.writeFile output (Text.toBytes assembly) false with
    | .error error => return (printed, some (.assemblyNotWritten output error))
    | .ok () =>
        return (printed ++ s!"wrote {assembly.utf8ByteSize} bytes of assembly -> {output}\n", none)
  else
    match (options.toolchain.build false (Text.toBytes assembly)).1 with
    | .error error => return (printed, some (.notBuilt path error))
    | .ok image =>
        let output := outputPath options path ""
        match <- files.writeFile output image true with
        | .error error => return (printed, some (.executableNotWritten output error))
        | .ok () => return (printed ++ s!"built {image.length} bytes -> {output}\n", none)

/-- Build one file: what was printed, and the error if there was one. -/
def file (files : FileAccess m) (options : BuildOptions) (path : String) :
    m (String × Option BuildError) := do
  match <- files.readFile (<- files.absolute path) with
  | .error error => return ("", some (.unreadable path error))
  | .ok content =>
      match compile options.lowering (Text.ofBytes content) with
      | .error error => return ("", some (.notCompiled path error))
      | .ok assembly =>
          match runText options path assembly with
          | .error error => return ("", some error)
          | .ok printed => writeProduct files options path assembly printed

/-- The status of the command: 65 if some source was at fault, 1 for any other failure, and 0
otherwise. -/
def status (errors : List BuildError) : Nat :=
  if errors.any BuildError.isDiagnostic then 65 else if errors.isEmpty then 0 else 1

/-- Build all files in order. -/
def all (files : FileAccess m) (options : BuildOptions) (paths : List String) : m Report := do
  let results <- paths.mapM (file files options)
  let errors := results.filterMap Prod.snd
  return {
    status := status errors
    output := String.join (results.map Prod.fst)
    errors := String.join (errors.map fun error => s!"complox: {error.message}\n") }

/-- The complaint about a request that cannot be carried out at all. -/
def refusal (text : String) : Report :=
  { status := 2, errors := text ++ "\n" }

/-- The whole command.  The toolchain is given by its name and by the names of external programs. -/
def run (files : FileAccess m) (options : BuildOptions) (toolchain assembler linker : String)
    (paths : List String) : m Report := do
  if paths.isEmpty then
    return refusal "nothing to do: provide one or more source files"
  else if options.output.isSome ∧ 1 < paths.length then
    return refusal "-o can only be used with a single input file"
  else
    match <- Toolchain.ofName files.startFailure toolchain assembler linker with
    | .error text => return refusal text
    | .ok toolchain => all files { options with toolchain } paths

end Build

end LoxNative
