import LoxNative.Command.Build

namespace LoxNative

/-!
# Arguments of the build command

Options stand in front of the paths.  An option is written with one or two dashes, and its value
stands behind an equals sign or is the next argument.  Two dashes alone end the options.
-/

/-- What the build command was asked for. -/
structure BuildRequest where
  options : BuildOptions := {}
  toolchain : String := "builtin"
  assembler : String := "nasm"
  linker : String := "ld"
  paths : List String := []
deriving Inhabited

namespace BuildRequest

/-- The name of an option and the value behind its equals sign, or nothing for a path. -/
def option? (argument : String) : Option (String × Option String) :=
  let named (text : List Char) :=
    let name := text.takeWhile (· != '=')
    (String.ofList name, (text.dropWhile (· != '=')).tail?.map String.ofList)
  match argument.toList with
  | ['-'] => none
  | '-' :: '-' :: text => some (named text)
  | '-' :: text => some (named text)
  | _ => none

/-- Turn on an option that has no value. -/
def switch? (request : BuildRequest) (name : String) (on : Bool) : Option BuildRequest :=
  match name with
  | "S" => some { request with options.emitAssembly := on }
  | "O" => some { request with options.lowering.optimize := on }
  | "run" => some { request with options.runProgram := on }
  | _ => none

/-- Set an option that has a value.  Files are built one after the other and no other program is
started, so the number of jobs and the time limit change nothing. -/
def set? (request : BuildRequest) (name value : String) : Option BuildRequest :=
  match name with
  | "o" => some { request with options.output := if value = "" then none else some value }
  | "toolchain" => some { request with toolchain := value }
  | "nasm" => some { request with assembler := value }
  | "ld" => some { request with linker := value }
  | "j" | "timeout" => some request
  | _ => none

/-- Read arguments behind those that a request was made from. -/
def ofArguments (request : BuildRequest) : List String -> Except String BuildRequest
  | [] => .ok request
  | argument :: rest =>
      if argument = "--" then .ok { request with paths := rest }
      else
        match option? argument with
        | none => .ok { request with paths := argument :: rest }
        | some (name, value?) =>
            match request.switch? name (value? != some "false") with
            | some request => request.ofArguments rest
            | none =>
                match value?, rest with
                | some value, rest =>
                    match request.set? name value with
                    | some request => request.ofArguments rest
                    | none => .error s!"flag provided but not defined: -{name}"
                | none, value :: rest =>
                    match request.set? name value with
                    | some request => request.ofArguments rest
                    | none => .error s!"flag provided but not defined: -{name}"
                | none, [] => .error s!"flag needs an argument: -{name}"

/-- Carry out a request. -/
def run {m : Type -> Type} [Monad m] (files : FileAccess m) (request : BuildRequest) : m Report :=
  Build.run files request.options request.toolchain request.assembler request.linker request.paths

end BuildRequest

end LoxNative
