import LoxNative.Path

namespace LoxNative

/-!
# Files

What a command needs of the file system: absolute paths, reading whole files and writing whole
files.  A command is written against this interface, so that it can be run on real files as well as
on a workspace, which is a small file system held in memory with the directory that the command
works in.

A path that starts at the root is followed from there, and any other from the working directory.  A
path can therefore leave that directory, and what is written elsewhere does not count as a change to
it.
-/

/-- Why a file could not be read or written. -/
structure FileError where
  /-- What was being done to the file. -/
  action : String
  path : String
  reason : String
deriving DecidableEq, Inhabited

namespace FileError

/-- The wording of an error. -/
def message (error : FileError) : String :=
  s!"{error.action} {error.path}: {error.reason}"

def absent (path : String) : FileError := ⟨"open", path, "no such file or directory"⟩
def underFile (path : String) : FileError := ⟨"open", path, "not a directory"⟩
def tooLong (path : String) : FileError := ⟨"open", path, "file name too long"⟩
def openDirectory (path : String) : FileError := ⟨"open", path, "is a directory"⟩
def readDirectory (path : String) : FileError := ⟨"read", path, "is a directory"⟩

end FileError

/-- Why a program could not be started. -/
inductive StartFailure
  /-- No folder of programs has the name. -/
  | unknownName
  /-- The root was given, which is a name and a place at once. -/
  | root
  /-- Nothing at the place that was given can be started. -/
  | place (reason : String)
deriving DecidableEq, Inhabited

/-- Access to files from inside a computation. -/
structure FileAccess (m : Type -> Type) where
  /-- The absolute form of a path. -/
  absolute : String -> m String
  readFile : String -> m (Except FileError (List UInt8))
  /-- Write a file; a new one is made executable when that is asked for. -/
  writeFile : (path : String) -> (content : List UInt8) -> (executable : Bool) ->
    m (Except FileError Unit)
  /-- Why the program with a name or a path cannot be started. -/
  startFailure : String -> m StartFailure

/-- A file of a workspace. -/
structure File where
  content : List UInt8
  executable : Bool := false
deriving DecidableEq, Inhabited

/-- A file system held in memory.  Every place in it is given by the components of its path from the
root. -/
structure Workspace where
  /-- The directory in which a command works. -/
  directory : List String
  /-- Further folders, which are there whether or not they hold a file. -/
  folders : List (List String)
  files : List (List String × File)
deriving DecidableEq, Inhabited

namespace Workspace

/-- The folders at the root of every system. -/
def rootFolders : List (List String) :=
  [["bin"], ["boot"], ["dev"], ["etc"], ["home"], ["lib"], ["media"], ["mnt"], ["opt"], ["proc"],
    ["root"], ["run"], ["sbin"], ["srv"], ["sys"], ["tmp"], ["usr"], ["var"]]

/-- The place of the null device. -/
def nullDevice : List String :=
  ["dev", "null"]

/-- What stands at a place. -/
inductive Entry
  | nothing
  | file (file : File)
  | folder
  /-- A device that is empty to its readers and keeps nothing of what is written to it. -/
  | sink

/-- What stands at a place.  Whatever exists lies in folders, up to the root. -/
def entry (workspace : Workspace) (place : List String) : Entry :=
  match workspace.files.lookup place with
  | some file => .file file
  | none =>
      if place = nullDevice then .sink
      else if place.isEmpty ∨ (workspace.directory :: workspace.folders).any place.isPrefixOf ∨
          workspace.files.any fun file => place.isPrefixOf file.1 then
        .folder
      else
        .nothing

/-- The longest name that a component can have, in bytes. -/
def longestName : Nat := 255

/-- The longest path that can be followed, in bytes. -/
def longestPath : Nat := 4095

/-- Follow components from a folder, given last component first, to the folder they lead to.  The
root is its own parent. -/
def follow (workspace : Workspace) (path : String) (folder : List String) :
    List String -> Except FileError (List String)
  | [] => .ok folder
  | component :: rest =>
      if component = "" ∨ component = "." then workspace.follow path folder rest
      else if component = ".." then workspace.follow path folder.tail rest
      else if longestName < component.utf8ByteSize then .error (.tooLong path)
      else
        match workspace.entry (component :: folder).reverse with
        | .folder => workspace.follow path (component :: folder) rest
        | .file _ | .sink => .error (.underFile path)
        | .nothing => .error (.absent path)

/-- Where a path leads. -/
structure Target where
  place : List String
  /-- What stands there. -/
  entry : Entry
  /-- Whether the path ends in a slash, so that it can only mean a folder. -/
  slashed : Bool

/-- Find where a path leads.  The empty path leads nowhere. -/
def locate (workspace : Workspace) (path : String) : Except FileError Target := do
  if path = "" then
    throw (.absent path)
  if longestPath < path.utf8ByteSize then
    throw (.tooLong path)
  let components := Path.components path
  let names := (components.reverse.dropWhile (· == "")).reverse
  let start := if Path.isRooted path then [] else workspace.directory.reverse
  let folder <- workspace.follow path start names.dropLast
  match names.getLast? with
  | none => return ⟨folder.reverse, .folder, true⟩
  | some "." => return ⟨folder.reverse, .folder, false⟩
  | some ".." => return ⟨folder.tail.reverse, .folder, false⟩
  | some name =>
      let place := (name :: folder).reverse
      if longestName < name.utf8ByteSize then
        throw (.tooLong path)
      else
        return ⟨place, workspace.entry place, names.length < components.length⟩

/-- The contents of a file. -/
def readFile (workspace : Workspace) (path : String) : Except FileError (List UInt8) := do
  let target <- workspace.locate path
  match target.entry, target.slashed with
  | .file file, false => return file.content
  | .sink, false => return []
  | .file _, true | .sink, true => throw (.underFile path)
  | .folder, _ => throw (.readDirectory path)
  | .nothing, _ => throw (.absent path)

/-- Add a file, or exchange the one at its place. -/
def insert (workspace : Workspace) (place : List String) (file : File) : Workspace :=
  { workspace with files := (place, file) :: workspace.files.filter (·.1 != place) }

/-- Write a file.  One that is already there keeps its permission to be executed.  No file can be
made at a path that ends in a slash. -/
def writeFile (workspace : Workspace) (path : String) (content : List UInt8) (executable : Bool) :
    Except FileError Workspace := do
  let target <- workspace.locate path
  match target.entry, target.slashed with
  | .file file, false => return workspace.insert target.place { file with content }
  | .sink, false => return workspace
  | .nothing, false => return workspace.insert target.place { content, executable }
  | .folder, false | _, true => throw (.openDirectory path)

/-- Why a program cannot be started.  A name with a slash is a path, and no file of a workspace is a
program; any other name would have to be found among the programs of the system, of which there are
none. -/
def startFailure (workspace : Workspace) (program : String) : StartFailure :=
  if program = "/" then .root
  else if !program.toList.contains '/' then .unknownName
  else
    .place (match workspace.locate program with
      | .error error => error.reason
      | .ok target =>
          match target.entry, target.slashed with
          | .nothing, _ => (FileError.absent program).reason
          | .file _, true | .sink, true => (FileError.underFile program).reason
          | _, _ => "permission denied")

/-- The path of the directory in which a command works. -/
def directoryPath (workspace : Workspace) : String :=
  "/" ++ String.intercalate "/" workspace.directory

/-- The place that an absolute path names. -/
def placeOf (path : String) : List String :=
  (Path.components (Path.clean path)).filter (· != "")

/-- A workspace whose directory, given by its absolute path, holds text files, given by their paths
in it. -/
def ofTexts (directory : String) (texts : List (String × List UInt8)) : Workspace :=
  texts.foldl (fun workspace (path, content) =>
    workspace.insert (placeOf (directory ++ "/" ++ path)) { content })
    { directory := placeOf directory, folders := rootFolders, files := [] }

/-- The files in the directory that another workspace lacks or has otherwise, by their paths in
it. -/
def changes (workspace before : Workspace) : List (String × File) :=
  (workspace.files.filterMap fun (place, file) =>
    if workspace.directory.isPrefixOf place ∧ before.files.lookup place ≠ some file then
      some (String.intercalate "/" (place.drop workspace.directory.length), file)
    else
      none).mergeSort fun first second => first.1 ≤ second.1

/-- Access to the files of a workspace. -/
def access : FileAccess (StateM Workspace) where
  absolute path := do
    return Path.absolute (<- get).directoryPath path
  readFile path := do
    return (<- get).readFile path
  writeFile path content executable := do
    match (<- get).writeFile path content executable with
    | .ok workspace => set workspace; return .ok ()
    | .error error => return .error error
  startFailure program := do
    return (<- get).startFailure program

end Workspace

end LoxNative
