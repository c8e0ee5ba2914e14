import LoxNative.Text.Pieces

namespace LoxNative
namespace Path

/-!
# Paths

Names of files as sequences of components between slashes.  A path is only changed as text here,
without a look at any file.
-/

/-- The components of a path. -/
def components (path : String) : List String :=
  (Text.pieces '/' path.toList).map String.ofList

/-- Whether a path starts at the root. -/
def isRooted (path : String) : Bool :=
  path.toList.head? == some '/'

/-- Add a component to the simplified ones, which are given last first.  A step up takes the
component before it away, unless that is a step up itself or there is none; at the root it goes
nowhere. -/
def simplify (rooted : Bool) (done : List String) (component : String) : List String :=
  if component = "" ∨ component = "." then done
  else if component = ".." then
    match done with
    | last :: rest => if last = ".." then component :: last :: rest else rest
    | [] => if rooted then [] else [component]
  else component :: done

/-- The shortest path with the same meaning, as far as text can tell. -/
def clean (path : String) : String :=
  let rooted := isRooted path
  let simplified := ((components path).foldl (simplify rooted) []).reverse
  if rooted then "/" ++ String.intercalate "/" simplified
  else if simplified.isEmpty then "."
  else String.intercalate "/" simplified

/-- The path of the directory that a path lies in. -/
def parent (path : String) : String :=
  clean (String.ofList (path.toList.reverse.dropWhile (· != '/')).reverse)

/-- The path seen from a directory, simplified. -/
def absolute (directory path : String) : String :=
  if isRooted path then clean path else clean (directory ++ "/" ++ path)

/-- The extension of a path: from the last dot of its last component on, or nothing. -/
def extension (path : String) : List Char :=
  let last := (path.toList.reverse.takeWhile (· != '/')).reverse
  if last.contains '.' then '.' :: (last.reverse.takeWhile (· != '.')).reverse else []

/-- Exchange the extension of a path.  When that changes nothing, a further extension is added, so
that a source is never overwritten by what is made from it. -/
def withExtension (path replacement : String) : String :=
  let stem := String.ofList (path.toList.take (path.toList.length - (extension path).length))
  if stem ++ replacement = path then path ++ ".out" else stem ++ replacement

end Path
end LoxNative
