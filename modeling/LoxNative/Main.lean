import LoxNative.Command.Arguments
import LoxNative.Command.Listing
import LoxNative.Command.Session

namespace LoxNative
namespace Terminal

/-!
# The program

The first argument chooses the command: `repl` for a session over the standard input, `dump` for a
listing, and anything else for a build.  Only reading, writing and printing happen here.
-/

/-- The error of a file operation in the words of this library. -/
def fileError (action path : String) : IO.Error -> FileError
  | .noFileOrDirectory .. => .absent path
  | .inappropriateType .. => ⟨action, path, "is a directory"⟩
  | .permissionDenied .. => ⟨action, path, "permission denied"⟩
  | error => ⟨action, path, toString error⟩

/-- Access to the files of the system. -/
def files : FileAccess IO where
  absolute path := do
    return Path.absolute (<- IO.currentDir).toString path
  readFile path := do
    try
      return .ok (<- IO.FS.readBinFile path).toList
    catch error =>
      return .error (fileError "open" path error)
  writeFile path content executable := do
    try
      IO.FS.writeBinFile path ⟨content.toArray⟩
      if executable then
        IO.setAccessRights path
          { user := ⟨true, true, true⟩, group := ⟨true, false, true⟩, other := ⟨true, false, true⟩ }
      return .ok ()
    catch error =>
      return .error (fileError "open" path error)
  startFailure program := do
    if !program.toList.contains '/' then
      return .unknownName
    try
      let _ <- IO.FS.readBinFile program
      return .place "permission denied"
    catch error =>
      return .place (fileError "open" program error).reason

/-- Print a report and hand its status on. -/
def present (report : Report) : IO UInt32 := do
  (<- IO.getStdout).putStr report.output
  (<- IO.getStderr).putStr report.errors
  return UInt32.ofNat report.status

/-- All bytes that are left on a stream, behind those read before. -/
partial def drain (stream : IO.FS.Stream) (before : ByteArray) : IO ByteArray := do
  let chunk <- stream.read 65536
  if chunk.isEmpty then return before else drain stream (before ++ chunk)

/-- The listing command: an option to optimize, and at most one path. -/
def listing (optimize : Bool) : List String -> IO Report
  | [] => return Listing.run { optimize } Listing.sampleSource
  | path :: _ => do
      match <- files.readFile path with
      | .ok content => return Listing.run { optimize } (Text.ofBytes content)
      | .error error => return Listing.unreadable error.message

/-- Carry out a command line. -/
def run : List String -> IO Report
  | ["repl"] => do
      return Session.run (<- drain (<- IO.getStdin) .empty).toList
  | "dump" :: "-O" :: paths => listing true paths
  | "dump" :: paths => listing false paths
  | arguments =>
      match ({} : BuildRequest).ofArguments arguments with
      | .ok request => request.run files
      | .error complaint => return Build.refusal complaint

end Terminal
end LoxNative

def main (arguments : List String) : IO UInt32 := do
  LoxNative.Terminal.present (<- LoxNative.Terminal.run arguments)
