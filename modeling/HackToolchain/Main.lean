import HackToolchain.CommandLine.Session

/-! # The program

The command line on the system that the program runs on.
-/

namespace HackToolchain

/-- The error of a file operation that the system refused. -/
def fileError : IO.Error → FileError
  | .noFileOrDirectory _ _ _ => .notFound
  | .inappropriateType _ 20 _ => .notDirectory
  | .inappropriateType _ 21 _ => .isDirectory
  | error => .other error.toString

/-- The result of a file operation. -/
def attempt {α : Type} (action : IO α) : IO (Except FileError α) := do
  match ← action.toBaseIO with
  | .ok result => return .ok result
  | .error error => return .error (fileError error)

/-- The system as a host. -/
def systemHost : Host IO where
  isDirectory path := do
    match ← attempt (IO.FS.realPath path) with
    | .ok found => found.isDir
    | .error _ => return false
  isFile path := do
    match ← attempt (IO.FS.realPath path) with
    | .ok found => return (← found.pathExists) && !(← found.isDir)
    | .error _ => return false
  list path := attempt do
    return ((← (← IO.FS.realPath path).readDir).map fun entry => entry.fileName).toList
  directoryName path := attempt do
    return (← IO.FS.realPath path).fileName
  read path := attempt (IO.FS.readBinFile path)
  write path contents := attempt (IO.FS.writeBinFile path contents)
  print text := IO.print text
  log text := IO.eprint text

end HackToolchain

/-- Carries out the arguments as a command line. -/
def main (arguments : List String) : IO UInt32 := do
  return (← HackToolchain.Session.start HackToolchain.systemHost arguments).toUInt32
