import Schematic.Calendar
import Schematic.Workspace.Run
import Std.Time.DateTime.Timestamp

/-!
# The command line program

Connects runs to the files, the clock and the streams of the operating system.
-/

namespace Schematic

/-- The reason behind a failed operation. -/
def FileFault.ofError : IO.Error → FileFault
  | .noFileOrDirectory .. => .notFound
  | .alreadyExists .. => .alreadyThere
  | .inappropriateType _ 20 _ => .notFolder
  | .inappropriateType _ 21 _ => .isFolder
  | e => .other (toString e)

/-- The outcome of an operation. -/
def attempt {α : Type} (operation : IO α) : IO (Except FileFault α) := do
  match ← operation.toBaseIO with
  | .ok a => return .ok a
  | .error e => return .error (.ofError e)

/-- What is at a path, if there is something. -/
def entryType? (path : String) : IO (Option IO.FS.FileType) := do
  if path = "" then return none
  let here ← IO.currentDir
  match ← (here / path).metadata.toBaseIO with
  | .ok found => return some found.type
  | .error _ => return none

def readFile (path : String) : IO (Except FileFault String) := do
  match ← attempt (IO.FS.readBinFile path) with
  | .error fault => return .error fault
  | .ok content =>
    match String.fromUTF8? content with
    | some text => return .ok text
    | none => return .error .notText

instance : FileSystem IO where
  workingFolder := return (← IO.currentDir).toString
  isThere := fun path => return (← entryType? path).isSome
  isFile := fun path => return (← entryType? path) == some .file
  isFolder := fun path => return (← entryType? path) == some .dir
  readText := readFile
  makeFolder := fun path => attempt (IO.FS.createDir path)
  writeText := fun path text => attempt (IO.FS.writeFile path text)

end Schematic

def main (words : List String) : IO UInt32 := do
  let now ← Std.Time.Timestamp.now
  let timestamp := Schematic.Calendar.text now.toSecondsSinceUnixEpoch.val.toNat
  let outcome ← Schematic.Run.program (m := IO) timestamp words
  (← IO.getStdout).putStr outcome.stdout
  (← IO.getStderr).putStr outcome.stderr
  return outcome.exitCode
