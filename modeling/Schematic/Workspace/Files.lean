import Schematic.Workspace.Path

/-!
# Files

What is done with files, for any way of keeping them.
-/

namespace Schematic

/-- Why an operation on files fails. -/
inductive FileFault where
  | notFound
  | alreadyThere
  | notFolder
  | isFolder
  | nameTooLong
  | nulInName
  | notText
  /-- A reason given by the operating system. -/
  | other (message : String)
deriving DecidableEq, Inhabited

def FileFault.message : FileFault → String
  | .notFound => "No such file or directory (os error 2)"
  | .alreadyThere => "File exists (os error 17)"
  | .notFolder => "Not a directory (os error 20)"
  | .isFolder => "Is a directory (os error 21)"
  | .nameTooLong => "File name too long (os error 36)"
  | .nulInName => "file name contained an unexpected NUL byte"
  | .notText => "stream did not contain valid UTF-8"
  | .other message => message

/-- Operations on files. Paths that are not absolute start at the working folder. -/
class FileSystem (m : Type → Type) where
  /-- The path of the working folder. -/
  workingFolder : m String
  isThere : String → m Bool
  isFile : String → m Bool
  isFolder : String → m Bool
  readText : String → m (Except FileFault String)
  /-- Makes one folder inside a folder that is there. -/
  makeFolder : String → m (Except FileFault Unit)
  writeText : String → String → m (Except FileFault Unit)

namespace FileSystem

variable {m : Type → Type} [Monad m] [FileSystem m]

/-- A folder that was to be made is fine if it is there for another reason. -/
def unlessFolder (path : String) (fault : FileFault) : m (Except FileFault Unit) := do
  return if ← isFolder path then .ok () else .error fault

/-- Makes a folder and those it lies in, for at most `fuel` of them. -/
def makeFoldersUpTo : (fuel : Nat) → String → m (Except FileFault Unit)
  | 0, _ => return .ok ()
  | fuel + 1, path =>
    if path = "" then return .ok ()
    else do
      match ← makeFolder path with
      | .ok () => return .ok ()
      | .error .notFound =>
        match Path.parent? path with
        | none => return .error (.other "failed to create whole tree")
        | some outer =>
          match ← makeFoldersUpTo fuel outer with
          | .error fault => return .error fault
          | .ok () =>
            match ← makeFolder path with
            | .ok () => return .ok ()
            | .error fault => unlessFolder path fault
      | .error fault => unlessFolder path fault

/-- Makes a folder and those it lies in. Each of them has a shorter path than the one inside it. -/
def makeFolders (path : String) : m (Except FileFault Unit) :=
  makeFoldersUpTo (path.length + 1) path

end FileSystem

end Schematic
