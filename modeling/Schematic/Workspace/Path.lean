/-!
# Paths

Paths are texts with slashes between their parts. Joining and taking the parent work on the text
alone and keep it as it was written.
-/

namespace Schematic.Path

/-- The path starts at the top folder. -/
def isAbsolute (path : String) : Bool := path.toList.head? == some '/'

/-- The parts of a path between slashes; some of them may be empty. -/
def splitFrom (part : List Char) : List Char → List (List Char)
  | [] => [part.reverse]
  | c :: rest => if c = '/' then part.reverse :: splitFrom [] rest else splitFrom (c :: part) rest

def parts (path : String) : List String := (splitFrom [] path.toList).map String.ofList

/-- A path below a folder. An absolute path stays as it is. -/
def join (folder path : String) : String :=
  if isAbsolute path then path
  else if folder = "" ∨ folder.toList.getLast? = some '/' then folder ++ path
  else folder ++ "/" ++ path

theorem join_of_isAbsolute {path : String} (h : isAbsolute path = true) (folder : String) :
    join folder path = path := by
  simp [join, h]

/-- Drops parts at the end that do not name anything, given in reverse. A dot counts only as the
first part of a path that is not absolute. -/
def dropIdle (absolute : Bool) : List String → List String
  | [] => []
  | part :: rest =>
    if part = "" ∨ part = "." ∧ (absolute ∨ rest ≠ []) then dropIdle absolute rest
    else part :: rest

/-- The path without its last part. The top folder and the empty path have no parent. -/
def parent? (path : String) : Option String :=
  let absolute := isAbsolute path
  let named := if absolute then (parts path).drop 1 else parts path
  match dropIdle absolute named.reverse with
  | [] => none
  | _ :: rest =>
    let kept := "/".intercalate (dropIdle absolute rest).reverse
    some (if absolute then "/" ++ kept else kept)

end Schematic.Path
