import Schematic.Workspace.Files

/-!
# File trees

Files and folders kept as a value. A place in the tree is the list of names that lead to it from
the top folder.
-/

namespace Schematic

inductive TreeEntry where
  | file (content : ByteArray)
  | folder

structure Tree where
  /-- Everything below the top folder. -/
  entries : List (List String × TreeEntry) := []
  /-- The place of the working folder. -/
  here : List String := []

namespace Tree

instance : Inhabited Tree := ⟨{}⟩

def entry? (t : Tree) (place : List String) : Option TreeEntry :=
  if place = [] then some .folder else t.entries.lookup place

/-- Puts an entry at a place in exchange for what is there. -/
def put (t : Tree) (place : List String) (e : TreeEntry) : Tree :=
  { t with entries := t.entries.filter (·.1 ≠ place) ++ [(place, e)] }

/-- Puts folders at a place and on the way to it where nothing is. -/
def addFolder (t : Tree) (place : List String) : Tree :=
  (List.range place.length).foldl (fun t n =>
    let outer := place.take (n + 1)
    if (t.entry? outer).isSome then t else t.put outer .folder) t

/-- Puts a file at a place, in folders that are made as needed. -/
def addFile (t : Tree) (place : List String) (content : ByteArray) : Tree :=
  (t.addFolder place.dropLast).put place (.file content)

/-- How many bytes a name may have. -/
def maxNameBytes : Nat := 255

/-- How many bytes a path may have. -/
def maxPathBytes : Nat := 4095

/-- The folder a step leads on from. -/
def enter (t : Tree) (place : List String) : Except FileFault Unit :=
  match t.entry? place with
  | some .folder => .ok ()
  | some (.file _) => .error .notFolder
  | none => .error .notFound

/-- The place that steps lead to from another place. -/
def walk (t : Tree) (place : List String) : List String → Except FileFault (List String)
  | [] => .ok place
  | step :: rest =>
    match t.enter place with
    | .error fault => .error fault
    | .ok () =>
      if step = "" ∨ step = "." then walk t place rest
      else if step = ".." then walk t place.dropLast rest
      else if maxNameBytes < step.utf8ByteSize then .error .nameTooLong
      else if (t.entry? (place ++ [step])).isSome then walk t (place ++ [step]) rest
      else .error .notFound

/-- A path that can be looked up at all. -/
def checkPath (path : String) : Except FileFault Unit :=
  if path.toList.contains '\x00' then .error .nulInName
  else if path = "" then .error .notFound
  else if maxPathBytes < path.utf8ByteSize then .error .nameTooLong
  else .ok ()

/-- Where a path starts. -/
def start (t : Tree) (path : String) : List String :=
  if Path.isAbsolute path then [] else t.here

/-- The place of a path. -/
def locate (t : Tree) (path : String) : Except FileFault (List String) := do
  checkPath path
  t.walk (t.start path) (Path.parts path)

/-- The entry of a path. -/
def find (t : Tree) (path : String) : Option TreeEntry :=
  match t.locate path with
  | .ok place => t.entry? place
  | .error _ => none

def isFile (t : Tree) (path : String) : Bool :=
  match t.find path with
  | some (.file _) => true
  | _ => false

def isFolder (t : Tree) (path : String) : Bool :=
  match t.find path with
  | some .folder => true
  | _ => false

/-- The text of a file. -/
def readText (t : Tree) (path : String) : Except FileFault String := do
  match t.entry? (← t.locate path) with
  | some (.file content) =>
    match String.fromUTF8? content with
    | some text => .ok text
    | none => .error .notText
  | some .folder => .error .isFolder
  | none => .error .notFound

/-- The folder an entry is to be made in, and the name of that entry. A path that ends in a step
that is no name leads to something that is there. -/
def newPlace (t : Tree) (path : String) : Except FileFault (List String) := do
  checkPath path
  match (Path.parts path).reverse.dropWhile (· = "") with
  | [] => .error .alreadyThere
  | name :: outer =>
    let place ← t.walk (t.start path) outer.reverse
    t.enter place
    if name = "." ∨ name = ".." then .error .alreadyThere
    else if maxNameBytes < name.utf8ByteSize then .error .nameTooLong
    else .ok (place ++ [name])

def makeFolder (t : Tree) (path : String) : Except FileFault Tree := do
  let place ← t.newPlace path
  match t.entry? place with
  | some _ => .error .alreadyThere
  | none => .ok (t.put place .folder)

def writeText (t : Tree) (path text : String) : Except FileFault Tree := do
  let place ← t.newPlace path
  match t.entry? place with
  | some .folder => .error .isFolder
  | _ => .ok (t.put place (.file text.toUTF8))

/-- The path of the working folder. -/
def herePath (t : Tree) : String := "/" ++ "/".intercalate t.here

/-- Keeps a changed tree, or the old one after a failure. -/
def update (change : Tree → Except FileFault Tree) : StateM Tree (Except FileFault Unit) :=
  fun t =>
    match change t with
    | .ok t => (.ok (), t)
    | .error fault => (.error fault, t)

instance : FileSystem (StateM Tree) where
  workingFolder := return (← get).herePath
  isThere := fun path => return ((← get).find path).isSome
  isFile := fun path => return (← get).isFile path
  isFolder := fun path => return (← get).isFolder path
  readText := fun path => return (← get).readText path
  makeFolder := fun path => update (·.makeFolder path)
  writeText := fun path text => update (·.writeText path text)

end Tree

end Schematic
