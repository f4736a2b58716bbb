import Schematic.Json.Token

/-!
# Documents

A document is the tree of a text together with the answer to whether the text was well-formed to its
end. The tree is built token by token; the containers not yet closed are kept on a stack, so nesting
is not limited here.
-/

namespace Schematic.Json

/-- A container that has not been closed; its contents are kept last first. -/
inductive Open where
  | array (items : List Json)
  | object (members : List Member)
  /-- An object in which a key and its colon have been read. -/
  | member (members : List Member) (key : Option String)
deriving Inhabited

/-- What may come next. -/
inductive Phase where
  | value
  | firstItem
  | firstKey
  | nextKey
  | colon (key : Option String)
  | separator
deriving DecidableEq, Inhabited

/-- The text read so far. -/
inductive Reading where
  | inside (phase : Phase) (stack : List Open)
  | complete (root : Json)
  /-- A fault was met, or something followed the tree. -/
  | broken (root : Json)
deriving Inhabited

structure Document where
  root : Json
  wellFormed : Bool
deriving Inhabited

namespace Reading

def start : Reading := .inside .value []

/-- Closes every open container behind what was read of it, the innermost first. -/
def abandon (inner : Json) : List Open → Json
  | [] => inner
  | .array items :: rest => abandon (.array (items.reverse ++ [inner, .fault])) rest
  | .object members :: rest =>
    abandon (.object (members.reverse ++ [(none, .fault)])) rest
  | .member members key :: rest =>
    abandon (.object (members.reverse ++ [(key, inner), (none, .fault)])) rest

/-- The text ends in a fault. -/
def fail (stack : List Open) : Reading := .broken (abandon .fault stack)

/-- A value has been read. -/
def deliver (v : Json) : List Open → Reading
  | [] => .complete v
  | .array items :: rest => .inside .separator (.array (v :: items) :: rest)
  | .member members key :: rest => .inside .separator (.object ((key, v) :: members) :: rest)
  | .object members :: rest => fail (.object members :: rest)

/-- Starts or completes a value. -/
def begin (t : Token) (stack : List Open) : Reading :=
  match t with
  | .null => deliver .null stack
  | .bool b => deliver (.bool b) stack
  | .number n => deliver (.number n) stack
  | .string text => deliver (.string text) stack
  | .openArray => .inside .firstItem (.array [] :: stack)
  | .openObject => .inside .firstKey (.object [] :: stack)
  | _ => fail stack

/-- A comma or the end of the innermost container. -/
def proceed (t : Token) (stack : List Open) : Reading :=
  match t, stack with
  | .comma, .array _ :: _ => .inside .value stack
  | .comma, .object _ :: _ => .inside .nextKey stack
  | .closeArray, .array items :: rest => deliver (.array items.reverse) rest
  | .closeObject, .object members :: rest => deliver (.object members.reverse) rest
  | _, _ => fail stack

def step (r : Reading) (t : Token) : Reading :=
  match r with
  | .broken _ => r
  | .complete root => .broken root
  | .inside .value stack => begin t stack
  | .inside .firstItem stack => if t = .closeArray then proceed t stack else begin t stack
  | .inside .firstKey stack =>
    match t with
    | .closeObject => proceed t stack
    | .string key => .inside (.colon key) stack
    | _ => fail stack
  | .inside .nextKey stack =>
    match t with
    | .string key => .inside (.colon key) stack
    | _ => fail stack
  | .inside (.colon key) stack =>
    match t, stack with
    | .colon, .object members :: rest => .inside .value (.member members key :: rest)
    | _, _ => fail stack
  | .inside .separator stack => proceed t stack

def finish : Reading → Document
  | .complete root => ⟨root, true⟩
  | .broken root => ⟨root, false⟩
  | .inside _ stack => ⟨abandon .fault stack, false⟩

end Reading

/-- The document of a text. -/
def Document.ofText (text : String) : Document :=
  ((tokens text.toList).foldl Reading.step Reading.start).finish

end Schematic.Json
