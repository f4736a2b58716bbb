import Schematic.Json.Numeral

/-!
# JSON trees

The tree of a JSON text, with members in the order written and repeated keys kept. Reading a
text stops at its first fault; the tree then holds what stood before it, and every container
that was still open ends in a fault. So a reader that goes through a tree from left to right
meets the faults of a text in the order in which they were written.
-/

namespace Schematic

inductive Json where
  | null
  | bool (value : Bool)
  | number (value : Json.Numeral)
  /-- No text when an escape stands for half a surrogate pair. -/
  | string (text : Option String)
  | array (items : List Json)
  /-- A key has no text under the same condition as a string. -/
  | object (members : List (Option String × Json))
  /-- The place where the text stopped being JSON. -/
  | fault

namespace Json

instance : Inhabited Json := ⟨.null⟩

/-- A member of an object as written. -/
abbrev Member := Option String × Json

/-- A string with text. -/
def ofText (s : String) : Json := .string (some s)

/-- Of members with one key, the last one written is kept. -/
def lastWins : List Member → List Member
  | [] => []
  | m :: rest => if rest.any (·.1 == m.1) then lastWins rest else m :: lastWins rest

/-- Every member of a list has a readable key and a readable value. -/
def readMembers (read : Json → Option Json) : List Member → Option (List Member)
  | [] => some []
  | (key, value) :: rest =>
    match key, read value with
    | some k, some v => (readMembers read rest).map ((some k, v) :: ·)
    | _, _ => none

/-- The tree as a value of its own: nothing in it is a fault, half a surrogate pair or a number
out of range, it nests at most `levels` deep, and a repeated key has its last value. -/
def value? : (levels : Nat) → Json → Option Json
  | _, .null => some .null
  | _, .bool b => some (.bool b)
  | _, .number n => if n.isReadable then some (.number n) else none
  | _, .string text => text.map ofText
  | _, .fault => none
  | 0, .array _ => none
  | 0, .object _ => none
  | levels + 1, .array items => (items.mapM (value? levels)).map .array
  | levels + 1, .object members =>
    (readMembers (value? levels) members).map fun ms => .object (lastWins ms)

end Json

end Schematic
