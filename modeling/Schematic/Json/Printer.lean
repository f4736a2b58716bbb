import Schematic.Json.Basic

/-!
# Writing JSON

Trees as text, one member or item a line, indented by two spaces.
-/

namespace Schematic.Json

/-- A character inside a string. -/
def escapeChar (c : Char) : List Char :=
  match c with
  | '"' => ['\\', '"']
  | '\\' => ['\\', '\\']
  | '\x08' => ['\\', 'b']
  | '\x0c' => ['\\', 'f']
  | '\n' => ['\\', 'n']
  | '\r' => ['\\', 'r']
  | '\t' => ['\\', 't']
  | _ =>
    if c.toNat < 0x20 then
      ['\\', 'u', '0', '0', Nat.digitChar (c.toNat / 16), Nat.digitChar (c.toNat % 16)]
    else [c]

/-- A string between quotes. -/
def stringText (s : String) : String :=
  String.ofList ('"' :: (s.toList.flatMap escapeChar ++ ['"']))

/-- A new line at a depth. -/
def newLine (depth : Nat) : String := String.ofList ('\n' :: List.replicate (2 * depth) ' ')

/-- Entries between brackets, each on a line of its own. -/
def bracketed (opening closing : String) (depth : Nat) (entries : List String) : String :=
  if entries.isEmpty then opening ++ closing
  else
    opening ++ newLine (depth + 1) ++ ("," ++ newLine (depth + 1)).intercalate entries ++
      newLine depth ++ closing

mutual

/-- The text of a tree at a depth. Nothing is written for what could not be read. -/
def textAt (depth : Nat) : Json → String
  | .null => "null"
  | .bool b => if b then "true" else "false"
  | .number n => n.text?.getD ""
  | .string text => (text.map stringText).getD ""
  | .array items => bracketed "[" "]" depth (itemTexts (depth + 1) items)
  | .object members => bracketed "\x7b" "\x7d" depth (memberTexts (depth + 1) members)
  | .fault => ""

def itemTexts (depth : Nat) : List Json → List String
  | [] => []
  | j :: rest => textAt depth j :: itemTexts depth rest

def memberTexts (depth : Nat) : List (Option String × Json) → List String
  | [] => []
  | (key, j) :: rest =>
    ((key.map stringText).getD "" ++ ": " ++ textAt depth j) :: memberTexts depth rest

end

/-- The text of a tree. -/
def pretty (j : Json) : String := textAt 0 j

end Schematic.Json
