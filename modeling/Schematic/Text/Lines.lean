/-!
# Lines of text

Texts as lists of characters, with `\n` between lines.
-/

namespace Schematic.Text

/-- Drops every newline that directly follows a newline. `after` says that one was just read. -/
def squeeze (after : Bool) : List Char → List Char
  | [] => []
  | c :: rest =>
    if c = '\n' then
      if after then squeeze true rest else '\n' :: squeeze true rest
    else c :: squeeze false rest

/-- The text without the newline it ends in, if it ends in one. -/
def chopNewline (text : List Char) : List Char :=
  if text.getLast? = some '\n' then text.dropLast else text

/-- Drops blank lines, all but a first one, and the newline at the end. -/
def collapse (text : List Char) : List Char := chopNewline (squeeze false text)

/-- Puts a space in front of every line. -/
def indent (text : List Char) : List Char :=
  ' ' :: text.flatMap fun c => if c = '\n' then ['\n', ' '] else [c]

/-- The position of the first occurrence of a pattern. -/
def find? (pattern : List Char) : List Char → Option Nat
  | [] => if pattern.isEmpty then some 0 else none
  | c :: rest =>
    if pattern.isPrefixOf (c :: rest) then some 0 else (find? pattern rest).map (· + 1)

end Schematic.Text
