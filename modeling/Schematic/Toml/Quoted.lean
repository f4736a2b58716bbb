/-!
# Quoted texts

A text stands between double quotes, where a backslash starts an escape, or between single
quotes, where it does not. One quote on each side keeps it on one line; with three it may have
several, a newline right after the opening quotes is dropped, and up to two quotes may stand
directly before the closing ones.
-/

namespace Schematic.Toml

namespace Quoted

/-- Which quotes are used and how many. -/
structure Style where
  escapes : Bool
  multiLine : Bool
deriving DecidableEq, Inhabited

def Style.quote (s : Style) : Char := if s.escapes then '"' else '\''

/-- How far the reading has come. -/
inductive Stage where
  | plain
  /-- After a backslash. -/
  | escape
  /-- In the number of a character that has more digits to come. -/
  | number (missing value : Nat)
  /-- After a backslash and blanks, before the end of the line. -/
  | trailing
  /-- After a line that ended in a backslash: blanks and newlines are skipped. -/
  | joining
  /-- After some quotes in a row. -/
  | quotes (count : Nat)
deriving DecidableEq, Inhabited

/-- What a character leads to. The text so far is kept in reverse. -/
inductive Step where
  | more (stage : Stage) (text : List Char)
  /-- The character was the last quote. -/
  | closed (text : List Char)
  /-- The text ended before the character. -/
  | ended (text : List Char)
  | refused

/-- Characters that may stand for themselves: no control characters but the tab. -/
def isPlain (c : Char) : Bool := c = '\t' || (0x20 ≤ c.toNat && c.toNat ≠ 0x7f)

def isBlank (c : Char) : Bool := c = ' ' || c = '\t'

/-- The value of a hexadecimal digit. -/
def hexValue? (c : Char) : Option Nat :=
  if '0' ≤ c ∧ c ≤ '9' then some (c.toNat - '0'.toNat)
  else if 'a' ≤ c ∧ c ≤ 'f' then some (c.toNat - 'a'.toNat + 10)
  else if 'A' ≤ c ∧ c ≤ 'F' then some (c.toNat - 'A'.toNat + 10)
  else none

/-- The character of a number, unless it is half a surrogate pair or too large. -/
def charOf? (n : Nat) : Option Char :=
  if n.isValidChar then some (Char.ofNat n) else none

/-- A character in the middle of a text. -/
def plainStep (s : Style) (text : List Char) (c : Char) : Step :=
  if c = s.quote then if s.multiLine then .more (.quotes 1) text else .closed text
  else if c = '\\' ∧ s.escapes then .more .escape text
  else if c = '\n' then if s.multiLine then .more .plain (c :: text) else .refused
  else if isPlain c then .more .plain (c :: text)
  else .refused

/-- A character after a backslash. -/
def escapeStep (s : Style) (text : List Char) (c : Char) : Step :=
  match c with
  | 'b' => .more .plain ('\x08' :: text)
  | 't' => .more .plain ('\t' :: text)
  | 'n' => .more .plain ('\n' :: text)
  | 'f' => .more .plain ('\x0c' :: text)
  | 'r' => .more .plain ('\r' :: text)
  | '"' => .more .plain ('"' :: text)
  | '\\' => .more .plain ('\\' :: text)
  | 'u' => .more (.number 4 0) text
  | 'U' => .more (.number 8 0) text
  | _ =>
    if s.multiLine then
      if c = '\n' then .more .joining text
      else if isBlank c then .more .trailing text
      else .refused
    else .refused

/-- A digit of the number of a character. -/
def numberStep (missing value : Nat) (text : List Char) (c : Char) : Step :=
  match hexValue? c with
  | none => .refused
  | some digit =>
    let value := value * 16 + digit
    match missing with
    | 0 => .refused
    | 1 =>
      match charOf? value with
      | some c => .more .plain (c :: text)
      | none => .refused
    | left + 1 => .more (.number left value) text

/-- A character after `count` quotes in a row. -/
def quotesStep (s : Style) (count : Nat) (text : List Char) (c : Char) : Step :=
  let quotes (n : Nat) := List.replicate n s.quote ++ text
  if c = s.quote then if count < 5 then .more (.quotes (count + 1)) text else .refused
  else if count < 3 then plainStep s (quotes count) c
  else .ended (quotes (count - 3))

def step (s : Style) (stage : Stage) (text : List Char) (c : Char) : Step :=
  match stage with
  | .plain => plainStep s text c
  | .escape => escapeStep s text c
  | .number missing value => numberStep missing value text c
  | .trailing =>
    if c = '\n' then .more .joining text
    else if isBlank c then .more .trailing text
    else .refused
  | .joining => if c = '\n' ∨ isBlank c then .more .joining text else plainStep s text c
  | .quotes count => quotesStep s count text c

/-- Reads on to the end of a text. -/
def readOn (s : Style) (stage : Stage) (text : List Char) :
    List Char → Option (List Char × List Char)
  | [] =>
    match stage with
    | .quotes count =>
      if 3 ≤ count then some ((List.replicate (count - 3) s.quote ++ text).reverse, []) else none
    | _ => none
  | c :: rest =>
    match step s stage text c with
    | .more stage text => readOn s stage text rest
    | .closed text => some (text.reverse, rest)
    | .ended text => some (text.reverse, c :: rest)
    | .refused => none

/-- Reads what follows one opening quote, as a text on one line. -/
def readLine (escapes : Bool) (cs : List Char) : Option (String × List Char) :=
  (readOn ⟨escapes, false⟩ .plain [] cs).map fun (cs, rest) => (String.ofList cs, rest)

/-- Reads what follows three opening quotes. -/
def readLines (escapes : Bool) (cs : List Char) : Option (String × List Char) :=
  let cs := match cs with
    | '\n' :: rest => rest
    | cs => cs
  (readOn ⟨escapes, true⟩ .plain [] cs).map fun (cs, rest) => (String.ofList cs, rest)

end Quoted

/-- Reads a text, quotes included. -/
def readText : List Char → Option (String × List Char)
  | '"' :: '"' :: '"' :: rest => Quoted.readLines true rest
  | '"' :: rest => Quoted.readLine true rest
  | '\'' :: '\'' :: '\'' :: rest => Quoted.readLines false rest
  | '\'' :: rest => Quoted.readLine false rest
  | _ => none

end Schematic.Toml
