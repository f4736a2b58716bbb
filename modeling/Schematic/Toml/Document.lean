import Schematic.Toml.Table
import Schematic.Toml.Quoted
import Schematic.Toml.Scalar

/-!
# TOML documents

A document is a sequence of lines: headers, keys with values, comments and blank lines. Values
in brackets may go over several lines, those in braces may not. Nothing of a document that has a
fault is kept, so readers only say whether there is one.
-/

namespace Schematic.Toml

/-- A reader returns what it has read and the rest of the text. -/
abbrev Reader (α : Type) := List Char → Option (α × List Char)

/-- The text with line ends written as a single newline. -/
def unifyLines : List Char → List Char
  | [] => []
  | '\r' :: '\n' :: rest => '\n' :: unifyLines rest
  | c :: rest => c :: unifyLines rest

def skipBlanks (cs : List Char) : List Char := cs.dropWhile Quoted.isBlank

/-- Skips a comment, if there is one, up to the end of its line. -/
def skipComment : List Char → List Char
  | '#' :: rest => rest.dropWhile Quoted.isPlain
  | cs => cs

/-- Skips blanks, newlines and comments. -/
def skipGap (inComment : Bool) : List Char → List Char
  | [] => []
  | c :: rest =>
    if c = '\n' then skipGap false rest
    else if inComment then if Quoted.isPlain c then skipGap true rest else c :: rest
    else if c = '#' then skipGap true rest
    else if Quoted.isBlank c then skipGap false rest
    else c :: rest

/-- The end of a line after blanks and a comment. -/
def readLineEnd (cs : List Char) : Option (List Char) :=
  match skipComment (skipBlanks cs) with
  | [] => some []
  | '\n' :: rest => some rest
  | _ => none

/-- The characters of bare keys. -/
def isBareKeyChar (c : Char) : Bool := c.isAlphanum || c = '_' || c = '-'

/-- One part of a key. -/
def readKeyPart : Reader String
  | '"' :: rest => Quoted.readLine true rest
  | '\'' :: rest => Quoted.readLine false rest
  | cs =>
    match cs.takeWhile isBareKeyChar with
    | [] => none
    | part => some (String.ofList part, cs.dropWhile isBareKeyChar)

/-- A key has fewer parts than this. -/
def maxKeyParts : Nat := 80

/-- The parts of a dotted key, at most `fuel` of them. -/
def readKeyParts : (fuel : Nat) → Reader (List String)
  | 0, _ => none
  | fuel + 1, cs =>
    match readKeyPart (skipBlanks cs) with
    | none => none
    | some (part, rest) =>
      match skipBlanks rest with
      | '.' :: rest => (readKeyParts fuel rest).map fun (parts, rest) => (part :: parts, rest)
      | rest => some ([part], rest)

/-- A dotted key with blanks around its parts. -/
def readKey : Reader (List String) := readKeyParts (maxKeyParts - 1)

/-- A key, an equals sign and a value. -/
def readPair (value : Reader Toml) (cs : List Char) : Option ((List String × Toml) × List Char) :=
  match readKey cs with
  | some (path, '=' :: rest) => (value (skipBlanks rest)).map fun (v, rest) => ((path, v), rest)
  | _ => none

/-- The items of an array and its closing bracket. A comma may follow the last item. -/
def readItems (value : Reader Toml) : (fuel : Nat) → Reader (List Toml)
  | 0, _ => none
  | fuel + 1, cs =>
    match skipGap false cs with
    | ']' :: rest => some ([], rest)
    | cs =>
      match value cs with
      | none => none
      | some (v, rest) =>
        match skipGap false rest with
        | ']' :: rest => some ([v], rest)
        | ',' :: rest => (readItems value fuel rest).map fun (vs, rest) => (v :: vs, rest)
        | _ => none

/-- The keys and values between braces, and the closing brace. No comma follows the last one. -/
def readPairs (value : Reader Toml) (entries : Entries) : (fuel : Nat) → Reader Entries
  | 0, _ => none
  | fuel + 1, cs =>
    match readPair value cs with
    | none => none
    | some ((path, v), rest) =>
      match entries.assignKey path v with
      | none => none
      | some entries =>
        match skipBlanks rest with
        | '\x7d' :: rest => some (entries, rest)
        | ',' :: rest => readPairs value entries fuel rest
        | _ => none

/-- The inside of braces. -/
def readBraces (value : Reader Toml) (cs : List Char) : Option (Entries × List Char) :=
  match skipBlanks cs with
  | '\x7d' :: rest => some ([], rest)
  | _ => readPairs value [] cs.length cs

/-- How many brackets and braces may be open at once. -/
def maxLevels : Nat := 79

/-- A value that nests at most `levels` deep. -/
def readValue : (levels : Nat) → Reader Toml
  | 0, cs => readPlain cs
  | levels + 1, cs =>
    match cs with
    | '[' :: rest =>
      (readItems (readValue levels) rest.length rest).map fun (vs, rest) => (.array vs, rest)
    | '\x7b' :: rest =>
      (readBraces (readValue levels) rest).map fun (entries, rest) => (.table .inline entries, rest)
    | _ => readPlain cs
where
  /-- A quoted text or a word. -/
  readPlain (cs : List Char) : Option (Toml × List Char) :=
    match cs with
    | '"' :: _ | '\'' :: _ => (readText cs).map fun (s, rest) => (.text s, rest)
    | _ =>
      let (word, rest) := splitWord cs
      (ofWord? word).map fun v => (v, rest)

/-- One line of a document. -/
inductive Line where
  | blank
  | header (path : List String)
  | itemHeader (path : List String)
  | pair (path : List String) (value : Toml)

/-- A line that starts with its first character that is no blank. -/
def readLine (cs : List Char) : Option (Line × List Char) :=
  match cs with
  | [] => none
  | '\n' :: rest => some (.blank, rest)
  | '#' :: _ => (readLineEnd cs).map (.blank, ·)
  | '[' :: '[' :: rest =>
    match readKey rest with
    | some (path, ']' :: ']' :: rest) => (readLineEnd rest).map (.itemHeader path, ·)
    | _ => none
  | '[' :: rest =>
    match readKey rest with
    | some (path, ']' :: rest) => (readLineEnd rest).map (.header path, ·)
    | _ => none
  | _ =>
    match readPair (readValue maxLevels) cs with
    | some ((path, v), rest) => (readLineEnd rest).map (.pair path v, ·)
    | none => none

/-- Adds a line to an outline. -/
def Outline.addLine (o : Outline) : Line → Option Outline
  | .blank => some o
  | .header path => o.openTable path
  | .itemHeader path => o.openItem path
  | .pair path v => o.assign path v

/-- Reads lines to the end of a text, at most `fuel` of them. -/
def readLines (o : Outline) : (fuel : Nat) → List Char → Option Outline
  | 0, cs => if cs.isEmpty then some o else none
  | fuel + 1, cs =>
    match skipBlanks cs with
    | [] => some o
    | cs =>
      match readLine cs with
      | none => none
      | some (line, rest) =>
        match o.addLine line with
        | none => none
        | some o => readLines o fuel rest

/-- The text without a byte order mark at its start. -/
def dropMark : List Char → List Char
  | '\uFEFF' :: rest => rest
  | cs => cs

/-- The value of a document. Every line takes at least one character. -/
def ofText? (text : String) : Option Toml :=
  let cs := unifyLines (dropMark text.toList)
  (readLines {} cs.length cs).map fun o => .table .header o.root

end Schematic.Toml
