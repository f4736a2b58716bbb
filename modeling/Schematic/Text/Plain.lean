/-!
# Plain text

What is left of a text when the characters that steer a terminal are taken out. An escape
character starts a sequence, which is taken out as a whole. Tabs, form feeds, line ends and
carriage returns stay, and cut a sequence short; within a string they are taken out with it.
-/

namespace Schematic.Text

namespace Plain

/-- What the characters so far have left open. -/
inductive Mode where
  | text
  /-- An escape character. -/
  | escape
  /-- An escape character with intermediate characters. -/
  | selection
  /-- A control sequence, open up to its final character. -/
  | control
  /-- The head of a device string, before parameters. -/
  | deviceStart
  /-- The head of a device string, in its parameters. -/
  | deviceParameters
  /-- The head of a device string, in its intermediate characters. -/
  | deviceSelection
  /-- A string, open up to a terminator. -/
  | string
  /-- A string that a bell ends. -/
  | command
deriving DecidableEq, Inhabited

def isBetween (first last c : Char) : Bool := first ≤ c && c ≤ last

/-- The controls that keep their place. -/
def isLayout (c : Char) : Bool := c = '\t' || c = '\n' || c = '\x0c' || c = '\r'

/-- The controls that end every sequence. -/
def isCancel (c : Char) : Bool := c = '\x18' || c = '\x1a'

/-- The code of the terminator is among the bytes of the character. -/
def hasTerminator (c : Char) : Bool := (String.utf8EncodeChar c).contains 0x9c

/-- The character stands in plain text. Of characters beyond ASCII all do. -/
def isPlain (c : Char) : Bool := isLayout c || (' ' ≤ c && c != '\x7f')

namespace Mode

/-- The character stays. -/
def keeps (mode : Mode) (c : Char) : Bool :=
  match mode with
  | .text => isPlain c
  | .escape | .selection | .control => isLayout c
  | .deviceStart | .deviceParameters | .deviceSelection | .string | .command => false

/-- What an escape character and the character after it open. -/
def ofEscaped (c : Char) : Mode :=
  if isBetween ' ' '/' c then .selection
  else if c = '[' then .control
  else if c = ']' then .command
  else if c = 'P' then .deviceStart
  else if c = 'X' || c = '^' || c = '_' then .string
  else if isLayout c || isBetween '0' '~' c then .text
  else .escape

/-- What is open after a character that is neither an escape character nor a cancel. -/
def after (mode : Mode) (c : Char) : Mode :=
  match mode with
  | .text => .text
  | .escape => ofEscaped c
  | .selection => if isLayout c || isBetween '0' '~' c then .text else .selection
  | .control => if isLayout c || isBetween '@' '~' c then .text else .control
  | .deviceStart =>
    if isBetween ' ' '/' c then .deviceSelection
    else if isBetween '0' '?' c then .deviceParameters
    else if isBetween '@' '~' c then .string
    else .deviceStart
  | .deviceParameters =>
    if isBetween ' ' '/' c then .deviceSelection
    else if isBetween '<' '~' c then .string
    else .deviceParameters
  | .deviceSelection => if isBetween '0' '~' c then .string else .deviceSelection
  | .string => if hasTerminator c then .text else .string
  | .command => if c = '\x07' then .text else .command

def next (mode : Mode) (c : Char) : Mode :=
  if c = '\x1b' then .escape
  else if isCancel c then .text
  else mode.after c

end Mode

/-- What was kept, the last character first. -/
structure Reading where
  mode : Mode := .text
  kept : List Char := []
deriving DecidableEq, Inhabited

def Reading.add (r : Reading) (c : Char) : Reading :=
  ⟨r.mode.next c, if r.mode.keeps c then c :: r.kept else r.kept⟩

end Plain

/-- The text without what steers a terminal. -/
def plain (s : String) : String :=
  String.ofList (s.toList.foldl Plain.Reading.add {}).kept.reverse

end Schematic.Text
