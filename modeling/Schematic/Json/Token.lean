import Schematic.Json.Basic

/-!
# Tokens of a JSON text

The characters of a text are read one by one; the state of the scanner is the unfinished token. A
character that fits no token ends the scan with the token `invalid`, and everything after it is
ignored.
-/

namespace Schematic.Json

inductive Token where
  | openArray
  | closeArray
  | openObject
  | closeObject
  | comma
  | colon
  | null
  | bool (value : Bool)
  | number (value : Numeral)
  | string (text : Option String)
  | invalid
deriving DecidableEq, Inhabited

/-- The part of a string literal read so far. -/
structure Literal where
  /-- The characters, last first. -/
  chars : List Char := []
  /-- The first half of a surrogate pair whose second half has to follow. -/
  high : Option Nat := none
  /-- No half of a surrogate pair stood alone. -/
  paired : Bool := true
deriving DecidableEq, Inhabited

namespace Literal

def push (l : Literal) (c : Char) : Literal :=
  { chars := c :: l.chars, high := none, paired := l.paired && l.high.isNone }

/-- Adds the 16-bit unit of an escape. -/
def pushUnit (l : Literal) (unit : Nat) : Literal :=
  if 0xD800 ≤ unit ∧ unit ≤ 0xDBFF then
    { l with high := some unit, paired := l.paired && l.high.isNone }
  else if 0xDC00 ≤ unit ∧ unit ≤ 0xDFFF then
    match l.high with
    | some h =>
      let code := 0x10000 + (h - 0xD800) * 0x400 + (unit - 0xDC00)
      { l with chars := Char.ofNat code :: l.chars, high := none }
    | none => { l with paired := false }
  else
    l.push (Char.ofNat unit)

def text? (l : Literal) : Option String :=
  if l.paired && l.high.isNone then some (String.ofList l.chars.reverse) else none

end Literal

/-- The unfinished token. -/
inductive Mode where
  | blank
  /-- Letters, digits and signs of a number or a word, last first. -/
  | atom (chars : List Char)
  | string (literal : Literal)
  | escape (literal : Literal)
  /-- Hexadecimal digits of an escape: how many have been read, and their value. -/
  | unit (literal : Literal) (count value : Nat)
  | stuck
deriving DecidableEq, Inhabited

structure Scanner where
  mode : Mode := .blank
  /-- The finished tokens, last first. -/
  tokens : List Token := []
deriving Inhabited

namespace Scanner

def isBlank (c : Char) : Bool := c == ' ' || c == '\t' || c == '\n' || c == '\r'

def isAtom (c : Char) : Bool := c.isAlphanum || c == '-' || c == '+' || c == '.'

def hexDigit? (c : Char) : Option Nat :=
  if '0' ≤ c ∧ c ≤ '9' then some (c.toNat - '0'.toNat)
  else if 'a' ≤ c ∧ c ≤ 'f' then some (c.toNat - 'a'.toNat + 10)
  else if 'A' ≤ c ∧ c ≤ 'F' then some (c.toNat - 'A'.toNat + 10)
  else none

def punctuation? : Char → Option Token
  | '[' => some .openArray
  | ']' => some .closeArray
  | '{' => some .openObject
  | '}' => some .closeObject
  | ',' => some .comma
  | ':' => some .colon
  | _ => none

/-- The character after the backslash of a one-letter escape stands for another. -/
def escaped? : Char → Option Char
  | '"' => some '"'
  | '\\' => some '\\'
  | '/' => some '/'
  | 'b' => some '\x08'
  | 'f' => some '\x0c'
  | 'n' => some '\n'
  | 'r' => some '\r'
  | 't' => some '\t'
  | _ => none

def atomToken (chars : List Char) : Token :=
  if chars = "null".toList then .null
  else if chars = "true".toList then .bool true
  else if chars = "false".toList then .bool false
  else match Numeral.ofChars? chars with
    | some n => .number n
    | none => .invalid

def fail (s : Scanner) : Scanner := ⟨.stuck, .invalid :: s.tokens⟩

/-- Ends an atom, if one is unfinished. -/
def flush (s : Scanner) : Scanner :=
  match s.mode with
  | .atom chars => ⟨.blank, atomToken chars.reverse :: s.tokens⟩
  | _ => s

/-- A character outside strings that belongs to no atom. -/
def separate (s : Scanner) (c : Char) : Scanner :=
  if isBlank c then ⟨.blank, s.tokens⟩
  else if c = '"' then ⟨.string {}, s.tokens⟩
  else match punctuation? c with
    | some t => ⟨.blank, t :: s.tokens⟩
    | none => s.fail

def step (s : Scanner) (c : Char) : Scanner :=
  match s.mode with
  | .stuck => s
  | .blank => if isAtom c then ⟨.atom [c], s.tokens⟩ else s.separate c
  | .atom chars => if isAtom c then ⟨.atom (c :: chars), s.tokens⟩ else s.flush.separate c
  | .string l =>
    if c = '"' then ⟨.blank, .string l.text? :: s.tokens⟩
    else if c = '\\' then ⟨.escape l, s.tokens⟩
    else if c.toNat < 0x20 then s.fail
    else ⟨.string (l.push c), s.tokens⟩
  | .escape l =>
    if c = 'u' then ⟨.unit l 0 0, s.tokens⟩
    else match escaped? c with
      | some d => ⟨.string (l.push d), s.tokens⟩
      | none => s.fail
  | .unit l count value =>
    match hexDigit? c with
    | none => s.fail
    | some d =>
      if count = 3 then ⟨.string (l.pushUnit (16 * value + d)), s.tokens⟩
      else ⟨.unit l (count + 1) (16 * value + d), s.tokens⟩

/-- The tokens in order, once the text has ended. -/
def finish (s : Scanner) : List Token :=
  match s.mode with
  | .blank | .stuck => s.tokens.reverse
  | .atom _ => s.flush.tokens.reverse
  | _ => s.fail.tokens.reverse

end Scanner

/-- The tokens of a text. -/
def tokens (text : List Char) : List Token :=
  (text.foldl Scanner.step {}).finish

end Schematic.Json
