import Schematic.Toml.Basic

/-!
# Numbers, dates and truth values

The values that are written as a plain word. Underscores may stand between two digits of a number.
-/

namespace Schematic.Toml

/-- Takes a sign off. -/
def splitSign : List Char → Bool × List Char
  | '-' :: rest => (true, rest)
  | '+' :: rest => (false, rest)
  | cs => (false, cs)

/-- The digits of a number that has underscores only between two digits, and a digit at all. -/
def digits? (isDigit : Char → Bool) : List Char → Option (List Char)
  | [] => none
  | [c] => if isDigit c then some [c] else none
  | c :: '_' :: rest => if isDigit c then (digits? isDigit rest).map (c :: ·) else none
  | c :: rest => if isDigit c then (digits? isDigit rest).map (c :: ·) else none

/-- The value of digits, most significant first. -/
def ofDigits (base : Nat) (ds : List Char) : Nat :=
  ds.foldl (fun n c =>
    n * base + if c ≤ '9' then c.toNat - '0'.toNat else c.toLower.toNat - 'a'.toNat + 10) 0

/-- Decimal digits without a leading zero. -/
def wholeDigits? (cs : List Char) : Option (List Char) :=
  match digits? Char.isDigit cs with
  | some ('0' :: _ :: _) => none
  | found => found

/-- An integer in a base other than ten, below two to the 63. -/
def basedInteger? (base : Nat) (isDigit : Char → Bool) (cs : List Char) : Option Toml :=
  match digits? isDigit cs with
  | some ds =>
    let n := ofDigits base ds
    if n < Nat.pow 2 63 then some (.integer n) else none
  | none => none

def isHexDigit (c : Char) : Bool :=
  c.isDigit || ('a' ≤ c && c ≤ 'f') || ('A' ≤ c && c ≤ 'F')

def isOctalDigit (c : Char) : Bool := '0' ≤ c && c ≤ '7'

def isBinaryDigit (c : Char) : Bool := c = '0' || c = '1'

/-- An integer of 64 bits. -/
def integer? (cs : List Char) : Option Toml :=
  match cs with
  | '0' :: 'x' :: rest => basedInteger? 16 isHexDigit rest
  | '0' :: 'o' :: rest => basedInteger? 8 isOctalDigit rest
  | '0' :: 'b' :: rest => basedInteger? 2 isBinaryDigit rest
  | _ =>
    let (negative, rest) := splitSign cs
    match wholeDigits? rest with
    | some ds =>
      let n := ofDigits 10 ds
      if negative then if n ≤ Nat.pow 2 63 then some (.integer (-n)) else none
      else if n < Nat.pow 2 63 then some (.integer n) else none
    | none => none

/-- The parts of a decimal number. -/
structure FloatParts where
  negative : Bool
  whole : List Char
  fraction : List Char
  exponent : Int

/-- An exponent: its sign and digits. -/
def exponent? (cs : List Char) : Option Int :=
  let (negative, rest) := splitSign cs
  (digits? Char.isDigit rest).map fun ds =>
    if negative then -(ofDigits 10 ds : Int) else ofDigits 10 ds

def isExponentMark (c : Char) : Bool := c = 'e' || c = 'E'

/-- A decimal number with a fraction, an exponent or both. -/
def floatParts? (cs : List Char) : Option FloatParts := do
  let (negative, rest) := splitSign cs
  let mantissa := rest.takeWhile fun c => !isExponentMark c
  let exponent ← match rest.dropWhile fun c => !isExponentMark c with
    | [] => some none
    | _ :: power => (exponent? power).map some
  let whole ← wholeDigits? (mantissa.takeWhile (· ≠ '.'))
  let fraction ← match mantissa.dropWhile (· ≠ '.') with
    | [] => some none
    | _ :: digits => (digits? Char.isDigit digits).map some
  if exponent.isNone && fraction.isNone then none
  else some ⟨negative, whole, fraction.getD [], exponent.getD 0⟩

/-- The least value that is rounded to infinity. -/
def overflowBound : Nat := Nat.pow 2 1024 - Nat.pow 2 970

/-- The number `digits * 10 ^ power` is rounded to infinity. -/
def overflows (digits : Nat) (power : Int) : Bool :=
  if digits = 0 then false
  else
    let size : Int := (toString digits).length + power
    if size < 300 then false
    else if 400 < size then true
    else if 0 ≤ power then overflowBound ≤ digits * Nat.pow 10 power.toNat
    else overflowBound * Nat.pow 10 (-power).toNat ≤ digits

/-- A floating-point number. A positive one that is too large is refused. -/
def float? (cs : List Char) : Option Toml :=
  let written := Toml.float (String.ofList cs)
  match (splitSign cs).2 with
  | ['i', 'n', 'f'] => some written
  | ['n', 'a', 'n'] => some written
  | _ =>
    match floatParts? cs with
    | some p =>
      let power := p.exponent - p.fraction.length
      if !p.negative && overflows (ofDigits 10 (p.whole ++ p.fraction)) power then none
      else some written
    | none => none

/-- The number of two digits, if it lies between two bounds. -/
def twoDigits? (low high : Nat) (a b : Char) : Option Nat :=
  if a.isDigit && b.isDigit then
    let n := ofDigits 10 [a, b]
    if low ≤ n ∧ n ≤ high then some n else none
  else none

def isLeapYear (year : Nat) : Bool := year % 4 = 0 && (year % 100 ≠ 0 || year % 400 = 0)

def daysInMonth (year month : Nat) : Nat :=
  match month with
  | 2 => if isLeapYear year then 29 else 28
  | 4 | 6 | 9 | 11 => 30
  | _ => 31

/-- A day of the calendar. -/
def isDate : List Char → Bool
  | [y₁, y₂, y₃, y₄, '-', m₁, m₂, '-', d₁, d₂] =>
    [y₁, y₂, y₃, y₄].all Char.isDigit &&
      match twoDigits? 1 12 m₁ m₂ with
      | some month =>
        (twoDigits? 1 (daysInMonth (ofDigits 10 [y₁, y₂, y₃, y₄]) month) d₁ d₂).isSome
      | none => false
  | _ => false

/-- A fraction of a second, if there is one. -/
def isSecondFraction : List Char → Bool
  | [] => true
  | '.' :: ds => !ds.isEmpty && ds.all Char.isDigit
  | _ => false

/-- A time of the day; a second may be a leap second. -/
def isTime : List Char → Bool
  | h₁ :: h₂ :: ':' :: m₁ :: m₂ :: ':' :: s₁ :: s₂ :: rest =>
    (twoDigits? 0 23 h₁ h₂).isSome && (twoDigits? 0 59 m₁ m₂).isSome &&
      (twoDigits? 0 60 s₁ s₂).isSome && isSecondFraction rest
  | _ => false

/-- An offset from universal time, if there is one. -/
def isOffset : List Char → Bool
  | [] => true
  | ['Z'] => true
  | ['z'] => true
  | [sign, h₁, h₂, ':', m₁, m₂] =>
    (sign = '+' || sign = '-') && (twoDigits? 0 23 h₁ h₂).isSome && (twoDigits? 0 59 m₁ m₂).isSome
  | _ => false

/-- Starts an offset. -/
def isOffsetMark (c : Char) : Bool := c = 'Z' || c = 'z' || c = '+' || c = '-'

/-- A time after a date: the time of the day with an offset. -/
def isZonedTime (cs : List Char) : Bool :=
  isTime (cs.takeWhile fun c => !isOffsetMark c) && isOffset (cs.dropWhile fun c => !isOffsetMark c)

def isDateTimeMark (c : Char) : Bool := c = 'T' || c = 't' || c = ' '

/-- A date, a time, or a date and a time. -/
def isMoment (cs : List Char) : Bool :=
  isTime cs ||
    isDate (cs.take 10) &&
      match cs.drop 10 with
      | [] => true
      | mark :: time => isDateTimeMark mark && isZonedTime time

/-- The value of a word. -/
def ofWord? (cs : List Char) : Option Toml :=
  if cs = ['t', 'r', 'u', 'e'] then some (.flag true)
  else if cs = ['f', 'a', 'l', 's', 'e'] then some (.flag false)
  else if isMoment cs then some (.moment (String.ofList cs))
  else (float? cs).orElse fun _ => integer? cs

/-- The characters of words. -/
def isWordChar (c : Char) : Bool :=
  c.isAlphanum || c = '_' || c = '-' || c = '+' || c = ':' || c = '.'

/-- Takes a word off. A date may go on with a time after one space. -/
def splitWord (cs : List Char) : List Char × List Char :=
  let word := cs.takeWhile isWordChar
  match cs.dropWhile isWordChar with
  | ' ' :: c :: rest =>
    if isDate word && c.isDigit then
      (word ++ ' ' :: (c :: rest).takeWhile isWordChar, (c :: rest).dropWhile isWordChar)
    else (word, ' ' :: c :: rest)
  | rest => (word, rest)

end Schematic.Toml
