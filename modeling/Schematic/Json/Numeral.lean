import Schematic.Decimal.Shortest

/-!
# Numerals

A numeral keeps the digits of a JSON number as they were written. An integer that fits in 64
bits stands for itself; every other numeral stands for a double. The double is computed from the
leading digits that fit in 64 bits and one power of ten, so it may differ from the nearest
double in the last place.
-/

namespace Schematic.Json

/-- A number as written. The parts hold decimal digits only; an empty `fraction` means there was
none. -/
structure Numeral where
  negative : Bool
  whole : List Char
  fraction : List Char
  /-- Whether the exponent is negative, and its digits. -/
  exponent : Option (Bool × List Char)
deriving DecidableEq, Inhabited

namespace Numeral

/-- The value of a run of decimal digits. -/
def digitsValue (digits : List Char) : Nat :=
  digits.foldl (fun n c => 10 * n + (c.toNat - '0'.toNat)) 0

/-- A non-empty run of digits at the start of a text, and what follows. -/
def takeDigits (cs : List Char) : Option (List Char × List Char) :=
  let digits := cs.takeWhile Char.isDigit
  if digits.isEmpty then none else some (digits, cs.dropWhile Char.isDigit)

/-- The part after an exponent mark. -/
def takeExponent (cs : List Char) : Option (Bool × List Char) :=
  let (negative, digits) := match cs with
    | '-' :: r => (true, r)
    | '+' :: r => (false, r)
    | r => (false, r)
  match takeDigits digits with
  | some (e, []) => some (negative, e)
  | _ => none

/-- What may follow the fraction: nothing, or an exponent. -/
def finish (negative : Bool) (whole fraction : List Char) : List Char → Option Numeral
  | [] => some ⟨negative, whole, fraction, none⟩
  | c :: r =>
    if c = 'e' ∨ c = 'E' then
      (takeExponent r).map fun e => ⟨negative, whole, fraction, some e⟩
    else none

/-- The digits of the whole part have no needless leading zero. -/
def isCanonicalWhole : List Char → Bool
  | '0' :: _ :: _ => false
  | _ => true

/-- Reads a numeral that takes up the whole text. -/
def ofChars? (cs : List Char) : Option Numeral :=
  let (negative, unsigned) := match cs with
    | '-' :: r => (true, r)
    | r => (false, r)
  match takeDigits unsigned with
  | none => none
  | some (whole, rest) =>
    if isCanonicalWhole whole then
      match rest with
      | '.' :: r => (takeDigits r).bind fun (fraction, rest) => finish negative whole fraction rest
      | _ => finish negative whole [] rest
    else none

/-- Neither a fraction nor an exponent was written. -/
def isInteger (n : Numeral) : Bool := n.fraction.isEmpty && n.exponent.isNone

/-- An integer from `-2 ^ 63` to `2 ^ 64 - 1`. Minus zero is none. -/
def isWord (n : Numeral) : Bool :=
  n.isInteger &&
    if n.negative then
      0 < digitsValue n.whole && digitsValue n.whole ≤ Nat.pow 2 63
    else
      digitsValue n.whole < Nat.pow 2 64

/-- Takes digits into a significand while it fits in 64 bits; also tells how many were left over. -/
def absorb (significand : Nat) : List Char → Nat × Nat
  | [] => (significand, 0)
  | c :: r =>
    let next := 10 * significand + (c.toNat - '0'.toNat)
    if next < Nat.pow 2 64 then absorb next r else (significand, r.length + 1)

/-- A power of ten as a double. -/
def tenTo (e : Nat) : Float := Float.ofScientific 1 false e

/-- The double `significand * 10 ^ exponent`, by one multiplication or division, or two divisions
below the range of one. A result that is too large is refused. -/
def scale (significand : Nat) (exponent : Int) : Option Float :=
  let f := Float.ofNat significand
  if significand = 0 then some f
  else if 308 < exponent then none
  else if 0 ≤ exponent then
    let product := f * tenTo exponent.toNat
    if product.isInf then none else some product
  else if -308 ≤ exponent then some (f / tenTo (-exponent).toNat)
  else if -616 ≤ exponent then some (f / tenTo 308 / tenTo (-exponent - 308).toNat)
  else some (Float.ofNat 0)

/-- The double a numeral stands for, unless it is too large. -/
def toFloat? (n : Numeral) : Option Float :=
  let (whole, dropped) := absorb 0 n.whole
  let (significand, left) := absorb whole n.fraction
  let written : Int := match n.exponent with
    | none => 0
    | some (negative, digits) => if negative then -digitsValue digits else digitsValue digits
  let exponent := dropped - (n.fraction.length - left : Nat) + written
  (scale significand exponent).map fun f => if n.negative then -f else f

/-- The numeral stands for a number. -/
def isReadable (n : Numeral) : Bool := n.isWord || n.toFloat?.isSome

/-- The text of the number: the digits themselves for a 64-bit integer, else the shortest decimal of
the double. -/
def text? (n : Numeral) : Option String :=
  if n.isWord then
    some (String.ofList (if n.negative then '-' :: n.whole else n.whole))
  else
    n.toFloat?.map Decimal.ofFloat

/-- The value of a numeral without sign, fraction and exponent that is below a bound. -/
def natBelow? (n : Numeral) (bound : Nat) : Option Nat :=
  if n.isInteger && !n.negative && decide (digitsValue n.whole < bound) then
    some (digitsValue n.whole)
  else none

end Numeral

end Schematic.Json
