/-!
# Shortest decimals

The decimal with the fewest digits among those that read back to a given double, and its
positional text. A positive double is `m * 2 ^ q`; a decimal reads back to it when it lies
between the midpoints to its two neighbours, the midpoints included when `m` is even.
-/

namespace Schematic.Decimal

/-- The decimal `digits * 10 ^ exponent`. -/
structure Scaled where
  digits : Nat
  exponent : Int
deriving DecidableEq, Inhabited

/-- A positive double as `mantissa * 2 ^ exponent`. The neighbour below is at half the distance
of the neighbour above when `narrow` holds. -/
structure Binary where
  mantissa : Nat
  exponent : Int
  narrow : Bool
deriving DecidableEq, Inhabited

/-- The magnitude of a double, from its bits. -/
def Binary.ofBits (bits : UInt64) : Binary :=
  let fraction : Nat := bits.toNat % Nat.pow 2 52
  let field : Nat := bits.toNat / Nat.pow 2 52 % Nat.pow 2 11
  if field = 0 then ⟨fraction, -1074, false⟩
  else ⟨Nat.pow 2 52 + fraction, (field : Int) - 1075, fraction = 0 ∧ field ≠ 1⟩

/-- Quarter units of the mantissa as a fraction: the value is `4 * mantissa * numerator /
denominator`. -/
def Binary.quarter (b : Binary) : Nat × Nat :=
  let e := b.exponent - 2
  (Nat.pow 2 e.toNat, Nat.pow 2 (-e).toNat)

/-- How many powers of ten separate a fraction below one from one. -/
def leadingZeros (numerator denominator : Nat) : Nat → Nat
  | 0 => 0
  | fuel + 1 =>
    if numerator * 10 < denominator then
      leadingZeros (numerator * 10) denominator fuel + 1
    else 0

/-- The place `k` of the first digit: the fraction is below `10 ^ k` and not below `10 ^ (k -
1)`. No double needs more than 400 leading zeros. -/
def place (numerator denominator : Nat) : Int :=
  if numerator < denominator then
    -(leadingZeros numerator denominator 400 : Int)
  else
    (Nat.toDigits 10 (numerator / denominator)).length

/-- The neighbours of the double on the grid of multiples of `10 ^ exponent`, when they read back;
of two that do, the nearer, and the upper one when both are equally near. -/
def Binary.onGrid (b : Binary) (exponent : Int) : Option Scaled :=
  let (num, den) := b.quarter
  -- All four quantities are multiples of `1 / (den * 10 ^ -exponent)`.
  let up := Nat.pow 10 (-exponent).toNat
  let unit := Nat.pow 10 exponent.toNat * den
  let value := 4 * b.mantissa * num * up
  let low := (4 * b.mantissa - (if b.narrow then 1 else 2)) * num * up
  let high := (4 * b.mantissa + 2) * num * up
  let closed := b.mantissa % 2 == 0
  let d := value / unit
  let lower := if closed then low ≤ d * unit else low < d * unit
  let upper := if closed then (d + 1) * unit ≤ high else (d + 1) * unit < high
  if lower ∧ upper then
    if value - d * unit < (d + 1) * unit - value then some ⟨d, exponent⟩ else some ⟨d + 1, exponent⟩
  else if lower then some ⟨d, exponent⟩
  else if upper then some ⟨d + 1, exponent⟩
  else none

/-- The shortest decimal of a positive double. Seventeen digits always suffice. -/
def Binary.shortest (b : Binary) : Scaled :=
  let (num, den) := b.quarter
  let k := place (4 * b.mantissa * num) den
  ((List.range 17).findSome? fun n => b.onGrid (k - (n + 1 : Nat))).getD ⟨b.mantissa, b.exponent⟩

/-- Zeros at the end of the digits move into the exponent. -/
def dropZeros : List Char → List Char :=
  fun digits => (digits.reverse.dropWhile (· == '0')).reverse

/-- A decimal without exponent and without needless zeros. -/
def Scaled.positional (s : Scaled) : List Char :=
  let written := Nat.toDigits 10 s.digits
  let point : Int := written.length + s.exponent
  let digits := dropZeros written
  if point ≤ 0 then
    '0' :: '.' :: (List.replicate (-point).toNat '0' ++ digits)
  else if digits.length ≤ point.toNat then
    digits ++ List.replicate (point.toNat - digits.length) '0'
  else
    digits.take point.toNat ++ '.' :: digits.drop point.toNat

/-- The text of a finite double: its shortest decimal, positional, with a minus sign also on
zero. -/
def ofFloat (f : Float) : String :=
  let bits := f.toBits
  let negative := bits.toNat / Nat.pow 2 63 == 1
  let b := Binary.ofBits bits
  let magnitude := if b.mantissa = 0 then ['0'] else b.shortest.positional
  String.ofList (if negative then '-' :: magnitude else magnitude)

end Schematic.Decimal
