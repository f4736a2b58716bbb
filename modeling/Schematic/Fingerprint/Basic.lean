/-!
# Fingerprints

A fingerprint is a 128-bit value that stands for the content of a byte string. It is written as 32
lowercase hexadecimal digits, most significant first; a label takes only the leading few of them.
-/

namespace Schematic

/-- The value `high * 2 ^ 64 + low`. -/
structure Fingerprint where
  high : UInt64
  low : UInt64
deriving DecidableEq, Inhabited

namespace Fingerprint

/-- The eight bytes of a word, most significant first. -/
def wordBytes (w : UInt64) : List UInt8 :=
  [56, 48, 40, 32, 24, 16, 8, 0].map fun shift : UInt64 => (w >>> shift).toUInt8

/-- The sixteen bytes of a fingerprint, most significant first. -/
def bytes (f : Fingerprint) : List UInt8 :=
  wordBytes f.high ++ wordBytes f.low

/-- The word whose bytes, most significant first, are given. -/
def ofWordBytes (bs : List UInt8) : UInt64 :=
  bs.foldl (fun w b => (w <<< 8) ||| b.toUInt64) 0

/-- Reads the sixteen bytes back; any other number of bytes is refused. -/
def ofBytes? (bs : List UInt8) : Option Fingerprint :=
  if bs.length = 16 then
    some ⟨ofWordBytes (bs.take 8), ofWordBytes (bs.drop 8)⟩
  else
    none

/-- One byte as two lowercase hexadecimal digits. -/
def hexByte (b : UInt8) : List Char :=
  [Nat.digitChar (b.toNat / 16), Nat.digitChar (b.toNat % 16)]

/-- All 32 digits. -/
def hex (f : Fingerprint) : String :=
  String.ofList (f.bytes.flatMap hexByte)

/-- The leading `width` digits, or all of them when there are fewer. -/
def short (f : Fingerprint) (width : Nat) : String :=
  String.ofList ((f.bytes.flatMap hexByte).take width)

/-- The form used in diagnostics: the first two bytes only. -/
def brief (f : Fingerprint) : String :=
  "ContentHash(" ++ f.short 4 ++ "..)"

theorem length_bytes (f : Fingerprint) : f.bytes.length = 16 := by
  simp [bytes, wordBytes]

theorem length_short (f : Fingerprint) {width : Nat} (h : width ≤ 32) :
    (f.short width).length = width := by
  have hdigits : (f.bytes.flatMap hexByte).length = 32 := by
    simp [bytes, wordBytes, hexByte]
  rw [short, String.length_ofList, List.length_take, hdigits, Nat.min_eq_left h]

end Fingerprint

end Schematic
