import Schematic.Fingerprint.Basic

/-!
# Mixing steps of the fingerprint

The constants, the secret and the word operations that the XXH3 hash is built from, for seed zero.
Words are read from byte strings in little-endian order. A read past the end yields zero bytes; the
digest never asks for one.
-/

namespace Schematic.Fingerprint

def prime32One : UInt64 := 0x9E3779B1
def prime32Two : UInt64 := 0x85EBCA77
def prime32Three : UInt64 := 0xC2B2AE3D
def prime64One : UInt64 := 0x9E3779B185EBCA87
def prime64Two : UInt64 := 0xC2B2AE3D27D4EB4F
def prime64Three : UInt64 := 0x165667B19E3779F9
def prime64Four : UInt64 := 0x85EBCA77C2B2AE63
def prime64Five : UInt64 := 0x27D4EB2F165667C5
def primeMixOne : UInt64 := 0x165667919E3779F9
def primeMixTwo : UInt64 := 0x9FB21C651E98DF25

/-- The 192 bytes that key every mixing step. -/
def secret : ByteArray := ⟨#[
  0xb8, 0xfe, 0x6c, 0x39, 0x23, 0xa4, 0x4b, 0xbe, 0x7c, 0x01, 0x81, 0x2c, 0xf7, 0x21, 0xad, 0x1c,
  0xde, 0xd4, 0x6d, 0xe9, 0x83, 0x90, 0x97, 0xdb, 0x72, 0x40, 0xa4, 0xa4, 0xb7, 0xb3, 0x67, 0x1f,
  0xcb, 0x79, 0xe6, 0x4e, 0xcc, 0xc0, 0xe5, 0x78, 0x82, 0x5a, 0xd0, 0x7d, 0xcc, 0xff, 0x72, 0x21,
  0xb8, 0x08, 0x46, 0x74, 0xf7, 0x43, 0x24, 0x8e, 0xe0, 0x35, 0x90, 0xe6, 0x81, 0x3a, 0x26, 0x4c,
  0x3c, 0x28, 0x52, 0xbb, 0x91, 0xc3, 0x00, 0xcb, 0x88, 0xd0, 0x65, 0x8b, 0x1b, 0x53, 0x2e, 0xa3,
  0x71, 0x64, 0x48, 0x97, 0xa2, 0x0d, 0xf9, 0x4e, 0x38, 0x19, 0xef, 0x46, 0xa9, 0xde, 0xac, 0xd8,
  0xa8, 0xfa, 0x76, 0x3f, 0xe3, 0x9c, 0x34, 0x3f, 0xf9, 0xdc, 0xbb, 0xc7, 0xc7, 0x0b, 0x4f, 0x1d,
  0x8a, 0x51, 0xe0, 0x4b, 0xcd, 0xb4, 0x59, 0x31, 0xc8, 0x9f, 0x7e, 0xc9, 0xd9, 0x78, 0x73, 0x64,
  0xea, 0xc5, 0xac, 0x83, 0x34, 0xd3, 0xeb, 0xc3, 0xc5, 0x81, 0xa0, 0xff, 0xfa, 0x13, 0x63, 0xeb,
  0x17, 0x0d, 0xdd, 0x51, 0xb7, 0xf0, 0xda, 0x49, 0xd3, 0x16, 0x55, 0x26, 0x29, 0xd4, 0x68, 0x9e,
  0x2b, 0x16, 0xbe, 0x58, 0x7d, 0x47, 0xa1, 0xfc, 0x8f, 0xf8, 0xb8, 0xd1, 0x7a, 0xd0, 0x31, 0xce,
  0x45, 0xcb, 0x3a, 0x8f, 0x95, 0x16, 0x04, 0x28, 0xaf, 0xd7, 0xfb, 0xca, 0xbb, 0x4b, 0x40, 0x7e]⟩

/-- The byte at an offset. -/
def byteAt (bs : ByteArray) (i : Nat) : UInt64 :=
  if h : i < bs.size then bs[i].toUInt64 else 0

/-- The 32-bit word at an offset. -/
def word32At (bs : ByteArray) (i : Nat) : UInt64 :=
  byteAt bs i ||| (byteAt bs (i + 1) <<< 8) ||| (byteAt bs (i + 2) <<< 16) |||
    (byteAt bs (i + 3) <<< 24)

/-- The 64-bit word at an offset. -/
def word64At (bs : ByteArray) (i : Nat) : UInt64 :=
  word32At bs i ||| (word32At bs (i + 4) <<< 32)

/-- The 64-bit word of the secret at an offset. -/
def key (i : Nat) : UInt64 := word64At secret i

/-- The low half of a word. -/
def low32 (w : UInt64) : UInt64 := w &&& 0xFFFFFFFF

/-- The word with the bytes of its low half reversed and its high half cleared. -/
def swap32 (w : UInt64) : UInt64 :=
  let byte (shift : UInt64) : UInt64 := (w >>> shift) &&& 0xFF
  (byte 0 <<< 24) ||| (byte 8 <<< 16) ||| (byte 16 <<< 8) ||| byte 24

/-- The word with its eight bytes reversed. -/
def swap64 (w : UInt64) : UInt64 :=
  (swap32 (low32 w) <<< 32) ||| swap32 (w >>> 32)

/-- The low half rotated left by `n` bits. -/
def rotate32 (w : UInt64) (n : UInt64) : UInt64 :=
  low32 ((w <<< n) ||| (w >>> (32 - n)))

def shiftXor (w shift : UInt64) : UInt64 := w ^^^ (w >>> shift)

/-- The full product of two words. -/
def product (a b : UInt64) : Fingerprint :=
  let p := a.toNat * b.toNat
  ⟨(p >>> 64).toUInt64, p.toUInt64⟩

/-- The two halves of a full product, combined. -/
def foldProduct (a b : UInt64) : UInt64 :=
  let p := product a b
  p.low ^^^ p.high

/-- The finishing step for long inputs. -/
def avalanche (w : UInt64) : UInt64 :=
  shiftXor (shiftXor w 37 * primeMixOne) 32

/-- The finishing step for inputs of at most three bytes. -/
def avalancheShort (w : UInt64) : UInt64 :=
  shiftXor (shiftXor (shiftXor w 33 * prime64Two) 29 * prime64Three) 32

/-- Sixteen bytes at `i`, keyed by the secret at `k`. -/
def mix16 (bs : ByteArray) (i k : Nat) : UInt64 :=
  foldProduct (word64At bs i ^^^ key k) (word64At bs (i + 8) ^^^ key (k + 8))

/-- Mixes the sixteen bytes at `i` and those at `j` into an accumulator. -/
def mix32 (acc : Fingerprint) (bs : ByteArray) (i j k : Nat) : Fingerprint where
  low := (acc.low + mix16 bs i k) ^^^ (word64At bs j + word64At bs (j + 8))
  high := (acc.high + mix16 bs j (k + 16)) ^^^ (word64At bs i + word64At bs (i + 8))

end Schematic.Fingerprint
