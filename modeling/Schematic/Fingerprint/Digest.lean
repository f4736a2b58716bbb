import Schematic.Fingerprint.Mixing

/-!
# The digest of a byte string

The XXH3 128-bit hash with seed zero and the standard secret. Each range of lengths has a scheme
of its own; `ofBytes` picks the scheme.
-/

namespace Schematic.Fingerprint

def ofEmpty : Fingerprint where
  low := avalancheShort (key 64 ^^^ key 72)
  high := avalancheShort (key 80 ^^^ key 88)

/-- One to three bytes. -/
def ofAtMost3 (bs : ByteArray) : Fingerprint :=
  let n := bs.size
  let low := (byteAt bs 0 <<< 16) ||| (byteAt bs (n / 2) <<< 24) ||| byteAt bs (n - 1) |||
    (n.toUInt64 <<< 8)
  let high := rotate32 (swap32 low) 13
  { low := avalancheShort (low ^^^ (word32At secret 0 ^^^ word32At secret 4))
    high := avalancheShort (high ^^^ (word32At secret 8 ^^^ word32At secret 12)) }

/-- Four to eight bytes. -/
def ofAtMost8 (bs : ByteArray) : Fingerprint :=
  let n := bs.size
  let input := word32At bs 0 + (word32At bs (n - 4) <<< 32)
  let m := product (input ^^^ (key 16 ^^^ key 24)) (prime64One + (n.toUInt64 <<< 2))
  let high := m.high + (m.low <<< 1)
  let low := m.low ^^^ (high >>> 3)
  { low := shiftXor (shiftXor low 35 * primeMixTwo) 28
    high := avalanche high }

/-- Nine to sixteen bytes. -/
def ofAtMost16 (bs : ByteArray) : Fingerprint :=
  let n := bs.size
  let first := word64At bs 0
  let last := word64At bs (n - 8)
  let m := product (first ^^^ last ^^^ (key 32 ^^^ key 40)) prime64One
  let last := last ^^^ (key 48 ^^^ key 56)
  let high := m.high + (last + low32 last * (prime32Two - 1))
  let low := (m.low + ((n - 1).toUInt64 <<< 54)) ^^^ swap64 high
  let h := product low prime64Two
  { low := avalanche h.low
    high := avalanche (h.high + high * prime64Two) }

/-- The closing step of the schemes that accumulate 32 bytes at a time. -/
def close32 (acc : Fingerprint) (n : Nat) : Fingerprint where
  low := avalanche (acc.low + acc.high)
  high := 0 - avalanche (acc.low * prime64One + acc.high * prime64Four + n.toUInt64 * prime64Two)

/-- 17 to 128 bytes: pairs of 16-byte pieces from both ends, the innermost pair first. -/
def ofAtMost128 (bs : ByteArray) : Fingerprint :=
  let n := bs.size
  let pairs := (List.range ((n - 1) / 32 + 1)).reverse
  let start : Fingerprint := { low := n.toUInt64 * prime64One, high := 0 }
  let acc := pairs.foldl
    (fun acc k => mix32 acc bs (16 * k) (n - 16 * (k + 1)) (32 * k)) start
  close32 acc n

/-- 129 to 240 bytes: 32-byte pieces in order, with a finishing step after the fourth. -/
def ofAtMost240 (bs : ByteArray) : Fingerprint :=
  let n := bs.size
  let start : Fingerprint := { low := n.toUInt64 * prime64One, high := 0 }
  let head := (List.range 4).foldl
    (fun acc k => mix32 acc bs (32 * k) (32 * k + 16) (32 * k)) start
  let head : Fingerprint := { low := avalanche head.low, high := avalanche head.high }
  let body := (List.range (n / 32 - 4)).foldl
    (fun acc k => mix32 acc bs (32 * (k + 4)) (32 * (k + 4) + 16) (3 + 32 * k)) head
  close32 (mix32 body bs (n - 16) (n - 32) 103) n

/-- Eight accumulators, the state of the scheme for long inputs. -/
abbrev Lanes := List UInt64

def Lanes.start : Lanes :=
  [prime32Three, prime64One, prime64Two, prime64Three, prime64Four, prime32Two, prime64Five,
    prime32One]

def Lanes.get (lanes : Lanes) (i : Nat) : UInt64 := lanes.getD i 0

/-- Adds the 64 bytes at `i`, keyed by the secret at `k`. A lane takes the product of its keyed
halves and the plain word of its neighbour. -/
def Lanes.absorb (lanes : Lanes) (bs : ByteArray) (i k : Nat) : Lanes :=
  (List.range 8).map fun j =>
    let neighbour := if j % 2 = 0 then j + 1 else j - 1
    let keyed := word64At bs (i + 8 * j) ^^^ key (k + 8 * j)
    lanes.get j + word64At bs (i + 8 * neighbour) + low32 keyed * (keyed >>> 32)

/-- The step between two blocks of 1024 bytes. -/
def Lanes.scramble (lanes : Lanes) : Lanes :=
  (List.range 8).map fun j =>
    (shiftXor (lanes.get j) 47 ^^^ key (128 + 8 * j)) * prime32One

/-- Folds the lanes to one word, keyed by the secret at `k`. -/
def Lanes.merge (lanes : Lanes) (k : Nat) (start : UInt64) : UInt64 :=
  avalanche ((List.range 4).foldl (fun w j =>
    w + foldProduct (lanes.get (2 * j) ^^^ key (k + 16 * j))
      (lanes.get (2 * j + 1) ^^^ key (k + 16 * j + 8))) start)

/-- Adds `count` stripes of 64 bytes from offset `i` on. -/
def Lanes.absorbStripes (lanes : Lanes) (bs : ByteArray) (i count : Nat) : Lanes :=
  (List.range count).foldl (fun l s => l.absorb bs (i + 64 * s) (8 * s)) lanes

/-- More than 240 bytes: blocks of sixteen 64-byte stripes, the rest of the last block, and the last
64 bytes once more. -/
def ofLong (bs : ByteArray) : Fingerprint :=
  let n := bs.size
  let blocks := (n - 1) / 1024
  let full := (List.range blocks).foldl
    (fun l b => (l.absorbStripes bs (1024 * b) 16).scramble) Lanes.start
  let rest := full.absorbStripes bs (1024 * blocks) ((n - 1 - 1024 * blocks) / 64)
  let lanes := rest.absorb bs (n - 64) 121
  { low := lanes.merge 11 (n.toUInt64 * prime64One)
    high := lanes.merge 117 (~~~(n.toUInt64 * prime64Two)) }

/-- The fingerprint of a byte string. -/
def ofBytes (bs : ByteArray) : Fingerprint :=
  if bs.size = 0 then ofEmpty
  else if bs.size ≤ 3 then ofAtMost3 bs
  else if bs.size ≤ 8 then ofAtMost8 bs
  else if bs.size ≤ 16 then ofAtMost16 bs
  else if bs.size ≤ 128 then ofAtMost128 bs
  else if bs.size ≤ 240 then ofAtMost240 bs
  else ofLong bs

/-- The fingerprint of a text, taken over its UTF-8 form. -/
def ofText (s : String) : Fingerprint := ofBytes s.toUTF8

end Schematic.Fingerprint
