import Schematic.Fingerprint.Basic
import Schematic.Json.Record

/-!
# Fingerprints as JSON

A fingerprint is written as the array of its sixteen bytes.
-/

namespace Schematic.Fingerprint

/-- Reads the sixteen bytes of a fingerprint. -/
def read (levels : Nat) (j : Json) : Except (Json.Refusal Empty) Fingerprint := do
  let numbers ← Json.readList levels (fun _ => Json.readNat 256) j
  Json.require (ofBytes? (numbers.map Nat.toUInt8))

/-- The fingerprint of a JSON text. -/
def ofText? (text : String) : Option Fingerprint := (Json.readDocument read text).toOption

end Schematic.Fingerprint
