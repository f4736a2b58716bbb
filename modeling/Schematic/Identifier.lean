import Schematic.Fingerprint.Digest

/-!
# Verilog identifiers of design ids

Ids in a design are chosen by an editor; many are hyphenated and long. An identifier is the letter
`v` followed by the id itself, or by six digits of the id's fingerprint when the id has a hyphen.
-/

namespace Schematic.Identifier

/-- How many digits of a fingerprint stand for a hyphenated id. -/
def digestWidth : Nat := 6

/-- The identifier of an id. -/
def ofId (id : String) : String :=
  if '-' ∈ id.toList then
    "v" ++ (Fingerprint.ofText id).short digestWidth
  else
    "v" ++ id

theorem ofId_of_not_mem {id : String} (h : '-' ∉ id.toList) : ofId id = "v" ++ id := by
  simp [ofId, h]

theorem head?_ofId (id : String) : (ofId id).toList.head? = some 'v' := by
  unfold ofId
  split <;> simp

end Schematic.Identifier
