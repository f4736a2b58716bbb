import Schematic.Artifact.Generate
import Mathlib.Data.List.Basic

/-!
# The lines of the constraints

The constraints are a text of lines, each of which places a port or a bit of one on a pin: first
those of the terminals, block by block, then those of the output that holds idle pins.
-/

namespace Schematic

section Spelling

/-- The line that places a port, or one bit of it, on a pin. -/
def placeLine (port : String) (bit : Option String) (pin : String) : String :=
  "set_io " ++ port ++ (bit.elim "" fun b => "[" ++ b ++ "]") ++ " " ++ pin ++ "\n"

/-- The lines of a terminal, one for each of its pins. An only pin has no number, and a virtual
terminal leaves the places blank. -/
def Terminal.placeLines (t : Terminal) (port : String) : List String :=
  t.pins.map fun pin => placeLine port (if t.pins.length = 1 then none else some pin.index)
    (if t.isVirtual then "" else pin.value)

def Block.placeLines (b : Block) : List String :=
  match b.kind with
  | .input t | .output t => t.placeLines (Identifier.ofId b.id)
  | _ => []

/-- The line that places a bit of the added output. An only bit has no number. -/
def holdLine (n i : Nat) (pin : String) : String :=
  if n = 1 then "set_io vinit " ++ pin ++ "\n"
  else "set_io vinit[" ++ toString i ++ "] " ++ pin ++ "\n"

/-- The lines that place the bits of the output that holds idle pins. -/
def holdLines (rules : List OutputRule) : List String :=
  rules.zipIdx.map fun x => holdLine rules.length x.2 x.1.pin

theorem holdLine_eq (n i : Nat) (pin : String) :
    holdLine n i pin = placeLine "vinit" (if n = 1 then none else some (toString i)) pin := by
  unfold holdLine placeLine
  split <;> simp [← String.toList_inj]

theorem holdLine_inj (n i : Nat) {pin pin' : String} :
    holdLine n i pin = holdLine n i pin' ↔ pin = pin' := by
  rw [holdLine_eq, holdLine_eq]
  simp [placeLine, ← String.toList_inj]

theorem getElem?_holdLines (rules : List OutputRule) (j : Nat) :
    (holdLines rules)[j]? = rules[j]?.map fun rule => holdLine rules.length j rule.pin := by
  rw [holdLines, List.getElem?_map, List.getElem?_zipIdx, Option.map_map, Nat.zero_add]
  rfl

end Spelling

section Emitted

theorem Constraint.text_eq (c : Constraint) : c.text = placeLine c.port c.bit c.pin := by
  unfold text placeLine
  cases c.bit <;> simp [← String.toList_inj]

theorem Constraint.concat_append (before after : List Constraint) :
    concat (before ++ after) = concat before ++ concat after := by
  simp [concat]

theorem Terminal.map_text_constraints (t : Terminal) (port : String) :
    (t.constraints port).map Constraint.text = t.placeLines port := by
  rcases hpins : t.pins with _ | ⟨pin, _ | ⟨next, rest⟩⟩ <;>
    simp [constraints, placeLines, hpins, Constraint.text_eq]

theorem Block.map_text_constraints (b : Block) :
    b.constraints.map Constraint.text = b.placeLines := by
  cases hkind : b.kind <;> simp [constraints, placeLines, hkind, Terminal.map_text_constraints]

namespace Top

theorem map_text_holdConstraints (t : Top) :
    t.holdConstraints.map Constraint.text = holdLines t.idlePins := by
  rcases hidle : t.idlePins with _ | ⟨rule, _ | ⟨next, rest⟩⟩ <;>
    simp [holdConstraints, holdLines, hidle, Constraint.text, holdLine, holdPort]

theorem concat_holdConstraints (t : Top) :
    Constraint.concat t.holdConstraints = String.join (holdLines t.idlePins) :=
  congrArg String.join t.map_text_holdConstraints

/-- The constraints of a top circuit as lines. -/
theorem concat_constraints (t : Top) : Constraint.concat t.constraints =
    String.join (t.graph.blocks.flatMap Block.placeLines) ++
      String.join (holdLines t.idlePins) := by
  rw [constraints, Constraint.concat_append, concat_holdConstraints, Constraint.concat,
    List.map_flatMap]
  simp only [Block.map_text_constraints]

end Top

theorem Project.constraints_eq {p : Project} {o : Options} {rules : BoardRules} {top : Top}
    (h : Top.ofProject p o rules = .ok top) : p.constraints o rules =
      .ok (String.join (top.graph.blocks.flatMap Block.placeLines) ++
        String.join (holdLines top.idlePins)) := by
  rw [constraints, h, ← top.concat_constraints]
  rfl

end Emitted

end Schematic
