import Schematic.Top

/-!
# Pin constraints

One line for each bit of the top module that is placed on a pin.
-/

namespace Schematic

/-- The place of a port, or of one bit of it. -/
structure Constraint where
  port : String
  bit : Option String
  pin : String
deriving DecidableEq, Inhabited

def Constraint.text (c : Constraint) : String :=
  match c.bit with
  | some bit => "set_io " ++ c.port ++ "[" ++ bit ++ "] " ++ c.pin ++ "\n"
  | none => "set_io " ++ c.port ++ " " ++ c.pin ++ "\n"

/-- The places of a terminal. A single pin has no bit number; a virtual terminal has no places. -/
def Terminal.constraints (t : Terminal) (port : String) : List Constraint :=
  let place (pin : Pin) : String := if t.isVirtual then "" else pin.value
  match t.pins with
  | [pin] => [⟨port, none, place pin⟩]
  | pins => pins.map fun pin => ⟨port, some pin.index, place pin⟩

def Block.constraints (b : Block) : List Constraint :=
  match b.kind with
  | .input t | .output t => t.constraints (Identifier.ofId b.id)
  | _ => []

namespace Top

/-- The places of the output that holds idle pins. -/
def holdConstraints (t : Top) : List Constraint :=
  match t.idlePins with
  | [rule] => [⟨holdPort, none, rule.pin⟩]
  | rules => rules.zipIdx.map fun (rule, i) => ⟨holdPort, some (toString i), rule.pin⟩

def constraints (t : Top) : List Constraint :=
  t.graph.blocks.flatMap Block.constraints ++ t.holdConstraints

end Top

/-- The text of constraints, a line each. -/
def Constraint.concat (list : List Constraint) : String := String.join (list.map Constraint.text)

end Schematic
