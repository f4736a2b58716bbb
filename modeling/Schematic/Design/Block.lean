/-!
# Blocks

The nodes of a circuit graph. Input and output blocks are the terminals of a circuit, constants
carry a value, code blocks carry the text of a module, and a circuit block stands for another
circuit by the name of its type. Information blocks have no part in the circuit.
-/

namespace Schematic

/-- One bit of a terminal and the board pin it is placed on. -/
structure Pin where
  index : String
  value : String
deriving DecidableEq, Inhabited

/-- The board pin a port asks for when nothing else is connected to it. -/
structure Preset where
  /-- Name of the signal on the board. -/
  port : String
  pin : String
  /-- The request counts only when it is set. -/
  apply : Bool
deriving DecidableEq, Inhabited

/-- An input or output block. -/
structure Terminal where
  name : Option String := none
  range : Option String := none
  pins : List Pin := []
  /-- A virtual terminal has no place on the board. -/
  isVirtual : Bool := false
  preset : Option Preset := none
deriving DecidableEq, Inhabited

structure Constant where
  name : Option String := none
  value : String := ""
  /-- A local constant is no parameter of its module. -/
  isLocal : Bool := false
deriving DecidableEq, Inhabited

structure CodeParameter where
  name : String
  value : Option String
deriving DecidableEq, Inhabited

structure CodePort where
  name : String
  range : Option String
  preset : Option Preset
deriving DecidableEq, Inhabited

/-- The text of a module body with its parameters and ports. -/
structure Code where
  text : String := ""
  parameters : List CodeParameter := []
  inputs : List CodePort := []
  outputs : List CodePort := []
deriving DecidableEq, Inhabited

inductive BlockKind where
  | input (terminal : Terminal)
  | output (terminal : Terminal)
  | constant (constant : Constant)
  | code (code : Code)
  | info
  /-- A sub-circuit, by the name of its type. -/
  | circuit (type : String)
deriving DecidableEq, Inhabited

structure Block where
  id : String
  kind : BlockKind
deriving DecidableEq, Inhabited

namespace Terminal

/-- The pin of a terminal that has exactly one. -/
def solePin (t : Terminal) : Option String :=
  match t.pins with
  | [pin] => some pin.value
  | _ => none

/-- A one-bit terminal on a board pin. -/
def onPin (name pin : String) : Terminal :=
  { name := some name, pins := [⟨"0", pin⟩] }

end Terminal

namespace Block

def input? (b : Block) : Option Terminal :=
  match b.kind with
  | .input t => some t
  | _ => none

def output? (b : Block) : Option Terminal :=
  match b.kind with
  | .output t => some t
  | _ => none

/-- The block becomes an instance of a module. -/
def isInstance (b : Block) : Bool :=
  match b.kind with
  | .code _ | .circuit _ => true
  | _ => false

end Block

end Schematic
