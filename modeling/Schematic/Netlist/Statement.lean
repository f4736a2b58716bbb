import Schematic.Identifier

/-!
# Statements of a module body

Wires are named after their position in the graph: `w<i>` carries a signal and `p<i>` a constant.
-/

namespace Schematic

/-- Something a statement refers to. -/
inductive Net where
  /-- The signal of the wire at a position. -/
  | wire (index : Nat)
  /-- The constant of the wire at a position. -/
  | feed (index : Nat)
  /-- A port or another declared name. -/
  | name (text : String)
deriving DecidableEq, Inhabited

/-- A port or parameter of an instance and what is connected to it. -/
structure Connection where
  port : String
  net : Net
deriving DecidableEq, Inhabited

/-- A use of a module. -/
structure Instance where
  /-- The name of the module that is used. -/
  target : String
  /-- The name of this use. -/
  name : String
  parameters : List Connection
  ports : List Connection
deriving DecidableEq, Inhabited

inductive Statement where
  /-- A constant of the body with its value. -/
  | constant (name value : String)
  /-- A constant wire takes the value of a constant. -/
  | feed (index : Nat) (source : String)
  /-- The declaration of a signal wire. -/
  | wire (index : Nat) (width : Option Nat)
  | assign (target source : Net)
  | use (inst : Instance)
  /-- A port is held at fixed levels, one for each bit. -/
  | hold (port : String) (bits : List String)
deriving DecidableEq, Inhabited

def Net.text : Net → String
  | .wire i => "w" ++ toString i
  | .feed i => "p" ++ toString i
  | .name s => s

def Connection.text (c : Connection) : String := " ." ++ c.port ++ "(" ++ c.net.text ++ ")"

/-- Entries between parentheses, one on each line. -/
def clause (opening : String) (entries : List String) : String :=
  opening ++ "(\n" ++ ",\n".intercalate entries ++ "\n)"

def Instance.text (i : Instance) : String :=
  let parameters := if i.parameters.isEmpty then "" else
    clause " #" (i.parameters.map Connection.text)
  let ports := if i.ports.isEmpty then " ()" else clause " " (i.ports.map Connection.text)
  i.target ++ parameters ++ " " ++ i.name ++ ports ++ ";"

def Statement.text : Statement → String
  | .constant name value => "localparam " ++ name ++ " = " ++ value ++ ";"
  | .feed i source => "localparam " ++ (Net.feed i).text ++ " = " ++ source ++ ";"
  | .wire i none => "wire " ++ (Net.wire i).text ++ ";"
  | .wire i (some width) => "wire [0:" ++ toString (width - 1) ++ "] " ++ (Net.wire i).text ++ ";"
  | .assign target source => "assign " ++ target.text ++ " = " ++ source.text ++ ";"
  | .use inst => inst.text
  | .hold port bits =>
    "assign " ++ port ++ " = " ++ toString bits.length ++ "'b" ++ String.join bits ++ ";"

end Schematic
