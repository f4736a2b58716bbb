import Schematic.Netlist.Statement
import Schematic.Text.Lines
import Schematic.Design.Block

/-!
# Modules

A module has a name, a clause of parameters, a clause of ports and a body. The body is a list of
statements, or a text taken over from a code block.
-/

namespace Schematic

structure Parameter where
  name : String
  value : Option String
deriving DecidableEq, Inhabited

structure Port where
  name : String
  range : Option String
deriving DecidableEq, Inhabited

inductive Body where
  | statements (list : List Statement)
  | text (code : String)
deriving DecidableEq, Inhabited

structure Module where
  name : String
  parameters : List Parameter := []
  inputs : List Port := []
  outputs : List Port := []
  body : Body := .text ""
deriving DecidableEq, Inhabited

/-- The value in a clause; without one, a parameter is zero. -/
def Parameter.shown (p : Parameter) : String :=
  match p.value with
  | some v => if v = "" then "0" else v
  | none => "0"

def Parameter.text (p : Parameter) : String := " parameter " ++ p.name ++ " = " ++ p.shown

def Port.text (direction : String) (p : Port) : String :=
  match p.range with
  | some range => " " ++ direction ++ " " ++ range ++ " " ++ p.name
  | none => " " ++ direction ++ " " ++ p.name

/-- One statement a line. -/
def Body.lines : Body → String
  | .statements list => "\n".intercalate (list.map Statement.text)
  | .text code => code

namespace Module

def hasPorts (m : Module) : Bool := !(m.inputs.isEmpty && m.outputs.isEmpty)

/-- The text of a module. A clause without entries is left out, every line of the body is
indented, and a module without a name has no text. -/
def text (m : Module) : String :=
  if m.name = "" then ""
  else
    let parameters := if m.parameters.isEmpty then "" else
      clause " #" (m.parameters.map Parameter.text)
    let ports := if m.hasPorts then
      clause " " (m.inputs.map (Port.text "input") ++ m.outputs.map (Port.text "output")) else ""
    let lines := m.body.lines
    let body := if lines = "" then "" else String.ofList (Text.indent lines.toList)
    "\nmodule " ++ m.name ++ parameters ++ ports ++ ";\n" ++ body ++ "\nendmodule\n"

/-- The module of a code block. Blank lines of the code are dropped. -/
def ofCode (name : String) (c : Code) : Module where
  name := name
  parameters := c.parameters.map fun p => ⟨p.name, p.value⟩
  inputs := c.inputs.map fun p => ⟨p.name, p.range⟩
  outputs := c.outputs.map fun p => ⟨p.name, p.range⟩
  body := .text (String.ofList (Text.collapse c.text.toList))

/-- The name of the module of a code block inside another module. -/
def codeName (parent id : String) : String := parent ++ "_" ++ Identifier.ofId id

end Module

/-- The text of modules one after another. -/
def Module.concat (ms : List Module) : String := String.join (ms.map Module.text)

/-- The text of the module with a given name inside a text of modules: from its first line to the
first end of a module after it. -/
def Module.excerpt (text : String) (name : String) : Option String :=
  let chars := text.toList
  let head := "\nmodule ".toList ++ name.toList
  let close := "\nendmodule\n".toList
  let start := match Text.find? (head ++ [' ']) chars, Text.find? (head ++ [';']) chars with
    | some i, some j => some (min i j)
    | some i, none => some i
    | none, found => found
  start.bind fun i =>
    let rest := chars.drop i
    (Text.find? close rest).map fun k => String.ofList (rest.take (k + close.length))

end Schematic
