import Schematic.Json.Record
import Schematic.Design.Project

/-!
# The design format

Reading designs from JSON. A block is read in two steps: first its id, its type and, as a plain
value, its data; then the data, whose shape depends on the type. Data that is absent or null is
an empty record.
-/

namespace Schematic

/-- Why a block that is well-formed as JSON is refused. -/
inductive BlockFault where
  | unknownPrimitive (id type : String)
  | malformedData (id : String)
deriving DecidableEq, Inhabited

def BlockFault.message : BlockFault → String
  | .unknownPrimitive id type => s!"block '{id}' has unknown primitive type '{type}'"
  | .malformedData id => s!"block '{id}' has malformed data"

namespace Format

open Json

/-- The outcome of reading a part of a design. -/
abbrev Read (α : Type) := Except (Refusal BlockFault) α

/-- The text that starts the names of the built-in block types. -/
def primitivePrefix : String := "basic."

structure PinFields where
  index : Option String := none
  value : String := ""

def pinFields (_ : Nat) : List (RecordField BlockFault PinFields) :=
  [field "index" readScalar fun x r => { r with index := some x },
   field "value" readScalar fun x r => { r with value := x }]

def readPin (levels : Nat) (j : Json) : Read Pin := do
  let r ← readRecord levels pinFields {} j
  return ⟨← require r.index, r.value⟩

structure PresetFields where
  port : Option String := none
  pin : Option String := none
  apply : Bool := false

def presetFields (_ : Nat) : List (RecordField BlockFault PresetFields) :=
  [field "port" readText fun x r => { r with port := some x },
   field "pin" readScalar fun x r => { r with pin := some x },
   field "apply" readFlag fun x r => { r with apply := x }]

def readPreset (levels : Nat) (j : Json) : Read Preset := do
  let r ← readRecord levels presetFields {} j
  return ⟨← require r.port, ← require r.pin, r.apply⟩

def terminalFields (levels : Nat) : List (RecordField BlockFault Terminal) :=
  [field "name" readLabel fun x r => { r with name := x },
   field "range" readLabel fun x r => { r with range := x },
   field "pins" (readList levels readPin) fun x r => { r with pins := x },
   field "virtual" readFlag fun x r => { r with isVirtual := x },
   field "default" (readOptional (readPreset levels)) fun x r => { r with preset := x }]

def readTerminal (levels : Nat) (j : Json) : Read Terminal :=
  readRecord levels terminalFields {} j

def constantFields (_ : Nat) : List (RecordField BlockFault Constant) :=
  [field "name" readLabel fun x r => { r with name := x },
   field "value" readScalar fun x r => { r with value := x },
   field "local" readFlag fun x r => { r with isLocal := x }]

def readConstant (levels : Nat) (j : Json) : Read Constant :=
  readRecord levels constantFields {} j

structure CodeParameterFields where
  name : Option String := none
  value : Option String := none

def codeParameterFields (_ : Nat) : List (RecordField BlockFault CodeParameterFields) :=
  [field "name" readText fun x r => { r with name := some x },
   field "value" readLabel fun x r => { r with value := x }]

def readCodeParameter (levels : Nat) (j : Json) : Read CodeParameter := do
  let r ← readRecord levels codeParameterFields {} j
  return ⟨← require r.name, r.value⟩

structure CodePortFields where
  name : Option String := none
  range : Option String := none
  preset : Option Preset := none

def codePortFields (levels : Nat) : List (RecordField BlockFault CodePortFields) :=
  [field "name" readText fun x r => { r with name := some x },
   field "range" readLabel fun x r => { r with range := x },
   field "default" (readOptional (readPreset levels)) fun x r => { r with preset := x }]

def readCodePort (levels : Nat) (j : Json) : Read CodePort := do
  let r ← readRecord levels codePortFields {} j
  return ⟨← require r.name, r.range, r.preset⟩

structure CodePorts where
  inputs : List CodePort := []
  outputs : List CodePort := []

def codePortsFields (levels : Nat) : List (RecordField BlockFault CodePorts) :=
  [field "in" (readList levels readCodePort) fun x r => { r with inputs := x },
   field "out" (readList levels readCodePort) fun x r => { r with outputs := x }]

def readCodePorts (levels : Nat) (j : Json) : Read CodePorts :=
  readRecord levels codePortsFields {} j

def codeFields (levels : Nat) : List (RecordField BlockFault Code) :=
  [field "code" readText fun x r => { r with text := x },
   field "params" (readList levels readCodeParameter) fun x r => { r with parameters := x },
   field "ports" (readCodePorts levels) fun x r =>
     { r with inputs := x.inputs, outputs := x.outputs }]

def readCode (levels : Nat) (j : Json) : Read Code :=
  readRecord levels codeFields {} j

/-- A block before its data is interpreted. -/
structure BlockFields where
  id : Option String := none
  type : Option String := none
  data : Json := .null

/-- Any value that can be read. -/
def readValue (levels : Nat) (j : Json) : Read Json := require (j.value? levels)

def blockFields (levels : Nat) : List (RecordField BlockFault BlockFields) :=
  [field "id" readText fun x r => { r with id := some x },
   field "type" readText fun x r => { r with type := some x },
   field "data" (readValue levels) fun x r => { r with data := x }]

/-- The data of a block, read as a record. -/
def payload {α : Type} (levels : Nat) (id : String) (read : Nat → Json → Read α) (data : Json) :
    Read α :=
  let data := match data with
    | .null => .object []
    | j => j
  match read levels data with
  | .ok a => .ok a
  | .error _ => .error (.because (.malformedData id))

/-- What a block of a given type is. A type name without the built-in start names a sub-circuit. -/
def readKind (levels : Nat) (id type : String) (data : Json) : Read BlockKind :=
  if primitivePrefix.toList.isPrefixOf type.toList then
    match type with
    | "basic.input" => (payload levels id readTerminal data).map .input
    | "basic.output" => (payload levels id readTerminal data).map .output
    | "basic.constant" => (payload levels id readConstant data).map .constant
    | "basic.code" => (payload levels id readCode data).map .code
    | "basic.info" => .ok .info
    | _ => .error (.because (.unknownPrimitive id type))
  else .ok (.circuit type)

def readBlock (levels : Nat) (j : Json) : Read Block := do
  let r ← readRecord levels blockFields {} j
  let id ← require r.id
  let type ← require r.type
  return ⟨id, ← readKind levels id type r.data⟩

structure EndpointFields where
  block : Option String := none
  port : String := ""

def endpointFields (_ : Nat) : List (RecordField BlockFault EndpointFields) :=
  [field "block" readText fun x r => { r with block := some x },
   field "port" readText fun x r => { r with port := x }]

def readEndpoint (levels : Nat) (j : Json) : Read Endpoint := do
  let r ← readRecord levels endpointFields {} j
  return ⟨← require r.block, r.port⟩

structure WireFields where
  source : Option Endpoint := none
  target : Option Endpoint := none
  size : Option Nat := none

def wireFields (levels : Nat) : List (RecordField BlockFault WireFields) :=
  [field "source" (readEndpoint levels) fun x r => { r with source := some x },
   field "target" (readEndpoint levels) fun x r => { r with target := some x },
   field "size" (readOptional (readNat (Nat.pow 2 32))) fun x r => { r with size := x }]

def readWire (levels : Nat) (j : Json) : Read Wire := do
  let r ← readRecord levels wireFields {} j
  return ⟨← require r.source, ← require r.target, r.size⟩

def graphFields (levels : Nat) : List (RecordField BlockFault Graph) :=
  [field "blocks" (readList levels readBlock) fun x r => { r with blocks := x },
   field "wires" (readList levels readWire) fun x r => { r with wires := x }]

def readGraph (levels : Nat) (j : Json) : Read Graph :=
  readRecord levels graphFields {} j

def designFields (levels : Nat) : List (RecordField BlockFault Design) :=
  [field "board" (readOptional readText) fun x r => { r with board := x },
   field "graph" (readGraph levels) fun x r => { r with graph := x }]

def readDesign (levels : Nat) (j : Json) : Read Design :=
  readRecord levels designFields {} j

/-- The fields of a project, given how its library is read. -/
def projectFields (readLibrary : Json → Read (List (String × Project))) (levels : Nat) :
    List (RecordField BlockFault Project) :=
  [field "design" (readDesign levels) fun x r => { r with design := x },
   field "dependencies" readLibrary fun x r => { r with library := x }]

/-- A project takes up two levels: its own and that of its library. -/
def readProject : (levels : Nat) → Json → Read Project
  | 0, _ => .error .malformed
  | 1, j => readRecord 1 (projectFields fun _ => .error .malformed) default j
  | inner + 2, j =>
    readRecord (inner + 2)
      (projectFields (readMap (inner + 1) fun _ => readProject inner)) default j

end Format

/-- The design of a JSON text. -/
def Project.ofText (text : String) : Except (Json.Refusal BlockFault) Project :=
  Json.readDocument Format.readProject text

end Schematic
