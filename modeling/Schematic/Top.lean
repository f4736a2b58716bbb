import Schematic.BoardDefault.Wiring
import Schematic.Netlist.Hierarchy

/-!
# The top circuit

What is compiled at the top of a project: its graph with board defaults wired, and the board
pins to be held at a level. All artifacts of a compilation are made from the same top circuit.
-/

namespace Schematic

structure Options where
  /-- Board defaults take part. -/
  boardRules : Bool := false
  /-- Requests to meet in place of those found in the graph. -/
  requests : Option (List Request) := none
  /-- Idle pins to hold in place of those found by the rules. -/
  idlePins : Option (List OutputRule) := none
deriving DecidableEq, Inhabited

namespace Graph

/-- The requests to meet at the top. -/
def topRequests (g : Graph) (o : Options) (s : Scope) : Except CompileFault (List Request) :=
  if o.boardRules then
    match o.requests with
    | some requests => .ok requests
    | none => g.requests s
  else .ok []

/-- The top graph with board defaults wired; nothing when there is no request at all. -/
def topWiring (g : Graph) (o : Options) (s : Scope) : Except CompileFault (Option Wiring) :=
  (g.topRequests o s).map fun requests =>
    if requests.isEmpty then none else some (Wiring.ofRequests g requests)

/-- The pins to hold at a level. -/
def topIdlePins (g : Graph) (o : Options) (rules : BoardRules) : List OutputRule :=
  if o.boardRules then
    match o.idlePins with
    | some pins => pins
    | none => g.idlePins rules
  else []

end Graph

/-- The circuit that is compiled. -/
structure Top where
  graph : Graph
  /-- What was done about requests. -/
  steps : List WiringStep
  idlePins : List OutputRule
deriving DecidableEq, Inhabited

namespace Top

def ofProject (p : Project) (o : Options) (rules : BoardRules) : Except CompileFault Top :=
  (p.graph.topWiring o (Scope.root p)).map fun wiring =>
    match wiring with
    | some w => ⟨w.graph, w.steps, w.graph.topIdlePins o rules⟩
    | none => ⟨p.graph, [], p.graph.topIdlePins o rules⟩

/-- The name of the top module. -/
def moduleName : String := "main"

/-- The output that holds idle pins, one bit for each. -/
def holdPort : String := "vinit"

/-- The range of a port with a number of bits. -/
def bitRange (n : Nat) : String := "[0:" ++ toString (n - 1) ++ "]"

/-- The module of the top graph. Idle pins add one output and the statement that holds it. -/
def toModule (t : Top) (s : Scope) : Except CompileFault Module :=
  (t.graph.statements moduleName s).map fun list =>
    let (outputs, held) :=
      if t.idlePins.isEmpty then ([], [])
      else ([⟨holdPort, some (bitRange t.idlePins.length)⟩],
        [Statement.hold holdPort (t.idlePins.map OutputRule.bit)])
    { name := moduleName
      parameters := t.graph.parameters
      inputs := t.graph.inputPorts
      outputs := t.graph.outputPorts ++ outputs
      body := .statements (list ++ held) }

def log (t : Top) : List Log.Record := t.steps.flatMap WiringStep.log

end Top

end Schematic
