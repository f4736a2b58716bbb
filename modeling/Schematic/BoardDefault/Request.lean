import Schematic.Netlist.Connections
import Schematic.Board.Rules

/-!
# What a design asks of its board

Ports of instances may ask for a board pin when nothing else drives them. A circuit block asks
for what the inputs of its own graph ask for; it is looked into one level deep. Independently of
that, output pins that no output block takes are idle.
-/

namespace Schematic

/-- A port that asks to be driven from a board pin. -/
structure Request where
  block : String
  port : String
  /-- Name of the source on the board. -/
  name : String
  pin : String
deriving DecidableEq, Inhabited

def Request.endpoint (r : Request) : Endpoint := ⟨r.block, r.port⟩

/-- The request of a port with a preset that applies. -/
def Preset.request? (block port : String) : Option Preset → Option Request
  | some preset => if preset.apply then some ⟨block, port, preset.port, preset.pin⟩ else none
  | none => none

/-- The requests of one block. -/
def Block.requests (b : Block) (s : Scope) : Except CompileFault (List Request) :=
  match b.kind with
  | .code c => .ok (c.inputs.filterMap fun p => Preset.request? b.id p.name p.preset)
  | .circuit type =>
    match s.get b.id type with
    | .error e => .error e
    | .ok p => .ok (p.graph.blocks.filterMap fun inner =>
        match inner.input? with
        | some t => Preset.request? b.id inner.id t.preset
        | none => none)
  | _ => .ok []

/-- The requests of some blocks, in order. -/
def Graph.requestsOf (s : Scope) : List Block → Except CompileFault (List Request)
  | [] => .ok []
  | b :: rest =>
    match b.requests s with
    | .error e => .error e
    | .ok found => (requestsOf s rest).map (found ++ ·)

/-- All requests of a graph. -/
def Graph.requests (g : Graph) (s : Scope) : Except CompileFault (List Request) :=
  Graph.requestsOf s g.blocks

/-- The pins taken by output blocks; a virtual output takes none. -/
def Graph.takenPins (g : Graph) : List String :=
  g.blocks.flatMap fun b =>
    match b.output? with
    | some t => if t.isVirtual then [] else t.pins.map Pin.value
    | none => []

/-- The output rules of pins that no output block takes. -/
def Graph.idlePins (g : Graph) (rules : BoardRules) : List OutputRule :=
  let taken := g.takenPins
  rules.outputs.filter fun rule => rule.pin ∉ taken

end Schematic
