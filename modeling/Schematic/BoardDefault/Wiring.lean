import Schematic.BoardDefault.Request
import Schematic.Log
import Schematic.Text.Quoted

/-!
# Wiring board defaults

Each request whose port is not driven gets a wire from an input on the pin it asks for. An input
that is there already is used; otherwise one is added, named after the source. Requests are met
one after another on the growing graph, so an input added for one serves the next.
-/

namespace Schematic

/-- A plain one-bit input on a board pin. -/
def Block.suppliesPin (b : Block) (pin : String) : Bool :=
  match b.input? with
  | some t => t.range.isNone && !t.isVirtual && t.solePin == some pin
  | none => false

namespace Graph

/-- The blocks a pin can be taken from; the first one is used. -/
def suppliers (g : Graph) (pin : String) : List Block := g.blocks.filter (·.suppliesPin pin)

/-- The id `name` itself, then `name_1`, `name_2` and so on. -/
def candidateId (name : String) : Nat → String
  | 0 => name
  | n + 1 => name ++ "_" ++ toString (n + 1)

/-- The first candidate from number `n` on that is not an id of the graph, looking no further than
`fuel` candidates ahead. -/
def freeIdFrom (g : Graph) (name : String) (n : Nat) : (fuel : Nat) → String
  | 0 => candidateId name n
  | fuel + 1 =>
    if (g.block? (candidateId name n)).isSome then freeIdFrom g name (n + 1) fuel
    else candidateId name n

/-- An id for a new block. One of the first candidates is free, since there are more of them than
blocks. -/
def freeId (g : Graph) (name : String) : String := g.freeIdFrom name 0 g.blocks.length

end Graph

/-- What was done about one request. -/
inductive WiringStep where
  /-- The port is driven already. -/
  | kept (request : Request)
  /-- The first of the inputs on the pin is used; the ids of the others are listed. -/
  | reused (request : Request) (source : String) (others : List String)
  | added (request : Request) (source : String)
deriving DecidableEq, Inhabited

/-- A request that was met by a new wire. -/
structure DefaultBinding where
  request : Request
  source : String
  added : Bool
deriving DecidableEq, Inhabited

def WiringStep.binding? : WiringStep → Option DefaultBinding
  | .kept _ => none
  | .reused request source _ => some ⟨request, source, false⟩
  | .added request source => some ⟨request, source, true⟩

/-- A graph on which requests have been met. -/
structure Wiring where
  graph : Graph
  steps : List WiringStep
deriving DecidableEq, Inhabited

/-- The port at which an input block drives its wires. -/
def Terminal.outPort : String := "out"

/-- The wire that meets a request from a source. -/
def Request.wire (r : Request) (source : String) : Wire :=
  { source := ⟨source, Terminal.outPort⟩, target := r.endpoint }

namespace Wiring

/-- What is to be done about a request. -/
def plan (g : Graph) (r : Request) : WiringStep :=
  if g.isDriven r.endpoint then .kept r
  else
    match g.suppliers r.pin with
    | first :: others => .reused r first.id (others.map Block.id)
    | [] => .added r (g.freeId r.name)

/-- The graph after a step. -/
def perform (g : Graph) : WiringStep → Graph
  | .kept _ => g
  | .reused r source _ => g.addWire (r.wire source)
  | .added r source => (g.addBlock ⟨source, .input (.onPin r.name r.pin)⟩).addWire (r.wire source)

/-- Meets one more request. -/
def meet (w : Wiring) (r : Request) : Wiring :=
  let step := plan w.graph r
  ⟨perform w.graph step, w.steps ++ [step]⟩

/-- Meets requests in order. -/
def ofRequests (g : Graph) (requests : List Request) : Wiring :=
  requests.foldl meet ⟨g, []⟩

def bindings (w : Wiring) : List DefaultBinding := w.steps.filterMap WiringStep.binding?

end Wiring

/-- Tells that a pin could have been taken from several inputs. -/
def Log.severalSuppliers (pin source : String) (others : List String) : List Log.Record :=
  if others.isEmpty then []
  else [⟨.warn, .boardDefaults,
    s!"pin {pin} is claimed by several inputs; using '{source}', ignoring " ++
      Text.quotedList others⟩]

def WiringStep.log : WiringStep → List Log.Record
  | .kept r => [⟨.debug, .boardDefaults, s!"{r.block}.{r.port} is already connected"⟩]
  | .reused r source others =>
    Log.severalSuppliers r.pin source others ++
      [⟨.debug, .boardDefaults, s!"{r.block}.{r.port} <- '{source}' on pin {r.pin} (reused)"⟩]
  | .added r source =>
    [⟨.debug, .boardDefaults, s!"{r.block}.{r.port} <- '{source}' on pin {r.pin} (added)"⟩]

def Wiring.log (w : Wiring) : List Log.Record := w.steps.flatMap WiringStep.log

end Schematic
