import Schematic.Netlist.FanOut
import Schematic.Netlist.Fault
import Schematic.Netlist.Module
import Schematic.Design.Project

/-!
# Instances of a graph

Code blocks and circuit blocks become instances. A port is connected to the first wire that
touches it. Constants reach an instance as parameters.
-/

namespace Schematic

/-- The project of a type; without one, the block that uses it is at fault. -/
def Scope.get (s : Scope) (block type : String) : Except CompileFault Project :=
  match s.find? type with
  | some p => .ok p
  | none => .error (.missingType block type)

/-- The ports of a block at which a wire carries its net: where it starts, and where a signal
ends. -/
def Wire.portsAt (w : Wire) (id : String) : List String :=
  (if w.source.block = id then [w.source.port] else []) ++
    (if w.target.block = id ∧ w.isFeed = false then [w.target.port] else [])

/-- Connects a port unless it has no name or is connected already. -/
def connect (i : Nat) (bound : List (String × Nat)) (port : String) : List (String × Nat) :=
  if port = "" ∨ port ∈ bound.map (·.1) then bound else bound ++ [(port, i)]

namespace Graph

/-- The connected ports of a block, each with the position of its wire. -/
def connections (g : Graph) (id : String) : List (String × Nat) :=
  g.indexedWires.foldl (fun bound wi => (wi.1.portsAt id).foldl (connect wi.2) bound) []

/-- The parameters of a block that are fed a constant, each with the position of its wire. -/
def feedsOf (g : Graph) (id : String) : List (String × Nat) :=
  (g.indexedWires.filter fun wi => wi.1.target.block == id && wi.1.isFeed).map fun wi =>
    (wi.1.target.port, wi.2)

/-- An instance of a module for a block, its port names spelled by `spell`. -/
def instanceFor (g : Graph) (id target : String) (spell : String → String) : Instance where
  target := target
  name := Identifier.ofId id
  parameters := (g.feedsOf id).map fun (port, i) => ⟨spell port, .feed i⟩
  ports := (g.connections id).map fun (port, i) => ⟨spell port, .wire i⟩

/-- The instance of a block inside the module `parent`. The ports of code blocks keep their
names; those of sub-circuits are ids. -/
def instance? (g : Graph) (parent : String) (s : Scope) (b : Block) :
    Except CompileFault (Option Instance) :=
  match b.kind with
  | .code _ => .ok (some (g.instanceFor b.id (Module.codeName parent b.id) id))
  | .circuit type =>
    match s.get b.id type with
    | .error e => .error e
    | .ok _ => .ok (some (g.instanceFor b.id (Identifier.ofId type) Identifier.ofId))
  | _ => .ok none

/-- The instances of some blocks, in order. -/
def instancesOf (g : Graph) (parent : String) (s : Scope) :
    List Block → Except CompileFault (List Instance)
  | [] => .ok []
  | b :: rest =>
    match g.instance? parent s b with
    | .error e => .error e
    | .ok none => instancesOf g parent s rest
    | .ok (some inst) => (instancesOf g parent s rest).map (inst :: ·)

/-- All instances of a graph. -/
def instances (g : Graph) (parent : String) (s : Scope) : Except CompileFault (List Instance) :=
  g.instancesOf parent s g.blocks

end Graph

end Schematic
