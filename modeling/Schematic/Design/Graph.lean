import Schematic.Design.Block

/-!
# Circuit graphs

Blocks and the wires between their ports, in the order of the design.
-/

namespace Schematic

/-- A port of a block. -/
structure Endpoint where
  block : String
  port : String
deriving DecidableEq, Inhabited

structure Wire where
  source : Endpoint
  target : Endpoint
  /-- The number of bits, if it was given. -/
  size : Option Nat := none
deriving DecidableEq, Inhabited

structure Graph where
  blocks : List Block := []
  wires : List Wire := []
deriving DecidableEq, Inhabited

namespace Wire

/-- The port of a constant. -/
def feedPort : String := "constant-out"

/-- The wire feeds a constant to a parameter. Every other wire carries a signal. -/
def isFeed (w : Wire) : Bool := w.source.port == feedPort

/-- The width of a bus; a size of zero counts as not given. -/
def width (w : Wire) : Option Nat := w.size.filter (0 < ·)

end Wire

namespace Graph

/-- The first block with an id. -/
def block? (g : Graph) (id : String) : Option Block := g.blocks.find? (·.id == id)

/-- Some wire ends at the port. -/
def isDriven (g : Graph) (port : Endpoint) : Bool := g.wires.any (·.target == port)

def isEmpty (g : Graph) : Bool := g.blocks.isEmpty && g.wires.isEmpty

/-- The graph with one more block. -/
def addBlock (g : Graph) (b : Block) : Graph := { g with blocks := g.blocks ++ [b] }

/-- The graph with one more wire. -/
def addWire (g : Graph) (w : Wire) : Graph := { g with wires := g.wires ++ [w] }

@[simp] theorem blocks_addBlock (g : Graph) (b : Block) :
    (g.addBlock b).blocks = g.blocks ++ [b] := rfl

@[simp] theorem wires_addBlock (g : Graph) (b : Block) : (g.addBlock b).wires = g.wires := rfl

@[simp] theorem blocks_addWire (g : Graph) (w : Wire) : (g.addWire w).blocks = g.blocks := rfl

@[simp] theorem wires_addWire (g : Graph) (w : Wire) :
    (g.addWire w).wires = g.wires ++ [w] := rfl

theorem isDriven_iff (g : Graph) (port : Endpoint) :
    g.isDriven port = true ↔ ∃ w ∈ g.wires, w.target = port := by
  simp [isDriven]

/-- The wires with their positions. -/
def indexedWires (g : Graph) : List (Wire × Nat) := g.wires.zipIdx

end Graph

end Schematic
