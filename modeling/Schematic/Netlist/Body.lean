import Schematic.Netlist.Connections

/-!
# The module of a graph

The body of a graph's module has its statements in a fixed order: constants, declarations,
assignments at terminals, followers of a fan-out, instances.
-/

namespace Schematic.Graph

/-- Constants that are no parameters. -/
def localConstants (g : Graph) : List Statement :=
  g.blocks.filterMap fun b =>
    match b.kind with
    | .constant c => if c.isLocal then some (.constant (Identifier.ofId b.id) c.value) else none
    | _ => none

/-- Wires that carry a constant. -/
def feedDeclarations (g : Graph) : List Statement :=
  g.indexedWires.filterMap fun (w, i) =>
    if w.isFeed then some (.feed i (Identifier.ofId w.source.block)) else none

/-- Wires that carry a signal. -/
def wireDeclarations (g : Graph) : List Statement :=
  g.indexedWires.filterMap fun (w, i) => if w.isFeed then none else some (.wire i w.width)

/-- What the wire at position `i` means for one block: an input drives the root of its wires, an
output takes the value of each wire that ends at it. -/
def assignAt (w : Wire) (root i : Nat) (b : Block) : List Statement :=
  match b.kind with
  | .input _ =>
    if w.source.block = b.id ∧ root = i then
      [.assign (.wire i) (.name (Identifier.ofId b.id))]
    else []
  | .output _ =>
    if w.target.block = b.id then
      [.assign (.name (Identifier.ofId b.id)) (if w.isFeed then .feed i else .wire i)]
    else []
  | _ => []

/-- Assignments at the terminals, wire by wire. -/
def terminalAssigns (g : Graph) : List Statement :=
  (g.wires.zip g.roots).zipIdx.flatMap fun ((w, root), i) => g.blocks.flatMap (assignAt w root i)

/-- A wire that is not a root takes the value of its root. -/
def followerAssigns (g : Graph) : List Statement :=
  g.roots.zipIdx.filterMap fun (root, i) =>
    if root = i then none else some (.assign (.wire i) (.wire root))

/-- All statements but the instances. -/
def wiring (g : Graph) : List Statement :=
  g.localConstants ++ g.feedDeclarations ++ g.wireDeclarations ++ g.terminalAssigns ++
    g.followerAssigns

/-- The statements of the module `name`. -/
def statements (g : Graph) (name : String) (s : Scope) : Except CompileFault (List Statement) :=
  (g.instances name s).map fun list => g.wiring ++ list.map .use

/-- Constants that are parameters. -/
def parameters (g : Graph) : List Parameter :=
  g.blocks.filterMap fun b =>
    match b.kind with
    | .constant c => if c.isLocal then none else some ⟨Identifier.ofId b.id, some c.value⟩
    | _ => none

def inputPorts (g : Graph) : List Port :=
  g.blocks.filterMap fun b => b.input?.map fun t => ⟨Identifier.ofId b.id, t.range⟩

def outputPorts (g : Graph) : List Port :=
  g.blocks.filterMap fun b => b.output?.map fun t => ⟨Identifier.ofId b.id, t.range⟩

/-- The module of a graph. -/
def toModule (g : Graph) (name : String) (s : Scope) : Except CompileFault Module :=
  (g.statements name s).map fun list =>
    { name := name
      parameters := g.parameters
      inputs := g.inputPorts
      outputs := g.outputPorts
      body := .statements list }

/-- The modules of the code blocks of a graph whose module is `parent`. -/
def codeModules (g : Graph) (parent : String) : List Module :=
  g.blocks.filterMap fun b =>
    match b.kind with
    | .code c => some (Module.ofCode (Module.codeName parent b.id) c)
    | _ => none

end Schematic.Graph
