import Schematic.Top

/-!
# The interface of the top module

Ports and parameters as a testbench sees them. A port has the name its block shows; blocks without a
name are numbered for each direction. Parameters have names that begin with `constant_`.
-/

namespace Schematic

/-- A port of the top module and the testbench signal on it. -/
structure Signal where
  id : String
  name : String
  range : Option String
deriving DecidableEq, Inhabited

structure Interface where
  inputs : List Signal := []
  outputs : List Signal := []
deriving DecidableEq, Inhabited

/-- A parameter of the top module and the testbench constant for it. -/
structure TestParameter where
  id : String
  name : String
  value : String
deriving DecidableEq, Inhabited

/-- The inputs, then the outputs. -/
def Interface.signals (i : Interface) : List Signal := i.inputs ++ i.outputs

/-- A name with underscores for spaces. -/
def shownName (name : Option String) : Option String :=
  (name.filter (· ≠ "")).map fun s =>
    String.ofList (s.toList.map fun c => if c = ' ' then '_' else c)

/-- The signals of terminals, numbered from `n` on. -/
def signalsFrom (fallback : String) (n : Nat) : List (String × Terminal) → List Signal
  | [] => []
  | (id, t) :: rest =>
    ⟨Identifier.ofId id, (shownName t.name).getD (fallback ++ "_" ++ toString n), t.range⟩ ::
      signalsFrom fallback (n + 1) rest

/-- The test parameters of constants, numbered from `n` on. -/
def testParametersFrom (n : Nat) : List (String × Constant) → List TestParameter
  | [] => []
  | (id, c) :: rest =>
    ⟨Identifier.ofId id, "constant_" ++ (shownName c.name).getD (toString n), c.value⟩ ::
      testParametersFrom (n + 1) rest

namespace Graph

def inputTerminals (g : Graph) : List (String × Terminal) :=
  g.blocks.filterMap fun b => b.input?.map fun t => (b.id, t)

def outputTerminals (g : Graph) : List (String × Terminal) :=
  g.blocks.filterMap fun b => b.output?.map fun t => (b.id, t)

/-- Constants that are parameters. -/
def sharedConstants (g : Graph) : List (String × Constant) :=
  g.blocks.filterMap fun b =>
    match b.kind with
    | .constant c => if c.isLocal then none else some (b.id, c)
    | _ => none

/-- The terminals of a graph as signals. -/
def interface (g : Graph) : Interface where
  inputs := signalsFrom "input" 0 g.inputTerminals
  outputs := signalsFrom "output" 0 g.outputTerminals

def testParameters (g : Graph) : List TestParameter := testParametersFrom 0 g.sharedConstants

end Graph

/-- The signals of the top module. The output that holds idle pins comes last. -/
def Top.interface (t : Top) : Interface :=
  let i := t.graph.interface
  if t.idlePins.isEmpty then i
  else { i with
    outputs := i.outputs ++ [⟨holdPort, holdPort, some (bitRange t.idlePins.length)⟩] }

end Schematic
