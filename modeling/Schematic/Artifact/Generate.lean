import Schematic.Artifact.Target
import Schematic.Artifact.Constraints
import Schematic.Artifact.Testbench

/-!
# Generating artifacts

Every artifact is a function of the project, the options and the rules of the board. What a
compilation logs is a function of the same.
-/

namespace Schematic

namespace Project

/-- All modules of a compilation. -/
def modules (p : Project) (o : Options) (rules : BoardRules) :
    Except FlattenFailure (List Module) :=
  match Top.ofProject p o rules with
  | .error e => .error ⟨e, []⟩
  | .ok top =>
    match top.toModule (Scope.root p) with
    | .error e => .error ⟨e, []⟩
    | .ok main => p.flatten main

def verilog (p : Project) (o : Options) (rules : BoardRules) : Except CompileFault String :=
  match p.modules o rules with
  | .ok ms => .ok (Module.concat ms)
  | .error failure => .error failure.fault

def constraints (p : Project) (o : Options) (rules : BoardRules) : Except CompileFault String :=
  (Top.ofProject p o rules).map fun top => Constraint.concat top.constraints

def testbench (p : Project) (o : Options) (rules : BoardRules) : Except CompileFault String :=
  (Top.ofProject p o rules).map fun top => (top.testbench p).text

def waves (p : Project) (o : Options) (rules : BoardRules) : Except CompileFault String :=
  (Top.ofProject p o rules).map fun top => (top.testbench p).waves

end Project

namespace Target

/-- The content of an artifact, without its banner. -/
def content (t : Target) (p : Project) (o : Options) (rules : BoardRules) :
    Except CompileFault String :=
  match t with
  | .verilog => p.verilog o rules
  | .constraints => p.constraints o rules
  | .testbench => p.testbench o rules
  | .waves => p.waves o rules

/-- The line that stands between the banner and the content. -/
def preamble : Target → String
  | .verilog => "`default_nettype none\n"
  | _ => ""

/-- An artifact. -/
def generate (t : Target) (p : Project) (o : Options) (rules : BoardRules) (b : Banner) :
    Except CompileFault String :=
  (t.content p o rules).map fun content => b.text t.comment ++ t.preamble ++ content

end Target

namespace Project

/-- The modules a compilation gets to emit, to its end or to its first fault. -/
def emitted (p : Project) (o : Options) (rules : BoardRules) : List Module :=
  match p.modules o rules with
  | .ok ms => ms
  | .error failure => failure.emitted

/-- What the wiring of the top circuit logs. -/
def topLog (p : Project) (o : Options) (rules : BoardRules) : List Log.Record :=
  match Top.ofProject p o rules with
  | .ok top => top.log
  | .error _ => []

/-- What is logged about idle pins, once the top module has been made. -/
def idleLog (p : Project) (o : Options) (rules : BoardRules) : List Log.Record :=
  match Top.ofProject p o rules with
  | .ok top =>
    if (p.emitted o rules).isEmpty then []
    else top.idlePins.map fun rule =>
      ⟨.debug, .netlist, s!"driving unused board pin {rule.pin} to {rule.bit}"⟩
  | .error _ => []

end Project

/-- What the generation of an artifact logs. -/
def Target.log (t : Target) (p : Project) (o : Options) (rules : BoardRules) : List Log.Record :=
  match t with
  | .verilog =>
    (if p.graph.isEmpty then [⟨.warn, .netlist, "compiling an empty design"⟩] else []) ++
      p.topLog o rules ++ p.idleLog o rules ++
      (p.emitted o rules).map fun m => ⟨.debug, .netlist, s!"rendering module {m.name}"⟩
  | _ => p.topLog o rules

/-- Artifacts in the order they were asked for, up to the first fault. -/
structure Delivery where
  artifacts : List (Target × String)
  fault : Option CompileFault
deriving DecidableEq, Inhabited

/-- Generates artifacts one after another. -/
def Project.deliver (p : Project) (o : Options) (rules : BoardRules) (b : Banner) :
    List Target → Delivery
  | [] => ⟨[], none⟩
  | t :: rest =>
    match t.generate p o rules b with
    | .error fault => ⟨[], some fault⟩
    | .ok text =>
      let later := p.deliver o rules b rest
      ⟨(t, text) :: later.artifacts, later.fault⟩

/-- The contents of all four artifacts. -/
structure Bundle where
  verilog : String
  constraints : String
  testbench : String
  waves : String
deriving DecidableEq, Inhabited

/-- Generates all artifacts; the first fault decides. -/
def Project.bundle (p : Project) (o : Options) (rules : BoardRules) : Except CompileFault Bundle :=
  do return ⟨← p.verilog o rules, ← p.constraints o rules, ← p.testbench o rules, ← p.waves o rules⟩

/-- What the generation of all artifacts logs. A project that has no Verilog text ends it. -/
def Project.bundleLog (p : Project) (o : Options) (rules : BoardRules) : List Log.Record :=
  match p.verilog o rules with
  | .ok _ => Target.all.flatMap (·.log p o rules)
  | .error _ => Target.verilog.log p o rules

end Schematic
