import Schematic.Interface

/-!
# Summaries

What a design shows to the outside and what it would get from a board.
-/

namespace Schematic

/-- A request for a source that the board has on another pin. -/
structure PinMismatch where
  request : Request
  boardPin : String
deriving DecidableEq, Inhabited

/-- The pin the board has a source on, when it is another than the one asked for. The first rule
of a source counts. -/
def Request.mismatch? (r : Request) (inputs : List InputRule) : Option PinMismatch :=
  match inputs.find? (·.port == r.name) with
  | some rule => if rule.pin = r.pin then none else some ⟨r, rule.pin⟩
  | none => none

def PinMismatch.all (requests : List Request) (inputs : List InputRule) : List PinMismatch :=
  requests.filterMap (·.mismatch? inputs)

structure Summary where
  interface : Interface
  parameters : List TestParameter
  requests : List Request
  idlePins : List OutputRule
  mismatches : List PinMismatch
deriving DecidableEq, Inhabited

namespace Summary

def ofProject (p : Project) (rules : BoardRules) : Except CompileFault Summary :=
  (p.graph.requests (Scope.root p)).map fun requests =>
    { interface := p.graph.interface
      parameters := p.graph.testParameters
      requests := requests
      idlePins := p.graph.idlePins rules
      mismatches := PinMismatch.all requests rules.inputs }

def mismatchLog (m : PinMismatch) : Log.Record :=
  let r := m.request
  ⟨.warn, .summary, s!"{r.block}.{r.port} defaults '{r.name}' to pin {r.pin}, " ++
    s!"the board has it on {m.boardPin}"⟩

/-- What the making of a summary logs. -/
def log (p : Project) (rules : BoardRules) : List Log.Record :=
  match ofProject p rules with
  | .ok summary => summary.mismatches.map mismatchLog
  | .error _ => []

end Summary

end Schematic
