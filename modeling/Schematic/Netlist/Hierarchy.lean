import Schematic.Netlist.Body

/-!
# Flattening a project

The sub-circuits of a project become modules: depth first, in library order, each module before
those of its own library and its code blocks after them. A module whose name is taken already is
left out.
-/

namespace Schematic

/-- A fault together with the modules emitted before it. -/
structure FlattenFailure where
  fault : CompileFault
  emitted : List Module
deriving DecidableEq, Inhabited

namespace Hierarchy

/-- A module of that name has been emitted. -/
def isEmitted (ms : List Module) (name : String) : Bool := ms.any (·.name == name)

/-- Adds a module unless its name is taken. -/
def emit (ms : List Module) (m : Module) : List Module :=
  if isEmitted ms m.name then ms else ms ++ [m]

mutual

/-- Emits a sub-circuit and everything in it. `nesting` holds the types it is nested in, and `s`
is the scope of the graph that holds it. -/
def circuit (nesting : List String) (s : Scope) (type : String) :
    Project → List Module → Except FlattenFailure (List Module)
  | ⟨design, library⟩, ms =>
    let name := Identifier.ofId type
    if type ∈ nesting then .error ⟨.nestedInItself type, ms⟩
    else if isEmitted ms name then .ok ms
    else
      match design.graph.toModule name (library :: s) with
      | .error e => .error ⟨e, ms⟩
      | .ok m =>
        match circuits (type :: nesting) (library :: s) library (emit ms m) with
        | .error e => .error e
        | .ok emitted => .ok ((design.graph.codeModules name).foldl emit emitted)

/-- Emits the sub-circuits of a library in order. -/
def circuits (nesting : List String) (s : Scope) :
    List (String × Project) → List Module → Except FlattenFailure (List Module)
  | [], ms => .ok ms
  | (type, p) :: rest, ms =>
    match circuit nesting s type p ms with
    | .error e => .error e
    | .ok emitted => circuits nesting s rest emitted

end

end Hierarchy

/-- The modules of a project whose top module is given: that module, the sub-circuits, and the code
blocks of the top graph. -/
def Project.flatten (p : Project) (main : Module) : Except FlattenFailure (List Module) :=
  (Hierarchy.circuits [] (Scope.root p) p.library [main]).map fun emitted =>
    (p.graph.codeModules main.name).foldl Hierarchy.emit emitted

end Schematic
