import Schematic.Design.Graph

/-!
# Projects

A project is a circuit together with the library of sub-circuits it may use; each of these is a
project with a library of its own. A type name is looked up in the libraries from the innermost
outwards.
-/

namespace Schematic

structure Design where
  /-- The board the design was drawn for. -/
  board : Option String := none
  graph : Graph := {}
deriving DecidableEq, Inhabited

structure Project where
  design : Design
  /-- Sub-circuits by type name, in the order of the design. -/
  library : List (String × Project)

namespace Project

instance : Inhabited Project := ⟨⟨{}, []⟩⟩

def graph (p : Project) : Graph := p.design.graph

/-- The project with another top graph. -/
def withGraph (p : Project) (g : Graph) : Project :=
  { p with design := { p.design with graph := g } }

@[simp] theorem graph_withGraph (p : Project) (g : Graph) : (p.withGraph g).graph = g := rfl

end Project

/-- The libraries that are visible at some depth, the innermost first. -/
abbrev Scope := List (List (String × Project))

namespace Scope

/-- The scope of a project's top graph. -/
def root (p : Project) : Scope := [p.library]

@[simp] theorem root_withGraph (p : Project) (g : Graph) : root (p.withGraph g) = root p := rfl

/-- The scope inside a project of a scope. -/
def enter (s : Scope) (p : Project) : Scope := p.library :: s

/-- The project of a type. -/
def find? (s : Scope) (type : String) : Option Project :=
  s.findSome? fun library => library.lookup type

end Scope

end Schematic
