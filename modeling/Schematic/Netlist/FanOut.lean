import Schematic.Design.Graph

/-!
# Fan-out

Several wires may leave one port. The first of them is the root of all; the others follow it.
-/

namespace Schematic.Graph

/-- The roots of wires from position `i` on, given the first signal wire of each source seen
before. -/
def rootsFrom (firsts : List (Endpoint × Nat)) (i : Nat) : List Wire → List Nat
  | [] => []
  | w :: rest =>
    if w.isFeed then i :: rootsFrom firsts (i + 1) rest
    else
      match firsts.lookup w.source with
      | some root => root :: rootsFrom firsts (i + 1) rest
      | none => i :: rootsFrom ((w.source, i) :: firsts) (i + 1) rest

/-- For each wire the position of its root. A wire that feeds a constant is its own root. -/
def roots (g : Graph) : List Nat := rootsFrom [] 0 g.wires

theorem length_rootsFrom (firsts : List (Endpoint × Nat)) (i : Nat) (ws : List Wire) :
    (rootsFrom firsts i ws).length = ws.length := by
  induction ws generalizing firsts i with
  | nil => rfl
  | cons w rest ih =>
    unfold rootsFrom
    split
    · simp [ih]
    · split <;> simp [ih]

@[simp] theorem length_roots (g : Graph) : g.roots.length = g.wires.length :=
  length_rootsFrom [] 0 g.wires

end Schematic.Graph
