import Schematic.Proofs.Artifact.HeldPins
import Schematic.Proofs.Artifact.Prepared
import Schematic.Proofs.BoardDefault.Extension

/-!
# Lines that board rules add to the constraints

Without board rules the constraints place the terminals of the design. With them the same lines come
first. After them there is a line for each input that was added for a request, and one for each pin
that is held. A request adds an input only when the design and the requests before it left its pin
without one, so the first group has as many lines as there are such pins.
-/

namespace Schematic

section Lines

/-- The line that places the input of a binding on its pin. -/
def DefaultBinding.line (b : DefaultBinding) : String :=
  "set_io " ++ Identifier.ofId b.source ++ " " ++ b.pin ++ "\n"

theorem flatMap_constraints_inputs (bs : List DefaultBinding) :
    (bs.map DefaultBinding.input).flatMap Block.constraints =
      bs.map fun b => ⟨Identifier.ofId b.source, none, b.pin⟩ := by
  rw [List.flatMap_map, List.map_eq_flatMap]
  refine List.flatMap_congr fun b _ => ?_
  exact Block.constraints_of_suppliesPin ((b.suppliesPin_input b.pin).mpr rfl)

/-- Added inputs have a line each. -/
theorem concat_constraints_inputs (bs : List DefaultBinding) :
    Constraint.concat ((bs.map DefaultBinding.input).flatMap Block.constraints) =
      String.join (bs.map DefaultBinding.line) := by
  rw [flatMap_constraints_inputs, Constraint.concat, List.map_map]
  rfl

end Lines

/-- As many inputs are added as there are pins that no input of the graph is on, among those of the
first requests for ports without a driver. -/
theorem Wiring.length_added (g : Graph) (rs : List Request) : (ofRequests g rs).added.length =
    (((g.firstRequests rs).map Request.pin).toFinset.filter
      fun pin => g.suppliers pin = []).card := by
  have hextends := extends_ofRequests g rs
  have hpins : (ofRequests g rs).bindings.map DefaultBinding.pin =
      (g.firstRequests rs).map Request.pin := by
    rw [← hextends.requests, List.map_map]
    rfl
  have hlength := hextends.length_blocks
  rw [hextends.blocks, hpins, List.length_append, List.length_map] at hlength
  exact Nat.add_left_cancel hlength

namespace Top

variable {p : Project} {o : Options} {rules : BoardRules} {top : Top}

/-- The top circuit after its requests, which are those of the options or those that were found. -/
theorem exists_ofRequests (h : ofProject p o rules = .ok top) :
    ∃ rs, p.graph.topRequests o (Scope.root p) = .ok rs ∧
      top.graph = (Wiring.ofRequests p.graph rs).graph ∧
      top.idlePins = p.graph.topIdlePins o rules := by
  obtain ⟨rs, hrs, hgraph⟩ := exists_requests h
  refine ⟨rs, hrs, hgraph.trans (Wiring.graph_ofRequests p.graph rs).symm, ?_⟩
  have hidle := (Wiring.grows_foldl_step p.graph rs).idlePins_eq rules
  rw [idlePins_eq h, hgraph, Graph.topIdlePins, Graph.topIdlePins, hidle]

end Top

namespace Project

/-- Without board rules there are constraints for every project: those of its terminals. -/
theorem constraints_of_boardRules_eq_false (p : Project) {o : Options} (h : o.boardRules = false)
    (rules : BoardRules) : p.constraints o rules =
      .ok (Constraint.concat (p.graph.blocks.flatMap Block.constraints)) := by
  have hrequests : p.graph.topRequests o (Scope.root p) = .ok [] := by
    simp [Graph.topRequests, h]
  have hidle : p.graph.topIdlePins o rules = [] := by
    simp [Graph.topIdlePins, h]
  rw [constraints, Top.ofProject_eq, hrequests]
  simp [Except.map, Top.constraints, Top.holdConstraints, hidle]

/-- Board rules only append to the constraints: after the lines that the project has without them
comes one for each added input, in the order of the requests, and one for each pin to hold, in the
order of the rules. An input is added for each pin that is asked for and that no input is on. -/
theorem board_rules_append_lines {p : Project} {o : Options} {rules : BoardRules} {text : String}
    (hrules : o.boardRules = true) (h : p.constraints o rules = .ok text) :
    ∃ plain rs, (∀ (off : Options) (others : BoardRules), off.boardRules = false →
        p.constraints off others = .ok plain) ∧
      p.graph.topRequests o (Scope.root p) = .ok rs ∧
      text = plain ++
        String.join ((Wiring.ofRequests p.graph rs).added.map DefaultBinding.line) ++
        String.join (holdLines (o.idlePins.getD (p.graph.idlePins rules))) ∧
      (o.requests = none → p.graph.requests (Scope.root p) = .ok rs) ∧
      (Wiring.ofRequests p.graph rs).added.length =
        (((p.graph.firstRequests rs).map Request.pin).toFinset.filter
          fun pin => p.graph.suppliers pin = []).card := by
  obtain ⟨top, htop, rfl⟩ := map_eq_ok_iff.mp h
  obtain ⟨rs, hrs, hgraph, hidle⟩ := Top.exists_ofRequests htop
  have hpins : top.idlePins = o.idlePins.getD (p.graph.idlePins rules) := by
    rw [hidle, Graph.topIdlePins, hrules]
    cases o.idlePins <;> rfl
  refine ⟨Constraint.concat (p.graph.blocks.flatMap Block.constraints), rs, ?_, hrs, ?_, ?_,
    Wiring.length_added p.graph rs⟩
  · intro off others hoff
    exact p.constraints_of_boardRules_eq_false hoff others
  · rw [Top.constraints, Constraint.concat_append, Top.concat_holdConstraints, hpins, hgraph,
      (Wiring.extends_ofRequests p.graph rs).blocks, List.flatMap_append, Constraint.concat_append,
      concat_constraints_inputs]
  · intro hnone
    rw [← hrs, Graph.topRequests, hrules, hnone]
    rfl

/-- A block with ports that ask for pins: two for one that has no input, one for another, one for
the pin of an input, and one port that is wired. -/
def severalPorts : Project where
  design := { graph := {
    blocks := [⟨"osc", .input (.onPin "osc" "5")⟩, ⟨"led", .output (.onPin "led" "95")⟩,
      ⟨"c", .code { inputs := [⟨"a", none, some ⟨"clk", "21", true⟩⟩,
        ⟨"b", none, some ⟨"clk", "21", true⟩⟩, ⟨"d", none, some ⟨"osc", "5", true⟩⟩,
        ⟨"r", none, some ⟨"rst", "34", true⟩⟩, ⟨"e", none, some ⟨"aux", "40", true⟩⟩] }⟩]
    wires := [{ source := ⟨"osc", "out"⟩, target := ⟨"c", "e"⟩ }] } }
  library := []

theorem board_rules_append_lines_severalPorts : ∃ text plain rs,
    severalPorts.constraints { boardRules := true } threePins = .ok text ∧
    severalPorts.constraints {} threePins = .ok plain ∧
    severalPorts.graph.requests (Scope.root severalPorts) = .ok rs ∧ rs.length = 5 ∧
    text = plain ++
      String.join ((Wiring.ofRequests severalPorts.graph rs).added.map DefaultBinding.line) ++
      ("set_io vinit[0] 96\n" ++ "set_io vinit[1] 97\n") ∧
    (Wiring.ofRequests severalPorts.graph rs).added.map DefaultBinding.line =
      ["set_io vclk 21\n", "set_io vrst 34\n"] := by
  obtain ⟨text, htext⟩ : ∃ text,
      severalPorts.constraints { boardRules := true } threePins = .ok text := ⟨_, rfl⟩
  obtain ⟨plain, rs, hplain, _, hlines, hrequests, _⟩ := board_rules_append_lines rfl htext
  have hfound : severalPorts.graph.requests (Scope.root severalPorts) =
      .ok [⟨"c", "a", "clk", "21"⟩, ⟨"c", "b", "clk", "21"⟩, ⟨"c", "d", "osc", "5"⟩,
        ⟨"c", "r", "rst", "34"⟩, ⟨"c", "e", "aux", "40"⟩] := rfl
  obtain rfl := Except.ok.inj ((hrequests rfl).symm.trans hfound)
  have hheld : String.join (holdLines (severalPorts.graph.idlePins threePins)) =
      "set_io vinit[0] 96\n" ++ "set_io vinit[1] 97\n" := by decide +kernel
  refine ⟨text, plain, _, htext, hplain {} threePins rfl, hfound, rfl, ?_, by decide +kernel⟩
  rw [← hheld]
  exact hlines

end Project

end Schematic
