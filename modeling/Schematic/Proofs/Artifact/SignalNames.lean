import Schematic.Proofs.Artifact.Prepared
import Schematic.Proofs.BoardDefault.Extension

/-!
# Names of testbench signals

The testbench declares a signal for each terminal of the top circuit, named after what the block
shows. Wiring board defaults gives every added input an id of its own; what it shows is the name of
the request it was added for, and the output that holds idle pins has a fixed name. The signals of
the design keep their names, and the names of the added ones may be among them.
-/

namespace Schematic

section Numbering

theorem signalsFrom_append (fallback : String) (n : Nat) (list more : List (String × Terminal)) :
    signalsFrom fallback n (list ++ more) =
      signalsFrom fallback n list ++ signalsFrom fallback (n + list.length) more := by
  induction list generalizing n with
  | nil => rfl
  | cons x rest ih =>
      rw [List.cons_append, signalsFrom, signalsFrom, ih, List.cons_append, List.length_cons,
        Nat.add_assoc, Nat.add_comm 1]

/-- The name of the signal of an input that was added for a request: the name in the request, or the
number of the input when there is none. -/
def Request.signalName (r : Request) (n : Nat) : String :=
  (shownName (some r.name)).getD ("input_" ++ toString n)

/-- The id and the terminal of the input that was added for a binding. -/
def DefaultBinding.terminal (b : DefaultBinding) : String × Terminal :=
  (b.source, .onPin b.request.name b.request.pin)

theorem map_name_signalsFrom_terminal (n : Nat) (added : List DefaultBinding) :
    (signalsFrom "input" n (added.map DefaultBinding.terminal)).map Signal.name =
      (added.zipIdx n).map fun x => x.1.request.signalName x.2 := by
  induction added generalizing n with
  | nil => rfl
  | cons x rest ih =>
      rw [List.map_cons, signalsFrom, List.map_cons, ih, List.zipIdx_cons, List.map_cons]
      rfl

end Numbering

namespace Top

variable {p : Project} {o : Options} {rules : BoardRules} {top : Top}

/-- The bindings for which an input was added to the top circuit, in order. -/
def added (t : Top) : List DefaultBinding := Wiring.added ⟨t.graph, t.steps⟩

theorem blocks_eq (h : ofProject p o rules = .ok top) :
    top.graph.blocks = p.graph.blocks ++ top.added.map DefaultBinding.input := by
  rw [ofProject_eq] at h
  obtain ⟨rs, _, rfl⟩ := map_eq_ok_iff.mp h
  have hblocks := (Wiring.extends_ofRequests p.graph rs).blocks
  rw [Wiring.graph_ofRequests] at hblocks
  exact hblocks

theorem inputTerminals_eq (h : ofProject p o rules = .ok top) : top.graph.inputTerminals =
    p.graph.inputTerminals ++ top.added.map DefaultBinding.terminal := by
  rw [Graph.inputTerminals, blocks_eq h, List.filterMap_append, List.filterMap_map]
  apply congrArg (p.graph.inputTerminals ++ ·)
  exact congrFun List.filterMap_eq_map' top.added

/-- Board defaults add no outputs to the graph. -/
theorem outputTerminals_eq (h : ofProject p o rules = .ok top) :
    top.graph.outputTerminals = p.graph.outputTerminals := by
  apply filterMap_blocks h
  intro b t hkind
  simp [Block.output?, hkind]

/-- The names of signals that are not those of the design: one for each added input, which are
numbered after the inputs of the design, and that of the output that holds idle pins. -/
def newNames (t : Top) (g : Graph) : List String :=
  (t.added.zipIdx g.inputTerminals.length).map (fun x => x.1.request.signalName x.2) ++
    if t.idlePins.isEmpty then [] else [holdPort]

theorem map_name_inputs (h : ofProject p o rules = .ok top) :
    top.interface.inputs.map Signal.name = p.graph.interface.inputs.map Signal.name ++
      (top.added.zipIdx p.graph.inputTerminals.length).map fun x => x.1.request.signalName x.2 := by
  have hinputs : top.interface.inputs = signalsFrom "input" 0 top.graph.inputTerminals := by
    unfold interface
    split <;> rfl
  rw [hinputs, inputTerminals_eq h, signalsFrom_append, List.map_append, Nat.zero_add,
    map_name_signalsFrom_terminal]
  rfl

theorem map_name_outputs (h : ofProject p o rules = .ok top) :
    top.interface.outputs.map Signal.name = p.graph.interface.outputs.map Signal.name ++
      if top.idlePins.isEmpty then [] else [holdPort] := by
  have houtputs : top.graph.interface.outputs = p.graph.interface.outputs :=
    congrArg (signalsFrom "output" 0) (outputTerminals_eq h)
  rw [← houtputs]
  unfold interface
  split
  · simp
  · simp

/-- The signals of the design keep their names, and the new ones are added to them. -/
theorem map_name_signals_perm (h : ofProject p o rules = .ok top) :
    (top.interface.signals.map Signal.name).Perm
      (p.graph.interface.signals.map Signal.name ++ top.newNames p.graph) := by
  rw [Interface.signals, Interface.signals, List.map_append, List.map_append, map_name_inputs h,
    map_name_outputs h, newNames, List.append_assoc, List.append_assoc]
  apply List.Perm.append_left
  rw [← List.append_assoc, ← List.append_assoc]
  exact List.perm_append_comm.append_right _

end Top

namespace Testbench

/-- The names that a testbench declares, as registers and as wires. -/
def declaredNames (t : Testbench) : List String := t.interface.signals.map Signal.name

/-- The declarations stand together in the body. -/
theorem exists_declarations_eq (t : Testbench) :
    ∃ before after, t.body = before ++ String.join t.declarations ++ after := by
  obtain ⟨start, rest, hbody⟩ := t.exists_body_eq
  rw [hbody, benchBody, ← declarations_eq, String.append_assoc, String.append_assoc,
    String.append_assoc]
  exact ⟨_, _, rfl⟩

end Testbench

namespace Project

/-- Wiring board defaults keeps the names of the design and adds new ones: those in the requests
that an input is added for, and that of the output that holds idle pins. Where the names of the
design are pairwise different, the testbench declares no name twice exactly when the new ones differ
from each other and from those of the design. -/
theorem declared_names_nodup_iff {p : Project} {o : Options} {rules : BoardRules}
    {top : Top} (htop : Top.ofProject p o rules = .ok top)
    (hdesign : (p.graph.interface.signals.map Signal.name).Nodup) :
    p.testbench o rules = .ok (top.testbench p).text ∧
      (∃ before after, (top.testbench p).body =
        before ++ String.join (top.testbench p).declarations ++ after) ∧
      (top.testbench p).declaredNames.Perm
        (p.graph.interface.signals.map Signal.name ++ top.newNames p.graph) ∧
      ((top.testbench p).declaredNames.Nodup ↔ (top.newNames p.graph).Nodup ∧
        ∀ name ∈ top.newNames p.graph, name ∉ p.graph.interface.signals.map Signal.name) := by
  have hperm : (top.testbench p).declaredNames.Perm
      (p.graph.interface.signals.map Signal.name ++ top.newNames p.graph) :=
    Top.map_name_signals_perm htop
  refine ⟨testbench_eq htop, Testbench.exists_declarations_eq _, hperm, ?_⟩
  · rw [hperm.nodup_iff, List.nodup_append]
    constructor
    · rintro ⟨_, hnew, hapart⟩
      exact ⟨hnew, fun name hname hmem => hapart name hmem name hname rfl⟩
    · rintro ⟨hnew, hapart⟩
      refine ⟨hdesign, hnew, fun name hname new hmem heq => ?_⟩
      exact hapart new hmem (heq ▸ hname)

theorem declared_names_nodup_iff_clocked : ∃ top,
    Top.ofProject clocked { boardRules := true } threePins = .ok top ∧
    (clocked.graph.interface.signals.map Signal.name).Nodup ∧
    top.newNames clocked.graph = ["clk", "vinit"] ∧
    (top.testbench clocked).declaredNames.Nodup := by
  have hdesign : (clocked.graph.interface.signals.map Signal.name).Nodup := by decide
  obtain ⟨top, htop, hnew⟩ : ∃ top,
      Top.ofProject clocked { boardRules := true } threePins = .ok top ∧
        top.newNames clocked.graph = ["clk", "vinit"] := ⟨_, rfl, rfl⟩
  obtain ⟨_, _, _, hiff⟩ := declared_names_nodup_iff htop hdesign
  refine ⟨top, htop, hdesign, hnew, hiff.mpr ?_⟩
  rw [hnew]
  decide

/-- A design with an input for a clock of its own and a block that asks for that of the board. -/
def twoClocks : Project where
  design := { graph := {
    blocks := [⟨"clk", .input (.onPin "clk" "5")⟩,
      ⟨"c", .code { inputs := [⟨"clk", none, some ⟨"clk", "21", true⟩⟩] }⟩]
    wires := [] } }
  library := []

/-- The added input has a port of its own, but its signal is named like that of the design. -/
theorem declared_twice_twoClocks : ∃ top,
    Top.ofProject twoClocks { boardRules := true } {} = .ok top ∧
    (twoClocks.graph.interface.signals.map Signal.name).Nodup ∧
    (top.interface.signals.map Signal.id).Nodup ∧
    (top.testbench twoClocks).declarations = ["reg clk;\n", "reg clk;\n"] :=
  ⟨_, rfl, by decide, by decide, by decide⟩

end Project

end Schematic
