import Schematic.Proofs.Artifact.BenchText
import Schematic.Proofs.Artifact.PlaceLines
import Schematic.Proofs.Hierarchy.Entries

/-!
# One interface in all artifacts

The main module, the testbench, the list of waves and the constraints are all made from the top
circuit, but not from the same parts of it: the module has ports, the testbench signals with names
of their own, and the parameters of the testbench are even those of the graph before board defaults
were wired. They agree because terminals are read off the same blocks in the same order, and because
wiring defaults adds nothing but inputs.
-/

namespace Schematic

section Terminals

/-- The port that a signal is connected to. -/
def Signal.port (s : Signal) : Port := ⟨s.id, s.range⟩

/-- The entry of a port among those of a module, from the signal that is connected to it. -/
def Signal.entry (direction : String) (s : Signal) : String :=
  " " ++ direction ++ " " ++ (s.range.elim "" (· ++ " ")) ++ s.id

theorem Signal.text_port (direction : String) (s : Signal) :
    s.port.text direction = s.entry direction := by
  unfold Port.text port entry
  cases s.range <;> simp [← String.toList_inj]

/-- The parameter that a constant of the testbench is for. -/
def TestParameter.parameter (q : TestParameter) : Parameter := ⟨q.id, some q.value⟩

/-- The entry of a parameter among those of a module. Without a value it is zero. -/
def TestParameter.entry (q : TestParameter) : String :=
  " parameter " ++ q.id ++ " = " ++ (if q.value = "" then "0" else q.value)

/-- Numbering changes the names of signals only. -/
theorem map_port_signalsFrom (fallback : String) (n : Nat) (list : List (String × Terminal)) :
    (signalsFrom fallback n list).map Signal.port =
      list.map fun x => ⟨Identifier.ofId x.1, x.2.range⟩ := by
  induction list generalizing n with
  | nil => rfl
  | cons x rest ih =>
      rw [signalsFrom, List.map_cons, List.map_cons, ih]
      rfl

/-- What does not depend on the names of test parameters can be read off the constants. -/
theorem map_testParametersFrom {β : Type} {f : TestParameter → β} {g : String × Constant → β}
    (h : ∀ x name, f ⟨Identifier.ofId x.1, name, x.2.value⟩ = g x) (n : Nat)
    (list : List (String × Constant)) : (testParametersFrom n list).map f = list.map g := by
  induction list generalizing n with
  | nil => rfl
  | cons x rest ih => rw [testParametersFrom, List.map_cons, List.map_cons, ih, h]

namespace Graph

theorem inputPorts_eq (g : Graph) : g.inputPorts = g.interface.inputs.map Signal.port := by
  rw [interface, map_port_signalsFrom, inputPorts, inputTerminals, List.map_filterMap]
  simp [Function.comp_def]

theorem outputPorts_eq (g : Graph) : g.outputPorts = g.interface.outputs.map Signal.port := by
  rw [interface, map_port_signalsFrom, outputPorts, outputTerminals, List.map_filterMap]
  simp [Function.comp_def]

theorem parameters_eq_map (g : Graph) : g.parameters =
    g.sharedConstants.map fun x => ⟨Identifier.ofId x.1, some x.2.value⟩ := by
  rw [parameters, sharedConstants, List.map_filterMap]
  refine List.filterMap_congr fun b _ => ?_
  cases b.kind with
  | constant c => by_cases h : c.isLocal <;> simp [h]
  | _ => rfl

theorem parameters_eq (g : Graph) :
    g.parameters = g.testParameters.map TestParameter.parameter := by
  rw [parameters_eq_map]
  exact (map_testParametersFrom (fun _ _ => rfl) 0 g.sharedConstants).symm

end Graph

end Terminals

namespace Top

section MainModule

/-- The output that holds idle pins; without idle pins there is none. -/
def holdPorts (t : Top) : List Port :=
  if t.idlePins.isEmpty then [] else [⟨holdPort, some (bitRange t.idlePins.length)⟩]

/-- The statement that holds idle pins. -/
def holdStatements (t : Top) : List Statement :=
  if t.idlePins.isEmpty then [] else [.hold holdPort (t.idlePins.map OutputRule.bit)]

/-- The main module of a top circuit whose types are all known: the module of the graph with what
holds the idle pins. -/
def rendering (t : Top) : Module where
  name := moduleName
  parameters := t.graph.parameters
  inputs := t.graph.inputPorts
  outputs := t.graph.outputPorts ++ t.holdPorts
  body := .statements (t.graph.wiring ++ (t.graph.blocks.filter Block.isInstance).map
    (fun b => .use (t.graph.instanceOf moduleName b)) ++ t.holdStatements)

theorem toModule_eq_ok_iff (t : Top) (s : Scope) (m : Module) :
    t.toModule s = .ok m ↔ (∀ b ∈ t.graph.blocks, s.Resolves b) ∧ m = t.rendering := by
  have hmodule : t.toModule s = (t.graph.statements moduleName s).map fun list =>
      { t.rendering with body := .statements (list ++ t.holdStatements) } := by
    rw [toModule, rendering, holdPorts, holdStatements]
    cases t.idlePins with
    | nil => rfl
    | cons rule rest => rfl
  rw [hmodule]
  simp only [map_eq_ok_iff, Graph.statements_eq_ok_iff]
  constructor
  · rintro ⟨list, ⟨hresolves, rfl⟩, rfl⟩
    exact ⟨hresolves, rfl⟩
  · rintro ⟨hresolves, rfl⟩
    exact ⟨_, ⟨hresolves, rfl⟩, rfl⟩

theorem inputs_rendering (t : Top) :
    t.rendering.inputs = t.interface.inputs.map Signal.port := by
  have hinputs : t.interface.inputs = t.graph.interface.inputs := by
    unfold interface
    split <;> rfl
  rw [hinputs]
  exact t.graph.inputPorts_eq

theorem outputs_rendering (t : Top) :
    t.rendering.outputs = t.interface.outputs.map Signal.port := by
  have houtputs : t.interface.outputs.map Signal.port =
      t.graph.interface.outputs.map Signal.port ++ t.holdPorts := by
    unfold interface holdPorts
    split
    · simp
    · simp [Signal.port]
  rw [houtputs, ← Graph.outputPorts_eq]
  rfl

/-- The ports of the main module are those that the signals of the interface are connected to. -/
theorem ports_rendering (t : Top) :
    t.rendering.inputs ++ t.rendering.outputs = t.interface.signals.map Signal.port := by
  rw [inputs_rendering, outputs_rendering, Interface.signals, List.map_append]

end MainModule

section Wired

variable {p : Project} {o : Options} {rules : BoardRules} {top : Top}

/-- What is read off one block after another, and never off an input, does not depend on board
defaults. -/
theorem filterMap_blocks {α : Type} (h : ofProject p o rules = .ok top) (f : Block → Option α)
    (hf : ∀ b t, b.kind = .input t → f b = none) :
    top.graph.blocks.filterMap f = p.graph.blocks.filterMap f := by
  obtain ⟨rs, _, hgraph⟩ := exists_requests h
  rw [hgraph]
  exact (Wiring.grows_foldl_step p.graph rs).filterMap_blocks f hf

/-- Wiring board defaults adds no constant to the testbench. -/
theorem testParameters_eq (h : ofProject p o rules = .ok top) :
    top.graph.testParameters = p.graph.testParameters := by
  apply congrArg (testParametersFrom 0)
  apply filterMap_blocks h
  intro b t hkind
  simp [hkind]

end Wired

/-- The text of the main module, with the ports that the interface tells. -/
theorem text_rendering (t : Top) : t.rendering.text =
    moduleText "main" (t.graph.testParameters.map TestParameter.entry)
      (t.interface.inputs.map (Signal.entry "input") ++
        t.interface.outputs.map (Signal.entry "output")) t.rendering.body.lines := by
  have hname : t.rendering.name ≠ "" := by
    change moduleName ≠ ""
    decide
  have hparameters : t.rendering.parameters.map Parameter.text =
      t.graph.testParameters.map TestParameter.entry := by
    rw [rendering, Graph.parameters_eq, List.map_map]
    rfl
  rw [Module.text_eq_moduleText hname, hparameters, inputs_rendering, outputs_rendering,
    List.map_map, List.map_map, ← funext (Signal.text_port "input"),
    ← funext (Signal.text_port "output")]
  rfl

/-- The added output has one bit for each line. -/
theorem interface_cases (t : Top) :
    (holdLines t.idlePins = [] ∧ t.interface.outputs = t.graph.interface.outputs) ∨
      ∃ k, (holdLines t.idlePins).length = k + 1 ∧ t.interface.outputs =
        t.graph.interface.outputs ++ [⟨"vinit", "vinit", some ("[0:" ++ toString k ++ "]")⟩] := by
  cases hidle : t.idlePins with
  | nil => exact Or.inl ⟨rfl, by simp [interface, hidle]⟩
  | cons rule rest =>
      exact Or.inr ⟨rest.length, by simp [holdLines],
        by simp [interface, hidle, holdPort, bitRange]⟩

end Top

section Places

theorem Block.exists_of_mem_placeLines {b : Block} {line : String} (h : line ∈ b.placeLines) :
    ∃ t, (b.kind = .input t ∨ b.kind = .output t) ∧
      ∃ bit pin, line = placeLine (Identifier.ofId b.id) bit pin := by
  unfold placeLines at h
  split at h
  case h_1 t hkind =>
    obtain ⟨_, _, rfl⟩ := List.mem_map.mp h
    exact ⟨t, Or.inl hkind, _, _, rfl⟩
  case h_2 t hkind =>
    obtain ⟨_, _, rfl⟩ := List.mem_map.mp h
    exact ⟨t, Or.inr hkind, _, _, rfl⟩
  case h_3 => cases h

/-- A terminal of the top circuit has a signal. -/
theorem Top.exists_signal_of_terminal {t : Top} {b : Block} {terminal : Terminal}
    (hb : b ∈ t.graph.blocks) (hkind : b.kind = .input terminal ∨ b.kind = .output terminal) :
    ∃ s ∈ t.interface.signals, s.id = Identifier.ofId b.id := by
  have hport : (⟨Identifier.ofId b.id, terminal.range⟩ : Port) ∈
      t.rendering.inputs ++ t.rendering.outputs := by
    rcases hkind with hkind | hkind
    · refine List.mem_append_left _ (List.mem_filterMap.mpr ⟨b, hb, ?_⟩)
      simp [(b.input?_eq_some_iff terminal).mpr hkind]
    · refine List.mem_append_right _ (List.mem_append_left _ (List.mem_filterMap.mpr ⟨b, hb, ?_⟩))
      simp [(b.output?_eq_some_iff terminal).mpr hkind]
  rw [ports_rendering] at hport
  obtain ⟨s, hs, hport⟩ := List.mem_map.mp hport
  exact ⟨s, hs, congrArg Port.name hport⟩

/-- Only ports of the main module are placed on pins. -/
theorem Top.exists_signal_of_mem_lines {t : Top} {line : String}
    (h : line ∈ t.graph.blocks.flatMap Block.placeLines ++ holdLines t.idlePins) :
    ∃ s ∈ t.interface.signals, ∃ bit pin, line = placeLine s.id bit pin := by
  rcases List.mem_append.mp h with h | h
  · obtain ⟨b, hb, hline⟩ := List.mem_flatMap.mp h
    obtain ⟨terminal, hkind, bit, pin, rfl⟩ := Block.exists_of_mem_placeLines hline
    obtain ⟨s, hs, hid⟩ := exists_signal_of_terminal hb hkind
    exact ⟨s, hs, bit, pin, by rw [hid]⟩
  · rcases t.interface_cases with ⟨hnone, _⟩ | ⟨k, _, houtputs⟩
    · simp [hnone] at h
    · obtain ⟨x, _, rfl⟩ := List.mem_map.mp h
      have hsignal : (⟨"vinit", "vinit", some ("[0:" ++ toString k ++ "]")⟩ : Signal) ∈
          t.interface.signals := by
        rw [Interface.signals, houtputs]
        simp
      exact ⟨_, hsignal, _, _, holdLine_eq _ _ _⟩

end Places

/-- What the artifacts of a top circuit show of the interface of its main module. The constants of
the testbench are read off the graph before board defaults were wired. -/
structure InterfaceShown (main : Module) (top : Top) (constants : List TestParameter)
    (verilog bench waves places : String) : Prop where
  inputs : main.inputs = top.interface.inputs.map Signal.port
  outputs : main.outputs = top.interface.outputs.map Signal.port
  parameters : main.parameters = constants.map TestParameter.parameter
  /-- The text of the main module, with these parameters and ports in its clauses, comes first. -/
  written : ∃ body rest, verilog = moduleText "main" (constants.map TestParameter.entry)
    (top.interface.inputs.map (Signal.entry "input") ++
      top.interface.outputs.map (Signal.entry "output")) body ++ rest
  /-- The testbench binds the parameters and ports of the module, in order. -/
  bound : IsBench bench constants top.interface
  /-- Each port has one entry among the waves: the signal bound to it, with its range. -/
  recorded : waves = String.join (top.interface.signals.map Signal.wave)
  /-- The lines of the blocks come first, and only ports of the module are placed on pins. -/
  placed : places = String.join (top.graph.blocks.flatMap Block.placeLines) ++
      String.join (holdLines top.idlePins) ∧
    ∀ line ∈ top.graph.blocks.flatMap Block.placeLines ++ holdLines top.idlePins,
      ∃ s ∈ top.interface.signals, ∃ bit pin, line = placeLine s.id bit pin
  /-- The output that holds idle pins is added when there is a line for it, with as many bits as
  there are lines. -/
  held : (holdLines top.idlePins = [] ∧ top.interface.outputs = top.graph.interface.outputs) ∨
    ∃ k, (holdLines top.idlePins).length = k + 1 ∧ top.interface.outputs =
      top.graph.interface.outputs ++ [⟨"vinit", "vinit", some ("[0:" ++ toString k ++ "]")⟩]

namespace Project

/-- The main module comes first, and is that of the top circuit. -/
theorem exists_rendering {p : Project} {o : Options} {rules : BoardRules} {ms : List Module}
    (h : p.modules o rules = .ok ms) :
    ∃ top rest, Top.ofProject p o rules = .ok top ∧ ms = top.rendering :: rest := by
  obtain ⟨top, main, visits, hcompiled⟩ := (Hierarchy.modules_eq_ok_iff p o rules ms).mp h
  obtain ⟨ms₁, hwalk, rfl⟩ := hcompiled.walk
  obtain ⟨rest, hrest⟩ := hwalk.isPrefix.trans (Hierarchy.extends_foldl_emit _ _).isPrefix
  obtain ⟨_, hmain⟩ := (top.toModule_eq_ok_iff _ main).mp hcompiled.main_eq
  exact ⟨top, rest, hcompiled.top_eq, by rw [← hrest, hmain]; rfl⟩

theorem exists_modules_of_verilog {p : Project} {o : Options} {rules : BoardRules} {text : String}
    (h : p.verilog o rules = .ok text) :
    ∃ ms, p.modules o rules = .ok ms ∧ text = String.join (ms.map Module.text) := by
  unfold verilog at h
  split at h
  case h_1 ms hms => exact ⟨ms, hms, (Except.ok.inj h).symm⟩
  case h_2 => cases h

/-- When a project compiles, all artifacts are made from one top circuit, and their texts show the
same interface of the main module. -/
theorem artifacts_show_interface {p : Project} {o : Options} {rules : BoardRules}
    {verilog : String} (h : p.verilog o rules = .ok verilog) :
    ∃ top main rest bench waves places, Top.ofProject p o rules = .ok top ∧
      p.modules o rules = .ok (main :: rest) ∧ p.testbench o rules = .ok bench ∧
      p.waves o rules = .ok waves ∧ p.constraints o rules = .ok places ∧
      InterfaceShown main top p.graph.testParameters verilog bench waves places := by
  obtain ⟨ms, hms, rfl⟩ := exists_modules_of_verilog h
  obtain ⟨top, rest, htop, rfl⟩ := exists_rendering hms
  have hconstants := Top.testParameters_eq htop
  refine ⟨top, top.rendering, rest, _, _, _, htop, hms, testbench_eq htop, waves_eq htop,
    constraints_eq htop, ?_⟩
  constructor
  case inputs => exact top.inputs_rendering
  case outputs => exact top.outputs_rendering
  case parameters =>
    rw [← hconstants]
    exact top.graph.parameters_eq
  case written =>
    refine ⟨top.rendering.body.lines, String.join (rest.map Module.text), ?_⟩
    rw [← hconstants, ← top.text_rendering, List.map_cons, String.join_cons]
  case bound => exact (top.testbench p).isBench_text
  case recorded => rfl
  case placed => exact ⟨rfl, fun _ hline => Top.exists_signal_of_mem_lines hline⟩
  case held => exact top.interface_cases

/-- A design with a parameter, an output on a board pin, and a block that asks for a clock. -/
def clocked : Project where
  design := { graph := {
    blocks := [⟨"k", .constant { value := "5" }⟩, ⟨"o", .output (.onPin "led" "95")⟩,
      ⟨"c", .code { inputs := [⟨"clk", none, some ⟨"clk", "21", true⟩⟩] }⟩]
    wires := [{ source := ⟨"c", "q"⟩, target := ⟨"o", "in"⟩ }] } }
  library := []

/-- A board with three output pins. -/
def threePins : BoardRules where
  outputs := [⟨"95", "0"⟩, ⟨"96", "1"⟩, ⟨"97", "0"⟩]

/-- The input for the clock and the output for the pins without a signal are in all four texts. -/
theorem artifacts_show_interface_clocked : ∃ verilog bench body rest before start more,
    clocked.verilog { boardRules := true } threePins = .ok verilog ∧
    verilog = moduleText "main" [" parameter vk = 5"]
      [" input vclk", " output vo", " output [0:1] vinit"] body ++ rest ∧
    clocked.testbench { boardRules := true } threePins = .ok bench ∧
    bench = before ++ moduleText "main_tb" [] [] (start ++ "localparam constant_0 = 5;\n" ++
      "\n// Input/Output\n" ++ "reg clk;\nwire led;\nwire [0:1] vinit;\n" ++
      "\n// Module instance\n" ++
      "main #(\n .vk(constant_0)\n) MAIN (\n .vclk(clk),\n .vo(led),\n .vinit(vinit)\n);" ++
      "\n" ++ more) ∧
    clocked.waves { boardRules := true } threePins =
      .ok "main_tb.clk\nmain_tb.led\nmain_tb.vinit[0:1]\n" ∧
    clocked.constraints { boardRules := true } threePins =
      .ok "set_io vo 95\nset_io vclk 21\nset_io vinit[0] 96\nset_io vinit[1] 97\n" := by
  obtain ⟨verilog, hverilog⟩ : ∃ verilog,
      clocked.verilog { boardRules := true } threePins = .ok verilog := ⟨_, rfl⟩
  obtain ⟨top, main, modules, bench, waves, places, htop, _, hbench, hwaves, hplaces, hshown⟩ :=
    artifacts_show_interface hverilog
  have hconstants : clocked.graph.testParameters = [⟨"vk", "constant_0", "5"⟩] := by decide
  obtain ⟨top', htop', hinterface, hblocks, hidle⟩ : ∃ top',
      Top.ofProject clocked { boardRules := true } threePins = .ok top' ∧
      top'.interface = ⟨[⟨"vclk", "clk", none⟩],
        [⟨"vo", "led", none⟩, ⟨"vinit", "vinit", some "[0:1]"⟩]⟩ ∧
      top'.graph.blocks.flatMap Block.placeLines = ["set_io vo 95\n", "set_io vclk 21\n"] ∧
      holdLines top'.idlePins = ["set_io vinit[0] 96\n", "set_io vinit[1] 97\n"] :=
    ⟨_, rfl, by decide, by decide, by decide⟩
  obtain rfl := Except.ok.inj (htop.symm.trans htop')
  obtain ⟨body, rest, hwritten⟩ := hshown.written
  obtain ⟨before, start, more, hbound⟩ := hshown.bound
  rw [hconstants, hinterface] at hwritten hbound
  rw [hwaves, hshown.recorded, hplaces, hshown.placed.1, hinterface, hblocks, hidle]
  exact ⟨verilog, bench, body, rest, before, start, more, hverilog, hwritten, hbench, hbound,
    by decide, by decide⟩

end Project

end Schematic
