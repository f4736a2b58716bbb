import Schematic.Artifact.Generate
import Schematic.Proofs.Netlist.ModuleText

/-!
# The text of a testbench

A testbench is a text of its own around one module. The body of this module declares a constant for
each parameter of the main module and a signal for each port, and then uses the main module with
these. The list of waves names the same signals.
-/

namespace Schematic

/-- The constant of the testbench for a parameter. -/
def TestParameter.line (q : TestParameter) : String :=
  "localparam " ++ q.name ++ " = " ++ q.value ++ ";\n"

/-- The declaration of a signal of the testbench. -/
def Signal.declaration (kind : String) (s : Signal) : String :=
  kind ++ " " ++ (s.range.elim "" (· ++ " ")) ++ s.name ++ ";\n"

/-- The path of a signal of the testbench. -/
def Signal.wave (s : Signal) : String := "main_tb." ++ s.name ++ s.range.getD "" ++ "\n"

/-- The body of a testbench between two texts: its constants, its signals, and the use of the main
module with them. -/
def benchBody (start : String) (parameters : List TestParameter) (i : Interface) (rest : String) :
    String :=
  start ++ String.join (parameters.map TestParameter.line) ++ "\n// Input/Output\n" ++
    String.join (i.inputs.map (Signal.declaration "reg") ++
      i.outputs.map (Signal.declaration "wire")) ++
    "\n// Module instance\n" ++
    useText "main" (parameters.map fun q => (q.id, q.name)) "MAIN"
      (i.signals.map fun s => (s.id, s.name)) ++ "\n" ++ rest

theorem exists_benchBody_eq (start : String) (parameters : List TestParameter) (i : Interface)
    (rest : String) : ∃ after, benchBody start parameters i rest =
      start ++ String.join (parameters.map TestParameter.line) ++ after := by
  simp only [benchBody, String.append_assoc]
  exact ⟨_, rfl⟩

/-- A text is a testbench for some parameters and signals. -/
def IsBench (text : String) (parameters : List TestParameter) (i : Interface) : Prop :=
  ∃ before start rest,
    text = before ++ moduleText "main_tb" [] [] (benchBody start parameters i rest)

namespace Testbench

theorem text_topInstance (t : Testbench) : t.topInstance.text =
    useText "main" (t.parameters.map fun q => (q.id, q.name)) "MAIN"
      (t.interface.signals.map fun s => (s.id, s.name)) := by
  rw [Instance.text_eq, topInstance, List.map_map, List.map_map]
  rfl

theorem declaration_eq (kind : String) (s : Signal) :
    declaration kind s = s.declaration kind := by
  unfold declaration Signal.declaration
  cases s.range <;> simp [← String.toList_inj]

theorem exists_parameterLines_eq (t : Testbench) :
    ∃ comment, t.parameterLines = comment ++ String.join (t.parameters.map TestParameter.line) := by
  unfold parameterLines
  split
  case isTrue h => exact ⟨"", by simp [List.isEmpty_iff.mp h]⟩
  case isFalse => exact ⟨_, rfl⟩

theorem declarations_eq (t : Testbench) : t.declarations =
    t.interface.inputs.map (Signal.declaration "reg") ++
      t.interface.outputs.map (Signal.declaration "wire") := by
  rw [declarations, funext (declaration_eq "reg"), funext (declaration_eq "wire")]

/-- The body of a testbench is laid out as said. -/
theorem exists_body_eq (t : Testbench) :
    ∃ start rest, t.body = benchBody start t.parameters t.interface rest := by
  obtain ⟨comment, hparameters⟩ := t.exists_parameterLines_eq
  refine ⟨timeLines ++ comment, t.clockLines ++ t.initialLines, ?_⟩
  rw [body, hparameters, declarations_eq, text_topInstance, benchBody]
  simp only [String.append_assoc]

theorem isBench_text (t : Testbench) : IsBench t.text t.parameters t.interface := by
  obtain ⟨start, rest, hbody⟩ := t.exists_body_eq
  have hname : moduleName ≠ "" := by decide
  refine ⟨header, start, rest, ?_⟩
  rw [← hbody, text, Module.text_eq_moduleText hname]
  rfl

end Testbench

namespace Project

variable {p : Project} {o : Options} {rules : BoardRules} {top : Top}

theorem testbench_eq (h : Top.ofProject p o rules = .ok top) :
    p.testbench o rules = .ok (top.testbench p).text := by
  rw [testbench, h]
  rfl

theorem waves_eq (h : Top.ofProject p o rules = .ok top) :
    p.waves o rules = .ok (String.join (top.interface.signals.map Signal.wave)) := by
  rw [waves, h]
  rfl

end Project

end Schematic
