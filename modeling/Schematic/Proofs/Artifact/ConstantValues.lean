import Schematic.Proofs.Artifact.Interface
import Schematic.Proofs.Hierarchy.Resolution
import Schematic.Proofs.Netlist.Lines

/-!
# Values of constants

A constant is declared in up to two places. One that is a parameter stands in the clause of its
module and, at the top, also in the testbench; a local one stands at the head of the body. A clause
writes zero for an empty value. The other two places write every value as it is, so that all places
agree exactly when no constant declared there is empty.
-/

namespace Schematic

section Declarations

/-- The declaration of a constant: a name and the text of a value. -/
structure Declaration where
  name : String
  value : String
deriving DecidableEq, Inhabited

/-- The declaration as an entry in the clause of a module. -/
def Declaration.entry (d : Declaration) : String := " parameter " ++ d.name ++ " = " ++ d.value

/-- The declaration as a line of a body. -/
def Declaration.line (d : Declaration) : String :=
  "localparam " ++ d.name ++ " = " ++ d.value ++ ";"

/-- The value in the testbench, under the name of the parameter it is bound to. -/
def TestParameter.declaration (q : TestParameter) : Declaration := ⟨q.id, q.value⟩

/-- The value that a constant stands for: without one it is zero. -/
def Constant.shown (c : Constant) : String := if c.value = "" then "0" else c.value

theorem Constant.value_eq_shown_iff (c : Constant) : c.value = c.shown ↔ c.value ≠ "" := by
  by_cases h : c.value = ""
  · simp [shown, h]
  · simp [shown, h]

/-- The declarations of some constants, each with its text by `value`. -/
def declare (value : Constant → String) (list : List (String × Constant)) : List Declaration :=
  list.map fun x => ⟨Identifier.ofId x.1, value x.2⟩

theorem declare_value_eq_shown_iff (list : List (String × Constant)) :
    declare Constant.value list = declare Constant.shown list ↔ ∀ x ∈ list, x.2.value ≠ "" := by
  rw [declare, declare, List.map_inj_left]
  apply forall₂_congr
  intro x _
  rw [Declaration.mk.injEq, eq_self, true_and]
  exact x.2.value_eq_shown_iff

end Declarations

namespace Graph

/-- Constants that are no parameters, with their ids. -/
def ownConstants (g : Graph) : List (String × Constant) :=
  g.blocks.filterMap fun b =>
    match b.kind with
    | .constant c => if c.isLocal then some (b.id, c) else none
    | _ => none

theorem map_text_localConstants (g : Graph) : g.localConstants.map Statement.text =
    (declare Constant.value g.ownConstants).map Declaration.line := by
  rw [localConstants, ownConstants, declare, List.map_filterMap, List.map_map, List.map_filterMap]
  refine List.filterMap_congr fun b _ => ?_
  cases b.kind with
  | constant c => by_cases h : c.isLocal <;> simp [h, Statement.text_constant, Declaration.line]
  | _ => rfl

theorem map_text_parameters (g : Graph) : g.parameters.map Parameter.text =
    (declare Constant.shown g.sharedConstants).map Declaration.entry := by
  rw [parameters_eq_map, declare, List.map_map, List.map_map]
  rfl

end Graph

/-- How the text of a module declares constants: some in its clause, and others at the head of its
body. No other line of the body declares the identifier of a block. -/
def DeclaresConstants (m : Module) (parameters constants : List Declaration) : Prop :=
  ∃ ports rest, m.text = moduleText m.name (parameters.map Declaration.entry) ports
      ("\n".intercalate (constants.map Declaration.line ++ rest)) ∧
    ∀ line ∈ rest, begins "localparam v" line = false

section Rendered

/-- After the local constants of a graph, no line of the wiring declares an identifier. -/
theorem Graph.exists_wiring_eq (g : Graph) : ∃ rest, g.wiring = g.localConstants ++ rest ∧
    ∀ st ∈ rest, begins "localparam v" st.text = false := by
  refine ⟨g.feedDeclarations ++ g.wireDeclarations ++ g.terminalAssigns ++ g.followerAssigns,
    by simp only [wiring, List.append_assoc], ?_⟩
  intro st hst
  rw [List.mem_append, List.mem_append, List.mem_append] at hst
  rcases hst with ((hfeed | hwire) | hterminal) | hfollower
  · obtain ⟨i, w, _, _, rfl⟩ := mem_feedDeclarations_iff.mp hfeed
    rw [Statement.text_feed, String.append_assoc, String.append_assoc, String.append_assoc]
    refine begins_eq_false "localparam " (a := "v") (c := 'v') (d := 'p') rfl ?_ (by decide)
    simp [Net.text]
  · obtain ⟨i, w, _, _, rfl⟩ := mem_wireDeclarations_iff.mp hwire
    refine begins_of_head?_ne (d := 'w') rfl ?_ (by decide)
    cases w.width <;> simp [Statement.text_wire_none, Statement.text_wire_some]
  · obtain ⟨x, y, rfl⟩ := exists_assign_of_mem_terminalAssigns hterminal
    exact begins_of_head?_ne (d := 'a') rfl (by simp [Statement.text_assign]) (by decide)
  · obtain ⟨i, root, _, _, rfl⟩ := mem_followerAssigns_iff.mp hfollower
    exact begins_of_head?_ne (d := 'a') rfl (by simp [Statement.text_assign]) (by decide)

/-- What follows the wiring in a body may be anything but declarations. -/
theorem declaresConstants_of_wiring {m : Module} {g : Graph} {more : List Statement}
    (hname : NamesGraph m.name) (hparameters : m.parameters = g.parameters)
    (hbody : m.body = .statements (g.wiring ++ more))
    (hmore : ∀ st ∈ more, begins "localparam v" st.text = false) :
    DeclaresConstants m (declare Constant.shown g.sharedConstants)
      (declare Constant.value g.ownConstants) := by
  obtain ⟨rest, hwiring, hrest⟩ := g.exists_wiring_eq
  have hlines : m.body.lines = "\n".intercalate
      ((declare Constant.value g.ownConstants).map Declaration.line ++
        (rest ++ more).map Statement.text) := by
    rw [hbody, hwiring, List.append_assoc, ← g.map_text_localConstants, ← List.map_append]
    rfl
  refine ⟨m.inputs.map (Port.text "input") ++ m.outputs.map (Port.text "output"),
    (rest ++ more).map Statement.text, ?_, ?_⟩
  · rw [Module.text_eq_moduleText hname.ne_empty, hparameters, g.map_text_parameters, hlines]
  · rw [List.forall_mem_map, List.forall_mem_append]
    exact ⟨hrest, hmore⟩

theorem Graph.begins_text_instances (g : Graph) {name : String} (hname : NamesGraph name) :
    ∀ st ∈ (g.blocks.filter Block.isInstance).map fun b => Statement.use (g.instanceOf name b),
      begins "localparam v" st.text = false := by
  rw [List.forall_mem_map]
  intro b hb
  exact begins_text_use hname (List.mem_filter.mp hb).2 (c := 'l') (by decide) (by decide) _ rfl

theorem Top.declaresConstants_rendering (t : Top) : DeclaresConstants t.rendering
    (declare Constant.shown t.graph.sharedConstants)
    (declare Constant.value t.graph.ownConstants) := by
  refine declaresConstants_of_wiring (Or.inl rfl) rfl
    (congrArg Body.statements (List.append_assoc _ _ _)) ?_
  rw [List.forall_mem_append]
  refine ⟨t.graph.begins_text_instances (Or.inl rfl), fun st hst => ?_⟩
  unfold holdStatements at hst
  split at hst
  · cases hst
  · rw [List.mem_singleton.mp hst]
    exact begins_of_head?_ne (d := 'a') rfl (by simp [Statement.text_hold]) (by decide)

/-- Wiring board defaults adds no constants. -/
theorem Top.sharedConstants_eq {p : Project} {o : Options} {rules : BoardRules} {top : Top}
    (h : ofProject p o rules = .ok top) : top.graph.sharedConstants = p.graph.sharedConstants := by
  apply filterMap_blocks h
  intro b t hkind
  simp [hkind]

theorem Hierarchy.Compiled.declaresConstants {p : Project} {o : Options} {rules : BoardRules}
    {top : Top} {main : Module} {visits : List Visit} {ms : List Module} {u : Origin}
    (h : Compiled p o rules top main visits ms) (hu : u ∈ origins p top main visits) :
    DeclaresConstants u.rendered (declare Constant.shown u.graph.sharedConstants)
      (declare Constant.value u.graph.ownConstants) := by
  rcases List.mem_cons.mp hu with rfl | hu
  · rw [((top.toModule_eq_ok_iff _ main).mp h.main_eq).2]
    exact top.declaresConstants_rendering
  · obtain ⟨v, hv, rfl⟩ := List.mem_map.mp hu
    have hname : NamesGraph v.name := Or.inr ⟨v.type, rfl⟩
    rw [((v.project.graph.toModule_eq_ok_iff _ _ _).mp (h.toModule_eq hv)).2]
    exact declaresConstants_of_wiring hname rfl rfl (v.project.graph.begins_text_instances hname)

end Rendered

namespace Project

open Hierarchy

/-- Each module of a graph declares the constants of the graph: those that are parameters in its
clause, with zero for an empty value, and the local ones at the head of its body, with the values
that they have. The testbench declares the parameters of the main module with the values that they
have. In both places these are what the constants stand for exactly when none is empty. -/
theorem constant_values_agree_iff {p : Project} {o : Options} {rules : BoardRules}
    {verilog : String} (h : p.verilog o rules = .ok verilog) :
    ∃ top main visits ms bench, Compiled p o rules top main visits ms ∧
      verilog = String.join (ms.map Module.text) ∧
      (∀ u ∈ origins p top main visits, u.rendered ∈ ms ∧
        DeclaresConstants u.rendered (declare Constant.shown u.graph.sharedConstants)
          (declare Constant.value u.graph.ownConstants) ∧
        (declare Constant.value u.graph.ownConstants = declare Constant.shown u.graph.ownConstants ↔
          ∀ x ∈ u.graph.ownConstants, x.2.value ≠ "")) ∧
      p.testbench o rules = .ok bench ∧
      IsBench bench p.graph.testParameters top.interface ∧
      p.graph.testParameters.map TestParameter.declaration =
        declare Constant.value top.graph.sharedConstants ∧
      (p.graph.testParameters.map TestParameter.declaration =
          declare Constant.shown top.graph.sharedConstants ↔
        ∀ x ∈ p.graph.sharedConstants, x.2.value ≠ "") := by
  obtain ⟨ms, hms, rfl⟩ := exists_modules_of_verilog h
  obtain ⟨top, main, visits, hcompiled⟩ := (modules_eq_ok_iff p o rules ms).mp hms
  have hbench : p.graph.testParameters.map TestParameter.declaration =
      declare Constant.value p.graph.sharedConstants :=
    map_testParametersFrom (fun _ _ => rfl) 0 p.graph.sharedConstants
  refine ⟨top, main, visits, ms, _, hcompiled, rfl, fun u hu => ?_, testbench_eq hcompiled.top_eq,
    (top.testbench p).isBench_text, ?_, ?_⟩
  · exact ⟨hcompiled.origin_mem hu, hcompiled.declaresConstants hu, declare_value_eq_shown_iff _⟩
  · rw [hbench, Top.sharedConstants_eq hcompiled.top_eq]
  · rw [hbench, Top.sharedConstants_eq hcompiled.top_eq]
    exact declare_value_eq_shown_iff p.graph.sharedConstants

/-- A design with constants of both kinds, and a sub-circuit that has them too. -/
def withConstants : Project where
  design := { graph := { blocks := [⟨"k", .constant { value := "5" }⟩,
    ⟨"l", .constant { value := "7", isLocal := true }⟩, ⟨"u", .circuit "part"⟩] } }
  library := [("part", {
    design := { graph := { blocks := [⟨"k", .constant {}⟩,
      ⟨"l", .constant { value := "3", isLocal := true }⟩] } }
    library := [] })]

/-- The constants of the main module have values, so the testbench and the clause agree. -/
theorem constant_values_agree_iff_withConstants :
    ∃ (verilog : String) (ms : List Module) (main : Module) (bench : String),
    withConstants.verilog {} {} = .ok verilog ∧ verilog = String.join (ms.map Module.text) ∧
    main ∈ ms ∧ DeclaresConstants main [⟨"vk", "5"⟩] [⟨"vl", "7"⟩] ∧
    withConstants.testbench {} {} = .ok bench ∧
    IsBench bench [⟨"vk", "constant_0", "5"⟩] {} ∧
    withConstants.graph.testParameters.map TestParameter.declaration =
      declare Constant.shown withConstants.graph.sharedConstants := by
  obtain ⟨verilog, hverilog⟩ : ∃ verilog, withConstants.verilog {} {} = .ok verilog := ⟨_, rfl⟩
  obtain ⟨top, main, visits, ms, bench, hcompiled, hms, hmodules, hbench, hisBench, _, hagree⟩ :=
    constant_values_agree_iff hverilog
  obtain rfl : ⟨withConstants.graph, [], []⟩ = top := Except.ok.inj hcompiled.top_eq
  obtain ⟨hmem, hdeclares, _⟩ := hmodules _ List.mem_cons_self
  exact ⟨verilog, ms, main, bench, hverilog, hms, hmem, hdeclares, hbench, hisBench,
    hagree.mpr (by decide)⟩

/-- A parameter and a local constant, both without a value. -/
def blankConstants : Project where
  design := { graph := { blocks := [⟨"k", .constant {}⟩, ⟨"l", .constant { isLocal := true }⟩] } }
  library := []

/-- The clause declares zero; the body and the testbench declare nothing after the sign. -/
theorem values_apart_blankConstants :
    blankConstants.verilog {} {} =
      .ok "\nmodule main #(\n parameter vk = 0\n);\n localparam vl = ;\nendmodule\n" ∧
    ∃ before start rest, blankConstants.testbench {} {} = .ok (before ++
      moduleText "main_tb" [] [] (start ++ "localparam constant_0 = ;\n" ++ rest)) := by
  have htop : Top.ofProject blankConstants {} {} = .ok ⟨blankConstants.graph, [], []⟩ := rfl
  obtain ⟨before, start, rest, hbench⟩ :=
    (Top.testbench ⟨blankConstants.graph, [], []⟩ blankConstants).isBench_text
  obtain ⟨after, hafter⟩ := exists_benchBody_eq start blankConstants.graph.testParameters {} rest
  refine ⟨by decide, before, start, after, ?_⟩
  rw [testbench_eq htop, hbench]
  exact congrArg (fun body => Except.ok (before ++ moduleText "main_tb" [] [] body)) hafter

end Project

end Schematic
