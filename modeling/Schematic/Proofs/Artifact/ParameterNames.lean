import Schematic.Proofs.Artifact.Interface

/-!
# Names of testbench parameters

The testbench has a constant for each parameter of the top module, and its name begins with
`constant_`. The name of a signal begins so only where a terminal shows such a name: the names made
up for terminals without one begin with other letters. So a constant and a signal share a name
exactly where a terminal shows the whole name of the constant.
-/

namespace Schematic

section Labels

/-- What stands after `constant_` in the names of test parameters, numbered from `n` on. -/
def constantLabelsFrom (n : Nat) (list : List (String × Constant)) : List String :=
  (list.zipIdx n).map fun x => (shownName x.1.2.name).getD (toString x.2)

theorem map_name_testParametersFrom (n : Nat) (list : List (String × Constant)) :
    (testParametersFrom n list).map TestParameter.name =
      (constantLabelsFrom n list).map ("constant_" ++ ·) := by
  induction list generalizing n with
  | nil => rfl
  | cons x rest ih =>
      rw [testParametersFrom, List.map_cons, ih]
      rfl

/-- A name made up for a terminal begins with a letter of its direction. -/
theorem constant_append_ne {fallback : String} (h : fallback.toList.head? ≠ some 'c')
    (label : String) (n : Nat) : "constant_" ++ label ≠ fallback ++ "_" ++ toString n := by
  intro heq
  have hhead := congrArg (fun text : String => text.toList.head?) heq
  have hmark : ("constant_" ++ label).toList.head? = some 'c' := by simp
  rw [hmark, String.append_assoc, String.toList_append, List.head?_append] at hhead
  cases hfirst : fallback.toList.head? with
  | none => simp [hfirst] at hhead
  | some c =>
      rw [hfirst, Option.some_or] at hhead
      exact h (hfirst.trans hhead.symm)

/-- A signal has the name of a constant only if its terminal shows that name. -/
theorem forall_signalsFrom_ne_iff {fallback : String} (h : fallback.toList.head? ≠ some 'c')
    (n : Nat) (list : List (String × Terminal)) (label : String) :
    (∀ s ∈ signalsFrom fallback n list, "constant_" ++ label ≠ s.name) ↔
      ∀ x ∈ list, shownName x.2.name ≠ some ("constant_" ++ label) := by
  induction list generalizing n with
  | nil => simp [signalsFrom]
  | cons x rest ih =>
      rw [signalsFrom, List.forall_mem_cons, List.forall_mem_cons, ih]
      refine and_congr_left fun _ => ?_
      cases hshown : shownName x.2.name with
      | none => simpa using constant_append_ne h label n
      | some name => simp [eq_comm]

end Labels

namespace Graph

/-- What stands after `constant_` in the names of the test parameters: the name that a constant
shows, or its number. -/
def constantLabels (g : Graph) : List String := constantLabelsFrom 0 g.sharedConstants

/-- No parameter of the testbench has the name of a signal exactly when no input or output shows a
name that is `constant_` and the label of a constant. -/
theorem parameter_names_apart_iff (g : Graph) :
    (∀ q ∈ g.testParameters, ∀ s ∈ g.interface.signals, q.name ≠ s.name) ↔
      ∀ label ∈ g.constantLabels, ∀ x ∈ g.inputTerminals ++ g.outputTerminals,
        shownName x.2.name ≠ some ("constant_" ++ label) := by
  have hnames : (∀ q ∈ g.testParameters, ∀ s ∈ g.interface.signals, q.name ≠ s.name) ↔
      ∀ name ∈ g.testParameters.map TestParameter.name, ∀ s ∈ g.interface.signals,
        name ≠ s.name := by simp only [List.forall_mem_map]
  rw [hnames, testParameters, map_name_testParametersFrom, List.forall_mem_map]
  refine forall₂_congr fun label _ => ?_
  rw [Interface.signals, List.forall_mem_append, List.forall_mem_append]
  apply and_congr
  · exact forall_signalsFrom_ne_iff (by decide) 0 g.inputTerminals label
  · exact forall_signalsFrom_ne_iff (by decide) 0 g.outputTerminals label

/-- A constant, and an output that shows the name of its parameter. -/
def namedLikeParameter : Graph where
  blocks := [⟨"k", .constant { name := some "led", value := "1" }⟩,
    ⟨"o", .output { name := some "constant_led" }⟩]

/-- The testbench has the name twice, for a parameter and for a port. -/
theorem name_shared_namedLikeParameter :
    namedLikeParameter.testParameters.map TestParameter.name = ["constant_led"] ∧
    namedLikeParameter.interface.signals.map Signal.name = ["constant_led"] ∧
    ¬ ∀ q ∈ namedLikeParameter.testParameters, ∀ s ∈ namedLikeParameter.interface.signals,
      q.name ≠ s.name := by
  decide

end Graph

end Schematic
