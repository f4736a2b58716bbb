import Schematic.Netlist.Module
import Schematic.Proofs.Text.Lines

/-!
# The text of a module

The text of a module is its first line with two clauses, the body with a space in front of every
line, and its last line; the text of an instance binds the parameters and ports of a module. Both
are spelled out here once. What is said about emitted text elsewhere is said with these spellings.
-/

namespace Schematic

section Spelling

/-- A clause in a text: between parentheses one entry a line, and nothing when there are none. -/
def clauseText (opening : String) (entries : List String) : String :=
  if entries = [] then "" else opening ++ "(\n" ++ ",\n".intercalate entries ++ "\n)"

/-- A module as a text: its name, the entries of its clauses and the text of its body. -/
def moduleText (name : String) (parameters ports : List String) (body : String) : String :=
  "\nmodule " ++ name ++ clauseText " #" parameters ++ clauseText " " ports ++ ";\n" ++
    Text.indented body ++ "\nendmodule\n"

/-- A name of a module in an instance, and what it is bound to. -/
def bindingText (binding : String × String) : String :=
  " ." ++ binding.1 ++ "(" ++ binding.2 ++ ")"

/-- An instance as a text: the module it uses, its name and its bindings. -/
def useText (target : String) (parameters : List (String × String)) (name : String)
    (ports : List (String × String)) : String :=
  target ++ clauseText " #" (parameters.map bindingText) ++ " " ++ name ++
    (if ports = [] then " ()" else clauseText " " (ports.map bindingText)) ++ ";"

end Spelling

/-- What a connection binds. -/
def Connection.binding (c : Connection) : String × String := (c.port, c.net.text)

theorem map_text_connections (cs : List Connection) :
    cs.map Connection.text = (cs.map Connection.binding).map bindingText := by
  rw [List.map_map]
  rfl

theorem clauseText_eq (opening : String) (entries : List String) :
    clauseText opening entries = if entries.isEmpty then "" else clause opening entries := by
  cases entries <;> rfl

theorem clauseText_cases (opening : String) (entries : List String) :
    clauseText opening entries = "" ∨ ∃ rest, clauseText opening entries = opening ++ rest := by
  unfold clauseText
  split
  · exact Or.inl rfl
  · exact Or.inr ⟨_, by simp only [String.append_assoc]; rfl⟩

theorem Instance.text_eq (i : Instance) : i.text =
    useText i.target (i.parameters.map Connection.binding) i.name
      (i.ports.map Connection.binding) := by
  simp only [text, useText, clauseText_eq, map_text_connections, List.isEmpty_map,
    ← List.isEmpty_iff]
  cases i.ports <;> rfl

namespace Module

/-- What stands between the name of a module and its body. -/
def clauses (m : Module) : String :=
  clauseText " #" (m.parameters.map Parameter.text) ++
    clauseText " " (m.inputs.map (Port.text "input") ++ m.outputs.map (Port.text "output"))

/-- What stands before the body of a module. -/
def heading (m : Module) : String := "\nmodule " ++ m.name ++ m.clauses ++ ";\n"

/-- The body as it stands in the text of a module. -/
def shownBody (m : Module) : String := Text.indented m.body.lines

theorem text_eq {m : Module} (h : m.name ≠ "") :
    m.text = m.heading ++ m.shownBody ++ "\nendmodule\n" := by
  have hports : (m.inputs.map (Port.text "input") ++ m.outputs.map (Port.text "output")).isEmpty =
      !m.hasPorts := by
    rw [hasPorts, Bool.not_not]
    cases m.inputs <;> simp
  simp only [text, if_neg h, heading, clauses, shownBody, clauseText_eq, Text.indented_eq, hports,
    List.isEmpty_map, Bool.not_eq_true', String.append_assoc]
  cases m.hasPorts <;> rfl

theorem text_eq_moduleText {m : Module} (h : m.name ≠ "") : m.text =
    moduleText m.name (m.parameters.map Parameter.text)
      (m.inputs.map (Port.text "input") ++ m.outputs.map (Port.text "output")) m.body.lines := by
  rw [text_eq h, moduleText, heading, clauses, shownBody]
  simp only [String.append_assoc]

theorem drop_lines_shownBody (m : Module) :
    (Text.lines m.shownBody.toList).map (List.drop 1) = Text.lines m.body.lines.toList := by
  rcases Text.lines_indented m.body.lines with ⟨hbody, hshown⟩ | hlines
  · rw [shownBody, hshown, hbody]
    rfl
  · rw [shownBody, hlines, List.map_map]
    exact List.map_id _

end Module

end Schematic
