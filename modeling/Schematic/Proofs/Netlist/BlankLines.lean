import Schematic.Proofs.Netlist.ModuleText

/-!
# Blank lines of code

The code of a block stands in the body of its module without its blank lines. Said with lines: the
first line stays as it is, and of the lines after it those that are not empty. What is known about
the characters of such a text, that no newline follows another and that none ends it, comes from
this, since there would be an empty line after the first one.
-/

namespace Schematic

namespace Text

section Lines

/-- The lines of a text that are not empty. -/
def writtenLines (text : List Char) : List (List Char) := (lines text).filter (· ≠ [])

/-- A newline with an empty line somewhere after it makes an empty line that is not the first. -/
theorem nil_mem_tail_lines (a : List Char) {b : List Char} (h : [] ∈ lines b) :
    [] ∈ (lines (a ++ '\n' :: b)).tail := by
  obtain ⟨first, rest, ha⟩ := exists_lines_eq a
  rw [lines_append_newline, ha]
  exact List.mem_append_right rest h

end Lines

section Condense

/-- The first line, and those of the others that are not empty. -/
def condense : List (List Char) → List (List Char)
  | [] => []
  | first :: rest => first :: rest.filter (· ≠ [])

theorem condense_modifyHead (c : Char) (ls : List (List Char)) :
    condense (ls.modifyHead (c :: ·)) = (condense ls).modifyHead (c :: ·) := by
  cases ls <;> rfl

theorem filter_condense (ls : List (List Char)) :
    (condense ls).filter (· ≠ []) = ls.filter (· ≠ []) := by
  cases ls with
  | nil => rfl
  | cons first rest => simp [condense, List.filter_cons]

theorem condense_condense (ls : List (List Char)) : condense (condense ls) = condense ls := by
  cases ls with
  | nil => rfl
  | cons first rest => simp [condense]

theorem nil_not_mem_tail_condense (ls : List (List Char)) : [] ∉ (condense ls).tail := by
  cases ls <;> simp [condense]

/-- After at most one empty line come the lines that are not empty. -/
theorem exists_condense_eq (ls : List (List Char)) :
    ∃ blank, (blank = [] ∨ blank = [[]]) ∧ condense ls = blank ++ ls.filter (· ≠ []) := by
  rcases ls with _ | ⟨first, rest⟩
  · exact ⟨[], Or.inl rfl, rfl⟩
  · by_cases hfirst : first = []
    · exact ⟨[[]], Or.inr rfl, by simp [condense, hfirst]⟩
    · exact ⟨[], Or.inl rfl, by simp [condense, hfirst]⟩

end Condense

section Collapse

theorem chopNewline_cons {c : Char} {text : List Char} (h : c ≠ '\n' ∨ text ≠ []) :
    chopNewline (c :: text) = c :: chopNewline text := by
  rcases text with _ | ⟨d, rest⟩
  · have hc : c ≠ '\n' := by simpa using h
    simp [chopNewline, hc]
  · simp only [chopNewline, List.getLast?_cons_cons, List.dropLast_cons_cons]
    split <;> rfl

theorem collapse_newline_newline (text : List Char) :
    collapse ('\n' :: '\n' :: text) = collapse ('\n' :: text) := rfl

theorem collapse_cons {c : Char} (hc : c ≠ '\n') (text : List Char) :
    collapse (c :: text) = c :: collapse text := by
  simp only [collapse, squeeze, if_neg hc]
  exact chopNewline_cons (Or.inl hc)

theorem collapse_newline_cons {c : Char} (hc : c ≠ '\n') (text : List Char) :
    collapse ('\n' :: c :: text) = '\n' :: collapse (c :: text) := by
  have hkept : squeeze true (c :: text) = squeeze false (c :: text) := by
    simp [squeeze, hc]
  have hne : squeeze false (c :: text) ≠ [] := by simp [squeeze, hc]
  simp only [collapse]
  rw [← chopNewline_cons (Or.inr hne), ← hkept]
  rfl

/-- What collapsing does to the lines of a text. -/
theorem lines_collapse (text : List Char) : lines (collapse text) = condense (lines text) := by
  induction text with
  | nil => rfl
  | cons c text ih =>
      by_cases hc : c = '\n'
      · subst hc
        -- a newline stays if another character comes next
        rcases text with _ | ⟨d, rest⟩
        · rfl
        · by_cases hd : d = '\n'
          · subst hd
            rw [collapse_newline_newline, ih]
            simp [condense]
          · obtain ⟨first, more, hrest⟩ := exists_lines_eq rest
            rw [collapse_newline_cons hd, lines_newline_cons, ih]
            simp [lines_cons hd, hrest, condense]
      · rw [collapse_cons hc, lines_cons hc, ih, lines_cons hc, condense_modifyHead]

/-- A text in which no line is empty, its first one aside. -/
structure IsTight (text : List Char) : Prop where
  noTwoNewlines : ¬ ['\n', '\n'] <:+: text
  noFinalNewline : text.getLast? ≠ some '\n'
  laterLines : [] ∉ (lines text).tail

/-- The lines of a text tell that it is tight. -/
theorem isTight_of_nil_not_mem {text : List Char} (h : [] ∉ (lines text).tail) : IsTight text where
  noTwoNewlines := by
    rintro ⟨a, b, rfl⟩
    apply h
    rw [List.append_assoc]
    exact nil_mem_tail_lines a (by simp)
  noFinalNewline := by
    intro hlast
    obtain ⟨a, rfl⟩ := List.getLast?_eq_some_iff.mp hlast
    exact h (nil_mem_tail_lines a (by simp))
  laterLines := h

theorem isTight_collapse (text : List Char) : IsTight (collapse text) := by
  apply isTight_of_nil_not_mem
  rw [lines_collapse]
  exact nil_not_mem_tail_condense _

theorem writtenLines_collapse (text : List Char) :
    writtenLines (collapse text) = writtenLines text := by
  rw [writtenLines, lines_collapse, filter_condense, writtenLines]

theorem collapse_collapse (text : List Char) : collapse (collapse text) = collapse text := by
  apply lines_injective
  rw [lines_collapse, lines_collapse, condense_condense]

end Collapse

end Text

namespace Module

open Text

theorem toList_body_ofCode (name : String) (c : Code) :
    (ofCode name c).body.lines.toList = collapse c.text.toList :=
  String.toList_ofList

/-- The body of a module shows a code: with the space in front of each line taken off, it has the
lines of the code that are not empty, after at most one empty line. -/
structure ShowsCode (m : Module) (code : List Char) : Prop where
  text : m.text = m.heading ++ m.shownBody ++ "\nendmodule\n"
  indented : m.shownBody = "" ∨ ∀ line ∈ lines m.shownBody.toList, line.head? = some ' '
  shown : ∃ blank, (blank = [] ∨ blank = [[]]) ∧
    (lines m.shownBody.toList).map (List.drop 1) = blank ++ writtenLines code

theorem showsCode_ofCode {name : String} (h : name ≠ "") (c : Code) :
    ShowsCode (ofCode name c) c.text.toList where
  text := text_eq h
  indented := by
    rcases lines_indented (ofCode name c).body.lines with ⟨_, hshown⟩ | hlines
    · exact Or.inl hshown
    · right
      intro line hline
      rw [shownBody, hlines] at hline
      obtain ⟨_, _, rfl⟩ := List.mem_map.mp hline
      rfl
  shown := by
    rw [drop_lines_shownBody, toList_body_ofCode, lines_collapse]
    exact exists_condense_eq _

/-- Collapsing a text takes out its blank lines and nothing else, up to a first one, and what is
left has none to take out. So the body of the module of a code block shows the lines of the code
that are not empty, in order. -/
theorem blank_lines_dropped :
    (∀ text : List Char, IsTight (collapse text) ∧
      writtenLines (collapse text) = writtenLines text ∧
      collapse (collapse text) = collapse text) ∧
    ∀ (name : String) (c : Code), name ≠ "" → ShowsCode (ofCode name c) c.text.toList :=
  ⟨fun text => ⟨isTight_collapse text, writtenLines_collapse text, collapse_collapse text⟩,
    fun _ c hname => showsCode_ofCode hname c⟩

/-- Code with blank lines before, between and after its two lines. -/
def spacedCode : Code := { text := "\n\n a\n\n\nb\n\n", inputs := [⟨"x", none, none⟩] }

theorem blank_lines_dropped_spacedCode :
    IsTight (collapse spacedCode.text.toList) ∧
    codeName "main" "c" ≠ "" ∧
    ShowsCode (ofCode (codeName "main" "c") spacedCode) spacedCode.text.toList ∧
    writtenLines spacedCode.text.toList = [" a".toList, "b".toList] ∧
    (ofCode (codeName "main" "c") spacedCode).text =
      "\nmodule main_vc (\n input x\n);\n \n  a\n b\nendmodule\n" := by
  obtain ⟨htight, hshows⟩ := blank_lines_dropped
  have hname : codeName "main" "c" ≠ "" := by decide
  exact ⟨(htight _).1, hname, hshows _ spacedCode hname, by decide, by decide⟩

end Module

end Schematic
