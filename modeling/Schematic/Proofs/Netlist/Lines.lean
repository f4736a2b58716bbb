import Schematic.Proofs.Netlist.Declarations
import Schematic.Top

/-!
# Lines of a body

Each statement of a body is a line of text. What a line declares or assigns to can be told from how
it begins, and for the declaration of a wire from its last word: names of wires have no spaces in
them, identifiers begin with another letter, and the line of an instance begins with the name of a
module. A line that looks like a declaration or an assignment therefore is one.
-/

namespace Schematic

namespace Statement

theorem text_constant (name value : String) :
    (Statement.constant name value).text = "localparam " ++ name ++ " = " ++ value ++ ";" := rfl

theorem text_feed (i : Nat) (source : String) :
    (Statement.feed i source).text = "localparam " ++ (Net.feed i).text ++ " = " ++ source ++ ";" :=
  rfl

theorem text_wire_none (i : Nat) :
    (Statement.wire i none).text = "wire " ++ (Net.wire i).text ++ ";" := rfl

theorem text_wire_some (i width : Nat) : (Statement.wire i (some width)).text =
    "wire [0:" ++ toString (width - 1) ++ "] " ++ (Net.wire i).text ++ ";" := rfl

theorem text_assign (target source : Net) :
    (Statement.assign target source).text =
      "assign " ++ target.text ++ " = " ++ source.text ++ ";" := rfl

theorem text_use (inst : Instance) : (Statement.use inst).text = inst.text := rfl

theorem text_hold (port : String) (bits : List String) : (Statement.hold port bits).text =
    "assign " ++ port ++ " = " ++ toString bits.length ++ "'b" ++ String.join bits ++ ";" := rfl

end Statement

section Text

theorem space_not_mem_toDigits (n : Nat) : ' ' ∉ Nat.toDigits 10 n := by
  intro h
  have hdigit := Nat.isDigit_of_mem_toDigits (by decide) (by decide) h
  revert hdigit
  decide

theorem Net.space_not_mem_text_wire (i : Nat) : ' ' ∉ (Net.wire i).text.toList := by
  simp [Net.text, space_not_mem_toDigits]

theorem Net.space_not_mem_text_feed (i : Nat) : ' ' ∉ (Net.feed i).text.toList := by
  simp [Net.text, space_not_mem_toDigits]

/-- A word without spaces is read up to the first space. -/
theorem takeWhile_append_space {word : List Char} (h : ' ' ∉ word) (rest : List Char) :
    (word ++ ' ' :: rest).takeWhile (· ≠ ' ') = word := by
  refine Text.takeWhile_append_cons ?_ rfl rest
  rintro c hc
  rw [decide_eq_true_iff]
  rintro rfl
  exact h hc

/-- A line begins with a text. -/
def begins (front line : String) : Bool := front.toList.isPrefixOf line.toList

/-- The last word of a line. -/
def lastWord (line : String) : List Char := (line.toList.reverse.takeWhile (· ≠ ' ')).reverse

theorem lastWord_append {word : String} (h : ' ' ∉ word.toList) (front : String) :
    lastWord (front ++ " " ++ word) = word.toList := by
  have hword : ' ' ∉ word.toList.reverse := by simpa using h
  have hline : (front ++ " " ++ word).toList.reverse =
      word.toList.reverse ++ ' ' :: front.toList.reverse := by simp
  rw [lastWord, hline, takeWhile_append_space hword, List.reverse_reverse]

/-- Lines with the same keyword begin alike only if the words after it are the same. -/
theorem begins_keyword_iff (keyword : String) {a b : String} (ha : ' ' ∉ a.toList)
    (hb : ' ' ∉ b.toList) (rest : String) :
    begins (keyword ++ a ++ " = ") (keyword ++ b ++ " = " ++ rest) = true ↔ a = b := by
  have hspace : " = ".toList = ' ' :: ['=', ' '] := rfl
  rw [begins, List.isPrefixOf_iff_prefix]
  simp only [String.toList_append, List.append_assoc, List.prefix_append_right_inj]
  constructor
  · rintro ⟨tail, htail⟩
    have hwords := congrArg (List.takeWhile (· ≠ ' ')) htail
    simp only [hspace, List.append_assoc, List.cons_append] at hwords
    rw [takeWhile_append_space ha, takeWhile_append_space hb] at hwords
    exact String.toList_inj.mp hwords
  · rintro rfl
    rw [← List.append_assoc]
    exact List.prefix_append _ _

/-- Lines do not begin alike when their first letters after a common keyword differ. -/
theorem begins_eq_false (keyword : String) {a b : String} {c d : Char}
    (ha : a.toList.head? = some c) (hb : b.toList.head? = some d) (hne : c ≠ d) :
    begins (keyword ++ a) (keyword ++ b) = false := by
  apply Bool.eq_false_iff.mpr
  intro h
  rw [begins, List.isPrefixOf_iff_prefix, String.toList_append, String.toList_append,
    List.prefix_append_right_inj] at h
  obtain ⟨tail, htail⟩ := h
  have hhead := congrArg List.head? htail
  rw [List.head?_append, ha, hb] at hhead
  exact hne (Option.some.inj hhead)

theorem begins_of_head?_ne {front line : String} {c d : Char} (hfront : front.toList.head? = some c)
    (hline : line.toList.head? = some d) (hne : c ≠ d) : begins front line = false := by
  rw [← String.empty_append (s := front), ← String.empty_append (s := line)]
  exact begins_eq_false "" hfront hline hne

theorem head?_append_of_some {a : String} {c : Char} (h : a.toList.head? = some c) (b : String) :
    (a ++ b).toList.head? = some c := by
  rw [String.toList_append, List.head?_append, h]
  rfl

/-- After a keyword, an identifier is not taken for the name of a wire. -/
theorem begins_keyword_ofId (keyword id rest : String) {n : Net} (hn : ∀ x, n ≠ .name x) :
    begins (keyword ++ n.text ++ " = ") (keyword ++ Identifier.ofId id ++ rest) = false := by
  obtain ⟨c, hc, hne⟩ := Net.exists_head?_text hn
  rw [String.append_assoc, String.append_assoc]
  exact begins_eq_false keyword (head?_append_of_some hc _)
    (head?_append_of_some (Identifier.head?_ofId id) _) hne

end Text

section Lines

/-- The line declares the signal of a wire, with or without a range. -/
def declaresWire (i : Nat) (line : String) : Bool :=
  begins "wire " line && lastWord line == ((Net.wire i).text ++ ";").toList

/-- The line declares the constant of a wire. -/
def declaresFeed (i : Nat) (line : String) : Bool :=
  begins ("localparam " ++ (Net.feed i).text ++ " = ") line

/-- The line assigns to the signal of a wire. -/
def assignsWire (i : Nat) (line : String) : Bool :=
  begins ("assign " ++ (Net.wire i).text ++ " = ") line

/-- The declaration of a wire ends with its name. -/
theorem Statement.text_wire_eq (i : Nat) (width : Option Nat) :
    ∃ range, (Statement.wire i width).text =
      "wire" ++ range ++ " " ++ ((Net.wire i).text ++ ";") := by
  cases width with
  | none => exact ⟨"", by rw [text_wire_none, String.append_assoc]; rfl⟩
  | some n =>
      refine ⟨" [0:" ++ toString (n - 1) ++ "]", ?_⟩
      have hopen : "wire [0:" = "wire" ++ " [0:" := rfl
      have hclose : "] " = "]" ++ " " := rfl
      simp only [text_wire_some, hopen, hclose, String.append_assoc]

theorem begins_text_wire (i : Nat) (width : Option Nat) :
    begins "wire " (Statement.wire i width).text = true := by
  cases width <;> simp [begins, Statement.text_wire_none, Statement.text_wire_some]

theorem declaresWire_text_wire (i j : Nat) (width : Option Nat) :
    declaresWire i (Statement.wire j width).text = true ↔ j = i := by
  have hword : ' ' ∉ ((Net.wire j).text ++ ";").toList := by
    simp [Net.space_not_mem_text_wire]
  obtain ⟨range, htext⟩ := Statement.text_wire_eq j width
  rw [declaresWire, begins_text_wire, htext, lastWord_append hword, Bool.true_and, beq_iff_eq,
    String.toList_inj, String.append_left_inj, Net.text_wire_inj]

theorem declaresFeed_text_feed (i j : Nat) (source : String) :
    declaresFeed i (Statement.feed j source).text = true ↔ j = i := by
  have htext : (Statement.feed j source).text =
      "localparam " ++ (Net.feed j).text ++ " = " ++ (source ++ ";") := by
    rw [Statement.text_feed, String.append_assoc]
  rw [declaresFeed, htext, begins_keyword_iff "localparam " (Net.space_not_mem_text_feed i)
    (Net.space_not_mem_text_feed j), Net.text_feed_inj]
  exact eq_comm

theorem assignsWire_text_assign (i j : Nat) (y : Net) :
    assignsWire i (Statement.assign (.wire j) y).text = true ↔ j = i := by
  have htext : (Statement.assign (.wire j) y).text =
      "assign " ++ (Net.wire j).text ++ " = " ++ (y.text ++ ";") := by
    rw [Statement.text_assign, String.append_assoc]
  rw [assignsWire, htext, begins_keyword_iff "assign " (Net.space_not_mem_text_wire i)
    (Net.space_not_mem_text_wire j), Net.text_wire_inj]
  exact eq_comm

end Lines

/-- The names under which graphs become modules: that of the top, and the identifiers of types. -/
def NamesGraph (name : String) : Prop := name = Top.moduleName ∨ ∃ id, name = Identifier.ofId id

theorem NamesGraph.ne_empty {name : String} (h : NamesGraph name) : name ≠ "" := by
  rcases h with rfl | ⟨id, rfl⟩
  · decide
  · intro hempty
    have hhead := Identifier.head?_ofId id
    rw [hempty] at hhead
    cases hhead

namespace Graph

section Recognized

variable {g : Graph} {name : String} {s : Scope} {list : List Statement}

/-- The name of a module begins as `main` or as an identifier does. -/
theorem head?_moduleName (hname : NamesGraph name) {b : Block} (hi : b.isInstance) :
    (b.moduleName name).toList.head? = some 'm' ∨ (b.moduleName name).toList.head? = some 'v' := by
  rcases (b.isInstance_iff).mp hi with ⟨c, hkind⟩ | ⟨type, hkind⟩
  · have hcode : b.moduleName name = name ++ ("_" ++ Identifier.ofId b.id) := by
      simp [Block.moduleName, hkind, Module.codeName, String.append_assoc]
    rw [hcode]
    rcases hname with rfl | ⟨id, rfl⟩
    · exact Or.inl (head?_append_of_some rfl _)
    · exact Or.inr (head?_append_of_some (Identifier.head?_ofId id) _)
  · simp only [Block.moduleName, hkind]
    exact Or.inr (Identifier.head?_ofId type)

/-- The line of an instance begins with the name of a module. -/
theorem begins_text_use (hname : NamesGraph name) {b : Block} (hi : b.isInstance) {c : Char}
    (hm : c ≠ 'm') (hv : c ≠ 'v') (front : String) (hfront : front.toList.head? = some c) :
    begins front (Statement.use (g.instanceOf name b)).text = false := by
  obtain ⟨rest, htext⟩ : ∃ rest, (Statement.use (g.instanceOf name b)).text =
      b.moduleName name ++ rest := by
    simp only [Statement.text_use, Instance.text, String.append_assoc]
    exact ⟨_, rfl⟩
  rw [htext]
  rcases head?_moduleName hname hi with hhead | hhead
  · exact begins_of_head?_ne hfront (head?_append_of_some hhead rest) hm
  · exact begins_of_head?_ne hfront (head?_append_of_some hhead rest) hv

/-- Assignments go to wires and to terminals. -/
theorem target_of_assign {x y : Net} (h : .assign x y ∈ g.wiring) :
    (∃ i, x = .wire i) ∨ ∃ id, x = .name (Identifier.ofId id) := by
  rcases (assign_mem_wiring_iff g x y).mp h with ⟨i, _, _, _, _, _, _, _, _, rfl, _⟩ |
    ⟨_, _, b, _, _, _, _, _, rfl, _⟩ | ⟨i, _, _, _, rfl, _⟩
  · exact Or.inl ⟨i, rfl⟩
  · exact Or.inr ⟨b.id, rfl⟩
  · exact Or.inl ⟨i, rfl⟩

variable (hname : NamesGraph name) (h : g.statements name s = .ok list) {st : Statement}
  (hst : st ∈ list) (i : Nat)

include hname h hst

/-- Only the declaration of a wire is read as one. -/
theorem declaresWire_iff : declaresWire i st.text = true ↔ ∃ width, st = .wire i width := by
  rcases mem_statements_cases h hst with ⟨id, value, rfl⟩ | ⟨j, w, _, _, rfl⟩ |
    ⟨j, w, _, _, rfl⟩ | ⟨x, y, _, rfl⟩ | ⟨b, _, hi, rfl⟩
  · simp [declaresWire, begins, Statement.text_constant]
  · simp [declaresWire, begins, Statement.text_feed]
  · simp [declaresWire_text_wire]
  · simp [declaresWire, begins, Statement.text_assign]
  · have hline := begins_text_use (g := g) hname hi (c := 'w') (by decide) (by decide) "wire " rfl
    simp [declaresWire, hline]

/-- Only the declaration of a constant wire is read as one: local constants are identifiers. -/
theorem declaresFeed_iff : declaresFeed i st.text = true ↔ ∃ source, st = .feed i source := by
  rcases mem_statements_cases h hst with ⟨id, value, rfl⟩ | ⟨j, w, _, _, rfl⟩ |
    ⟨j, w, _, _, rfl⟩ | ⟨x, y, _, rfl⟩ | ⟨b, _, hi, rfl⟩
  · have htext : (Statement.constant (Identifier.ofId id) value).text =
        "localparam " ++ Identifier.ofId id ++ (" = " ++ value ++ ";") := by
      simp only [Statement.text_constant, String.append_assoc]
    rw [declaresFeed, htext, begins_keyword_ofId _ _ _ (by simp)]
    simp
  · simp [declaresFeed_text_feed]
  · cases w.width <;>
      simp [declaresFeed, begins, Statement.text_wire_none, Statement.text_wire_some]
  · simp [declaresFeed, begins, Statement.text_assign]
  · have hline := begins_text_use (g := g) hname hi (c := 'l') (by decide) (by decide)
      ("localparam " ++ (Net.feed i).text ++ " = ") (by simp)
    simp [declaresFeed, hline]

/-- Only an assignment to a wire is read as one: the other assignments are to identifiers. -/
theorem assignsWire_iff : assignsWire i st.text = true ↔ ∃ y, st = .assign (.wire i) y := by
  rcases mem_statements_cases h hst with ⟨id, value, rfl⟩ | ⟨j, w, _, _, rfl⟩ |
    ⟨j, w, _, _, rfl⟩ | ⟨x, y, hmem, rfl⟩ | ⟨b, _, hi, rfl⟩
  · simp [assignsWire, begins, Statement.text_constant]
  · simp [assignsWire, begins, Statement.text_feed]
  · cases w.width <;>
      simp [assignsWire, begins, Statement.text_wire_none, Statement.text_wire_some]
  · rcases target_of_assign hmem with ⟨j, rfl⟩ | ⟨id, rfl⟩
    · simp [assignsWire_text_assign]
    · have htext : (Statement.assign (.name (Identifier.ofId id)) y).text =
          "assign " ++ Identifier.ofId id ++ (" = " ++ y.text ++ ";") := by
        have htarget : (Net.name (Identifier.ofId id)).text = Identifier.ofId id := rfl
        simp only [Statement.text_assign, htarget, String.append_assoc]
      rw [assignsWire, htext, begins_keyword_ofId _ _ _ (by simp)]
      simp
  · have hline := begins_text_use (g := g) hname hi (c := 'a') (by decide) (by decide)
      ("assign " ++ (Net.wire i).text ++ " = ") (by simp)
    simp [assignsWire, hline]

end Recognized

end Graph

end Schematic
