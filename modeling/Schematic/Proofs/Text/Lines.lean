import Schematic.Text.Lines
import Mathlib.Data.List.Basic

/-!
# Numbers, words and lines of a text

What can be read back from a text: a number from its digits, a word from the character that ends it,
and lines from the newlines between them. Indenting a text is said with its lines, each of which
gets a space.
-/

namespace Schematic

/-- Names that are numbered differently are different. -/
theorem append_toString_inj (front : String) {i j : Nat} :
    front ++ toString i = front ++ toString j ↔ i = j := by
  constructor
  · intro h
    have hdigits : Nat.toDigits 10 i = Nat.toDigits 10 j := by
      rw [← Nat.toList_repr, ← Nat.toList_repr]
      exact congrArg String.toList ((String.append_right_inj _).mp h)
    have hread := congrArg (Nat.ofDigitChars 10 · 0) hdigits
    rwa [Nat.ofDigitChars_ten_toDigits, Nat.ofDigitChars_ten_toDigits] at hread
  · rintro rfl
    rfl

namespace Text

/-- A word is read up to the first character that is not of a word. -/
theorem takeWhile_append_cons {p : Char → Bool} {word : List Char} (h : ∀ c ∈ word, p c = true)
    {c : Char} (hc : p c = false) (rest : List Char) :
    (word ++ c :: rest).takeWhile p = word := by
  rw [List.takeWhile_append_of_pos h]
  simp [hc]

section Lines

/-- The lines of a text; there is always one. -/
def lines (text : List Char) : List (List Char) := text.splitOn '\n'

@[simp] theorem lines_nil : lines [] = [[]] := rfl

@[simp] theorem lines_newline_cons (text : List Char) :
    lines ('\n' :: text) = [] :: lines text := by
  simp [lines, List.splitOn, List.splitOnP_cons_eq_if_modifyHead]

theorem lines_cons {c : Char} (hc : c ≠ '\n') (text : List Char) :
    lines (c :: text) = (lines text).modifyHead (c :: ·) := by
  simp [lines, List.splitOn, List.splitOnP_cons_eq_if_modifyHead, hc]

theorem lines_append_newline (a b : List Char) : lines (a ++ '\n' :: b) = lines a ++ lines b :=
  List.splitOnP_append_cons a b (by decide)

theorem exists_lines_eq (text : List Char) : ∃ first rest, lines text = first :: rest :=
  List.exists_cons_of_ne_nil (List.splitOn_ne_nil '\n' text)

theorem intercalate_lines (text : List Char) : ['\n'].intercalate (lines text) = text :=
  List.intercalate_splitOn '\n'

/-- A text is determined by its lines. -/
theorem lines_injective : Function.Injective lines :=
  Function.LeftInverse.injective intercalate_lines

end Lines

section Indent

/-- Behind a first line, every line gets a space. -/
theorem lines_flatMap_newline {text first : List Char} {rest : List (List Char)}
    (h : lines text = first :: rest) :
    lines (text.flatMap fun c => if c = '\n' then ['\n', ' '] else [c]) =
      first :: rest.map (' ' :: ·) := by
  induction text generalizing first rest with
  | nil =>
      obtain ⟨rfl, rfl⟩ := List.cons.inj h
      rfl
  | cons c text ih =>
      obtain ⟨next, more, htext⟩ := exists_lines_eq text
      rw [List.flatMap_cons]
      by_cases hc : c = '\n'
      · rw [hc, lines_newline_cons, htext] at h
        obtain ⟨rfl, rfl⟩ := List.cons.inj h
        simp [hc, lines_cons, ih htext]
      · rw [lines_cons hc, htext] at h
        obtain ⟨rfl, rfl⟩ := List.cons.inj h
        simp [hc, lines_cons, ih htext]

theorem lines_indent (text : List Char) : lines (indent text) = (lines text).map (' ' :: ·) := by
  obtain ⟨first, rest, h⟩ := exists_lines_eq text
  rw [indent, lines_cons (by decide), lines_flatMap_newline h, h]
  rfl

/-- A text with a space in front of every line. An empty text stays empty. -/
def indented (text : String) : String :=
  if text = "" then ""
  else "\n".intercalate ((lines text.toList).map fun line => " " ++ String.ofList line)

theorem indented_eq (text : String) :
    indented text = if text = "" then "" else String.ofList (indent text.toList) := by
  unfold indented
  split
  · rfl
  · rw [← String.toList_inj, String.toList_ofList, ← intercalate_lines (indent text.toList),
      lines_indent, String.toList_intercalate, List.map_map]
    congr 1
    refine List.map_congr_left fun line _ => ?_
    simp

/-- A text that is not empty has all its lines indented. -/
theorem lines_indented (text : String) :
    text = "" ∧ indented text = "" ∨
      lines (indented text).toList = (lines text.toList).map (' ' :: ·) := by
  rw [indented_eq]
  split
  case isTrue h => exact Or.inl ⟨h, rfl⟩
  case isFalse h => exact Or.inr (by rw [String.toList_ofList, lines_indent])

end Indent

end Text

end Schematic
