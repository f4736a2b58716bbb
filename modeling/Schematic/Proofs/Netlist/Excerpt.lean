import Schematic.Proofs.Netlist.ModuleText
import Mathlib.Data.List.Chain
import Mathlib.Data.List.Nodup

/-!
# Excerpts of modules

Inside the text of a module no line begins with a letter, whatever the body is: the lines of a body
are indented, and the clauses before it begin their lines with a space or a parenthesis. A line that
begins with a letter is therefore the first or the last one of a module, and the first one shows the
name up to the space or the semicolon after it.
-/

namespace Schematic

namespace Text

section Search

/-- The first line aside, no line begins with the character. -/
def LaterLinesAvoid (first : Char) (text : List Char) : Prop :=
  text.IsChain fun c d => c = '\n' → d ≠ first

/-- No line begins with the character. -/
def LinesAvoid (first : Char) (text : List Char) : Prop := LaterLinesAvoid first ('\n' :: text)

variable {first : Char} {a b : List Char}

theorem linesAvoid_iff :
    LinesAvoid first a ↔ a.head? ≠ some first ∧ LaterLinesAvoid first a := by
  rw [LinesAvoid, LaterLinesAvoid, List.isChain_cons]
  constructor
  · rintro ⟨hhead, ha⟩
    exact ⟨fun h => hhead first h rfl rfl, ha⟩
  · rintro ⟨hhead, ha⟩
    refine ⟨?_, ha⟩
    rintro d hd _ rfl
    exact hhead hd

theorem LaterLinesAvoid.append (ha : LaterLinesAvoid first a) (hb : LinesAvoid first b) :
    LaterLinesAvoid first (a ++ b) := by
  obtain ⟨hhead, hb⟩ := linesAvoid_iff.mp hb
  refine List.IsChain.append ha hb ?_
  rintro c _ d hd _ rfl
  exact hhead hd

theorem LinesAvoid.append (ha : LinesAvoid first a) (hb : LinesAvoid first b) :
    LinesAvoid first (a ++ b) :=
  LaterLinesAvoid.append (a := '\n' :: a) ha hb

/-- A text without line ends has no later lines. -/
theorem laterLinesAvoid_of_not_mem (h : '\n' ∉ a) : LaterLinesAvoid first a := by
  induction a with
  | nil => exact .nil
  | cons c rest ih =>
      rw [List.mem_cons, not_or] at h
      refine List.isChain_cons.mpr ⟨?_, ih h.2⟩
      intro d _ hc
      exact absurd hc.symm h.1

theorem linesAvoid_of_not_mem (hhead : a.head? ≠ some first) (h : '\n' ∉ a) :
    LinesAvoid first a :=
  linesAvoid_iff.mpr ⟨hhead, laterLinesAvoid_of_not_mem h⟩

/-- A pattern that begins a line is not found in a text whose lines begin otherwise. What follows
the text has to start with a new line, so that no line runs over. -/
theorem find?_append (hfirst : first ≠ '\n') (ha : LaterLinesAvoid first a)
    (hb : ∀ c ∈ b.head?, c = '\n') (pattern : List Char) :
    find? ('\n' :: first :: pattern) (a ++ b) =
      (find? ('\n' :: first :: pattern) b).map (a.length + ·) := by
  induction a with
  | nil => simp
  | cons c rest ih =>
      obtain ⟨hnext, hrest⟩ := List.isChain_cons.mp ha
      have hskip : List.isPrefixOf ('\n' :: first :: pattern) (c :: (rest ++ b)) = false := by
        refine Bool.eq_false_iff.mpr fun hprefix => ?_
        obtain ⟨tail, htail⟩ := List.isPrefixOf_iff_prefix.mp hprefix
        obtain ⟨rfl, hrest⟩ := List.cons.inj htail
        have hhead : (rest ++ b).head? = some first := by rw [← hrest]; rfl
        rw [List.head?_append] at hhead
        rcases hr : rest.head? with _ | d
        · rw [hr] at hhead
          exact hfirst (hb first hhead)
        · rw [hr] at hhead
          exact hnext d hr rfl (Option.some.inj hhead)
      rw [List.cons_append, find?, hskip, ih hrest, Option.map_map]
      simp only [Bool.false_eq_true, if_false]
      congr 1
      funext i
      simp only [Function.comp_apply, List.length_cons]
      omega

theorem find?_eq_zero {pattern text : List Char} (h : pattern <+: text) :
    find? pattern text = some 0 := by
  cases text with
  | nil => simp [find?, List.prefix_nil.mp h]
  | cons c rest => rw [find?, if_pos (List.isPrefixOf_iff_prefix.mpr h)]

end Search

section Lines

/-- The text stays on one line. -/
def IsLine (s : String) : Prop := '\n' ∉ s.toList

instance (s : String) : Decidable (IsLine s) := inferInstanceAs (Decidable ('\n' ∉ s.toList))

variable {first : Char}

/-- A text without letters has no line that begins with one. -/
theorem linesAvoid_of_no_letters (hfirst : first.isAlpha) {text : List Char}
    (h : text.any Char.isAlpha = false) : LinesAvoid first text := by
  have hall : ∀ d ∈ '\n' :: text, d ≠ first := by
    rintro d hd rfl
    rcases List.mem_cons.mp hd with rfl | hd
    · exact absurd hfirst (by decide)
    · exact List.any_eq_false.mp h d hd hfirst
  refine List.Pairwise.isChain (List.pairwise_iff_forall_sublist.mpr ?_)
  intro c d hsub _
  exact hall d (hsub.subset (by simp))

/-- Indented lines begin with a space. -/
theorem linesAvoid_indent (hfirst : first.isAlpha) (text : List Char) :
    LinesAvoid first (indent text) := by
  have hspace : ' ' ≠ first := by
    rintro rfl
    exact absurd hfirst (by decide)
  have hlater (c : Char) (hc : c ≠ '\n') : LaterLinesAvoid first
      (c :: text.flatMap fun c => if c = '\n' then ['\n', ' '] else [c]) := by
    induction text generalizing c with
    | nil => exact .singleton c
    | cons d rest ih =>
        rw [List.flatMap_cons]
        by_cases hd : d = '\n'
        · rw [if_pos hd]
          exact .cons_cons (absurd · hc) (.cons_cons (fun _ => hspace) (ih ' ' (by decide)))
        · rw [if_neg hd]
          exact .cons_cons (absurd · hc) (ih d hd)
  exact linesAvoid_iff.mpr ⟨fun heq => hspace (Option.some.inj heq), hlater ' ' (by decide)⟩

/-- Entries of one line each, which begin with a space, stay so in a clause. -/
theorem linesAvoid_clauseText (hfirst : first.isAlpha) {opening : String} {entries : List String}
    (hopening : opening.toList.any Char.isAlpha = false)
    (h : ∀ e ∈ entries, IsLine e ∧ e.toList.head? = some ' ') :
    LinesAvoid first (clauseText opening entries).toList := by
  have hentry {e : String} (he : IsLine e ∧ e.toList.head? = some ' ') :
      LinesAvoid first e.toList := by
    refine linesAvoid_of_not_mem ?_ he.1
    rw [he.2]
    rintro ⟨⟩
    exact absurd hfirst (by decide)
  have hentries : LinesAvoid first (",\n".intercalate entries).toList := by
    induction entries with
    | nil => exact .singleton _
    | cons e rest ih =>
        rw [List.forall_mem_cons] at h
        cases rest with
        | nil => simpa using hentry h.1
        | cons e' rest =>
            rw [String.intercalate_cons_cons, String.toList_append, String.toList_append]
            exact ((hentry h.1).append (linesAvoid_of_no_letters hfirst (by decide))).append
              (ih h.2)
  unfold clauseText
  split
  · exact .singleton _
  · simp only [String.toList_append]
    exact (((linesAvoid_of_no_letters hfirst hopening).append
      (linesAvoid_of_no_letters hfirst (by decide))).append hentries).append
      (linesAvoid_of_no_letters hfirst (by decide))

end Lines

section Words

/-- The characters that end the name in the first line of a module. -/
def isBreak (c : Char) : Bool := c = ' ' || c = ';' || c = '\n'

/-- The text has neither spaces nor semicolons, and stays on one line. -/
def IsWord (s : String) : Prop := ∀ c ∈ s.toList, isBreak c = false

instance (s : String) : Decidable (IsWord s) :=
  List.decidableBAll (fun c => isBreak c = false) s.toList

theorem IsWord.isLine {s : String} (h : IsWord s) : IsLine s := by
  intro hmem
  exact absurd (h _ hmem) (by decide)

theorem takeWhile_word {s : String} (h : IsWord s) {c : Char} (hc : isBreak c = true)
    (rest : List Char) : (s.toList ++ c :: rest).takeWhile (fun c => !isBreak c) = s.toList :=
  takeWhile_append_cons (fun c hmem => by rw [h c hmem]; rfl) (by rw [hc]; rfl) rest

/-- A word with the character after it begins a text only if that text begins with the same two. -/
theorem word_prefix_iff {s t : String} (hs : IsWord s) (ht : IsWord t) {c d : Char}
    (hc : isBreak c = true) (hd : isBreak d = true) (rest : List Char) :
    s.toList ++ [c] <+: t.toList ++ d :: rest ↔ t = s ∧ d = c := by
  constructor
  · rintro ⟨tail, htail⟩
    rw [List.append_assoc, List.singleton_append] at htail
    have hwords := congrArg (List.takeWhile fun c => !isBreak c) htail
    rw [takeWhile_word hs hc, takeWhile_word ht hd] at hwords
    obtain rfl := String.toList_inj.mp hwords
    exact ⟨rfl, (List.cons.inj (List.append_cancel_left htail)).1.symm⟩
  · rintro ⟨rfl, rfl⟩
    exact ⟨rest, by simp⟩

end Words

end Text

namespace Module

open Text

/-- A name that can be told from what follows it, and entries of one line in the clauses. -/
structure IsPlain (m : Module) : Prop where
  named : m.name ≠ ""
  name : IsWord m.name
  parameters : ∀ p ∈ m.parameters, IsLine p.name ∧ ∀ v ∈ p.value, IsLine v
  ports : ∀ p ∈ m.inputs ++ m.outputs, IsLine p.name ∧ ∀ r ∈ p.range, IsLine r

section Interior

/-- What stands between the name of a module and its end. -/
def interior (m : Module) : String := m.clauses ++ ";\n" ++ m.shownBody

theorem text_eq_interior {m : Module} (h : m.name ≠ "") :
    m.text = "\nmodule " ++ m.name ++ m.interior ++ "\nendmodule\n" := by
  simp only [text_eq h, heading, interior, String.append_assoc]

theorem isLine_shown {p : Parameter} (h : ∀ v ∈ p.value, IsLine v) : IsLine p.shown := by
  unfold Parameter.shown
  split
  case h_1 v hv =>
    split
    case isTrue => decide
    case isFalse => exact h v hv
  case h_2 => decide

theorem parameter_entry {p : Parameter} (h : IsLine p.name ∧ ∀ v ∈ p.value, IsLine v) :
    IsLine p.text ∧ p.text.toList.head? = some ' ' := by
  have hshown := isLine_shown h.2
  have hname := h.1
  simp_all [Parameter.text, IsLine]

theorem port_entry {p : Port} {direction : String} (hdirection : IsLine direction)
    (h : IsLine p.name ∧ ∀ r ∈ p.range, IsLine r) :
    IsLine (p.text direction) ∧ (p.text direction).toList.head? = some ' ' := by
  unfold Port.text
  cases hr : p.range with
  | none => simp_all [IsLine]
  | some r => simp_all [IsLine]

/-- No line in a module begins with a letter, whatever its body. -/
theorem linesAvoid_interior {m : Module} (hm : m.IsPlain) {first : Char} (hfirst : first.isAlpha) :
    LinesAvoid first m.interior.toList := by
  have hparameters : LinesAvoid first
      (clauseText " #" (m.parameters.map Parameter.text)).toList := by
    apply linesAvoid_clauseText hfirst (by decide)
    rw [List.forall_mem_map]
    exact fun p hp => parameter_entry (hm.parameters p hp)
  have hports : LinesAvoid first (clauseText " " (m.inputs.map (Port.text "input") ++
      m.outputs.map (Port.text "output"))).toList := by
    apply linesAvoid_clauseText hfirst (by decide)
    rw [List.forall_mem_append, List.forall_mem_map, List.forall_mem_map]
    have hports := List.forall_mem_append.mp hm.ports
    exact ⟨fun p hp => port_entry (by decide) (hports.1 p hp),
      fun p hp => port_entry (by decide) (hports.2 p hp)⟩
  have hbody : LinesAvoid first m.shownBody.toList := by
    rw [shownBody, indented_eq]
    split
    · exact .singleton _
    · rw [String.toList_ofList]
      exact linesAvoid_indent hfirst _
  simp only [interior, clauses, String.toList_append]
  exact ((hparameters.append hports).append
    (linesAvoid_of_no_letters hfirst (by decide))).append hbody

/-- The name of a module is followed by a space or a semicolon. -/
theorem exists_interior_eq (m : Module) :
    ∃ d rest, (d = ' ' ∨ d = ';') ∧ m.interior.toList = d :: rest := by
  unfold interior clauses
  rcases clauseText_cases " #" (m.parameters.map Parameter.text) with hnone | ⟨rest, hsome⟩
  · rw [hnone]
    rcases clauseText_cases " "
      (m.inputs.map (Port.text "input") ++ m.outputs.map (Port.text "output")) with
      hnone | ⟨rest, hsome⟩
    · exact ⟨';', _, Or.inr rfl, by simp [hnone]; rfl⟩
    · exact ⟨' ', _, Or.inl rfl, by simp [hsome]; rfl⟩
  · exact ⟨' ', _, Or.inl rfl, by simp [hsome]; rfl⟩

end Interior

section Excerpt

/-- The first line of a module up to the character after its name. -/
def header (name : String) (c : Char) : List Char := "\nmodule ".toList ++ name.toList ++ [c]

/-- Where the module with a name begins in a text. -/
def start? (name : String) (chars : List Char) : Option Nat :=
  match Text.find? (header name ' ') chars, Text.find? (header name ';') chars with
  | some i, some j => some (min i j)
  | some i, none => some i
  | none, found => found

/-- A text up to the first end of a module in it. -/
def upToEnd? (chars : List Char) : Option String :=
  let close := "\nendmodule\n".toList
  (Text.find? close chars).map fun k => String.ofList (chars.take (k + close.length))

theorem excerpt_eq (text name : String) : excerpt text name =
    (start? name text.toList).bind fun i => upToEnd? (text.toList.drop i) := rfl

variable {m : Module} {name : String} {b : List Char}

/-- The text of a module behind its first line end. -/
theorem toList_text_eq (hm : m.IsPlain) : m.text.toList =
    '\n' :: ("module ".toList ++ m.name.toList ++ m.interior.toList ++ "\nendmodule\n".toList) := by
  rw [text_eq_interior hm.named]
  simp only [String.toList_append, List.append_assoc]
  rfl

/-- The lines of a module between its first and its last one begin with no letter. -/
theorem laterLinesAvoid_module (hm : m.IsPlain) {first : Char} (hfirst : first.isAlpha) :
    LaterLinesAvoid first ("module ".toList ++ m.name.toList ++ m.interior.toList) := by
  refine LaterLinesAvoid.append (laterLinesAvoid_of_not_mem ?_) (linesAvoid_interior hm hfirst)
  rw [List.mem_append, not_or]
  exact ⟨by decide, hm.name.isLine⟩

/-- The text of a module begins with a header if it is that of the module. -/
theorem header_prefix_iff (hm : m.IsPlain) (hname : IsWord name) {c : Char}
    (hc : c = ' ' ∨ c = ';') : header name c <+: m.text.toList ++ b ↔
      m.name = name ∧ m.interior.toList.head? = some c := by
  obtain ⟨d, rest, hd, hinterior⟩ := m.exists_interior_eq
  have hbreak : ∀ x, x = ' ' ∨ x = ';' → isBreak x = true := by
    rintro x (rfl | rfl) <;> rfl
  have htext : m.text.toList ++ b = "\nmodule ".toList ++
      (m.name.toList ++ d :: (rest ++ "\nendmodule\n".toList ++ b)) := by
    rw [text_eq_interior hm.named]
    simp only [String.toList_append, hinterior, List.append_assoc, List.cons_append]
  have hheader : header name c = "\nmodule ".toList ++ (name.toList ++ [c]) :=
    List.append_assoc _ _ _
  rw [htext, hheader, hinterior, List.head?_cons, Option.some.injEq]
  exact (List.prefix_append_right_inj _).trans
    (word_prefix_iff hname hm.name (hbreak c hc) (hbreak d hd) _)

/-- A header is found where its module begins; it is not found in any other module. -/
theorem find?_header (hm : m.IsPlain) (hname : IsWord name) {c : Char} (hc : c = ' ' ∨ c = ';')
    (hb : ∀ d ∈ b.head?, d = '\n') :
    Text.find? (header name c) (m.text.toList ++ b) =
      if m.name = name ∧ m.interior.toList.head? = some c then some 0
      else (Text.find? (header name c) b).map (m.text.toList.length + ·) := by
  split
  case isTrue h => exact find?_eq_zero ((header_prefix_iff hm hname hc).mpr h)
  case isFalse h =>
    have hskip : ¬ header name c <+: m.text.toList ++ b :=
      fun hp => h ((header_prefix_iff hm hname hc).mp hp)
    have hlater : LaterLinesAvoid 'm' ("module ".toList ++ m.name.toList ++ m.interior.toList ++
        "\nendmodule\n".toList) := by
      refine (laterLinesAvoid_module hm (by decide)).append ?_
      simp [LinesAvoid, LaterLinesAvoid]
    rw [toList_text_eq hm, List.cons_append] at hskip ⊢
    rw [Text.find?, if_neg (fun hp => hskip (List.isPrefixOf_iff_prefix.mp hp))]
    have hheader : header name c = '\n' :: 'm' :: ("odule ".toList ++ name.toList ++ [c]) := rfl
    rw [hheader, find?_append (by decide) hlater hb, Option.map_map]
    congr 1
    funext i
    simp only [Function.comp_apply, List.length_cons]
    omega

/-- A module begins where its text begins, and any other one behind that text. -/
theorem start?_text (hm : m.IsPlain) (hname : IsWord name) (hb : ∀ d ∈ b.head?, d = '\n') :
    start? name (m.text.toList ++ b) =
      if m.name = name then some 0 else (start? name b).map (m.text.toList.length + ·) := by
  obtain ⟨d, rest, hd, hinterior⟩ := m.exists_interior_eq
  rw [start?, find?_header hm hname (Or.inl rfl) hb, find?_header hm hname (Or.inr rfl) hb,
    hinterior, List.head?_cons]
  by_cases hm' : m.name = name
  · -- one of the two headers is found at once, and the other one not before it
    rcases hd with rfl | rfl
    · cases Text.find? (header name ';') b <;> simp [hm']
    · cases Text.find? (header name ' ') b <;> simp [hm']
  · simp only [hm', false_and, if_false, start?]
    cases Text.find? (header name ' ') b with
    | none => rfl
    | some i =>
        cases Text.find? (header name ';') b with
        | none => rfl
        | some j => simp [Nat.add_min_add_left]

/-- A module ends where its text ends. -/
theorem upToEnd?_text (hm : m.IsPlain) (b : List Char) :
    upToEnd? (m.text.toList ++ b) = some m.text := by
  have hlater : LaterLinesAvoid 'e'
      ('\n' :: ("module ".toList ++ m.name.toList ++ m.interior.toList)) :=
    List.isChain_cons.mpr ⟨by simp, laterLinesAvoid_module hm (by decide)⟩
  have hclose : "\nendmodule\n".toList = '\n' :: 'e' :: "ndmodule\n".toList := rfl
  have hfind : Text.find? "\nendmodule\n".toList (m.text.toList ++ b) =
      some ('\n' :: ("module ".toList ++ m.name.toList ++ m.interior.toList)).length := by
    rw [toList_text_eq hm, ← List.cons_append, List.append_assoc]
    nth_rw 1 [hclose]
    rw [find?_append (by decide) hlater (by simp)]
    rw [find?_eq_zero (by rw [← hclose]; exact List.prefix_append _ _)]
    rfl
  have htake : ('\n' :: ("module ".toList ++ m.name.toList ++ m.interior.toList)).length +
      "\nendmodule\n".toList.length = m.text.toList.length := by
    simp only [toList_text_eq hm, List.length_cons, List.length_append]
    omega
  rw [upToEnd?, hfind, Option.map_some, htake, List.take_left, String.ofList_toList]

/-- The excerpt of a name from a text that starts with a module. -/
theorem excerpt_text_append (hm : m.IsPlain) (hname : IsWord name) {rest : String}
    (hrest : ∀ d ∈ rest.toList.head?, d = '\n') :
    excerpt (m.text ++ rest) name = if m.name = name then some m.text else excerpt rest name := by
  rw [excerpt_eq, excerpt_eq, String.toList_append, start?_text hm hname hrest]
  by_cases h : m.name = name
  · rw [if_pos h, if_pos h]
    exact upToEnd?_text hm _
  · rw [if_neg h, if_neg h, Option.bind_map]
    congr 1
    funext i
    rw [Function.comp_apply, List.drop_length_add_append]

theorem concat_cons (m : Module) (ms : List Module) : concat (m :: ms) = m.text ++ concat ms := by
  rw [concat, List.map_cons, String.join_cons, concat]

theorem head?_concat {ms : List Module} (h : ∀ m ∈ ms, m.IsPlain) :
    ∀ d ∈ (concat ms).toList.head?, d = '\n' := by
  cases ms with
  | nil => simp [concat]
  | cons m ms =>
      intro d hd
      rw [concat_cons, String.toList_append, toList_text_eq (h m List.mem_cons_self)] at hd
      exact (Option.some.inj hd).symm

/-- The excerpt of a name is the text of the first module with that name. -/
theorem excerpt_concat_eq {ms : List Module} (h : ∀ m ∈ ms, m.IsPlain) (hname : IsWord name) :
    excerpt (concat ms) name = (ms.find? (·.name = name)).map text := by
  induction ms with
  | nil => rfl
  | cons m ms ih =>
      rw [List.forall_mem_cons] at h
      rw [concat_cons, excerpt_text_append h.1 hname (head?_concat h.2), ih h.2]
      by_cases hm : m.name = name <;> simp [hm]

/-- From the text of modules with different names, each module is recovered by its name as it was
written, and nothing is found under any other name. -/
theorem excerpt_recovers {ms : List Module} (h : ∀ m ∈ ms, m.IsPlain)
    (hnames : (ms.map Module.name).Nodup) :
    (∀ m ∈ ms, excerpt (concat ms) m.name = some m.text) ∧
    ∀ name, IsWord name → (∀ m ∈ ms, m.name ≠ name) → excerpt (concat ms) name = none := by
  constructor
  · intro m hm
    rw [excerpt_concat_eq h (h m hm).name]
    cases hfind : ms.find? (·.name = m.name) with
    | none => simpa using List.find?_eq_none.mp hfind m hm
    | some n =>
        have hname : n.name = m.name := by simpa using List.find?_some hfind
        rw [List.inj_on_of_nodup_map hnames (List.mem_of_find?_eq_some hfind) hm hname]
        rfl
  · intro name hname hnew
    rw [excerpt_concat_eq h hname, List.find?_eq_none.mpr (by simpa using hnew)]
    rfl

/-- A module whose body looks like the end of it and the start of another, and that other one. -/
def misleadingBody : List Module :=
  [{ name := "a", body := .text "endmodule\n\nmodule ab;" },
   { name := "ab", parameters := [⟨"N", none⟩], inputs := [⟨"x", some "[1:0]"⟩] }]

theorem isPlain_misleadingBody : ∀ m ∈ misleadingBody, m.IsPlain := by
  simp only [misleadingBody, List.forall_mem_cons]
  exact ⟨⟨by decide, by decide, by decide, by decide⟩,
    ⟨by decide, by decide, by decide, by decide⟩, by simp⟩

set_option maxRecDepth 2000 in
theorem excerpt_recovers_misleadingBody :
    concat misleadingBody = "\nmodule a;\n endmodule\n \n module ab;\nendmodule\n" ++
      "\nmodule ab #(\n parameter N = 0\n) (\n input [1:0] x\n);\n\nendmodule\n" ∧
    excerpt (concat misleadingBody) "a" =
      some "\nmodule a;\n endmodule\n \n module ab;\nendmodule\n" ∧
    excerpt (concat misleadingBody) "ab" =
      some "\nmodule ab #(\n parameter N = 0\n) (\n input [1:0] x\n);\n\nendmodule\n" ∧
    excerpt (concat misleadingBody) "b" = none := by
  obtain ⟨hfound, hnone⟩ := excerpt_recovers isPlain_misleadingBody (by decide)
  refine ⟨rfl, hfound _ List.mem_cons_self, hfound _ (List.mem_cons_of_mem _ List.mem_cons_self),
    hnone "b" (by decide) (by decide)⟩

end Excerpt

end Module

end Schematic
