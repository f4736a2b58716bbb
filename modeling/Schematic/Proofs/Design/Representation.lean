import Schematic.Proofs.Design.Reading
import Schematic.Proofs.Hierarchy.Entries

/-!
# What designs are read as

A design that was read holds no empty text where a text may be absent, takes no built-in type for a
sub-circuit, and names no sub-circuit of a library twice, at whatever depth. A text with a block of
an unknown built-in type is refused, wherever the block stands.
-/

namespace Schematic

section Represented

/-- A text that may be absent is absent rather than empty. -/
def NotBlank (label : Option String) : Prop := label ≠ some ""

/-- How the format represents a block. -/
def BlockKind.IsProper : BlockKind → Prop
  | .input t => NotBlank t.name ∧ NotBlank t.range
  | .output t => NotBlank t.name ∧ NotBlank t.range
  | .constant c => NotBlank c.name
  | .code c => (∀ p ∈ c.parameters, NotBlank p.value) ∧
      (∀ p ∈ c.inputs, NotBlank p.range) ∧ ∀ p ∈ c.outputs, NotBlank p.range
  | .info => True
  | .circuit type => ¬ Format.primitivePrefix.toList <+: type.toList

/-- How the format represents the graph and the library of a project. -/
structure Project.IsProper (p : Project) : Prop where
  blocks : ∀ b ∈ p.graph.blocks, b.kind.IsProper
  names : (p.library.map Prod.fst).Nodup

/-- A project and all sub-circuits of its library, at every depth. -/
def Project.nested (p : Project) : List Project := p :: (Hierarchy.entries p.library).map Prod.snd

theorem Project.mem_nested_iff (p q : Project) :
    q ∈ p.nested ↔ q = p ∨ ∃ e ∈ p.library, q ∈ e.2.nested := by
  simp only [nested, List.mem_cons, List.mem_map]
  refine or_congr_right ?_
  constructor
  · rintro ⟨f, hf, rfl⟩
    obtain ⟨e, he, rfl | hf⟩ := (Hierarchy.mem_entries_iff _ _).mp hf
    · exact ⟨f, he, Or.inl rfl⟩
    · exact ⟨e, he, Or.inr ⟨f, hf, rfl⟩⟩
  · rintro ⟨e, he, rfl | ⟨f, hf, rfl⟩⟩
    · exact ⟨e, (Hierarchy.mem_entries_iff _ _).mpr ⟨e, he, Or.inl rfl⟩, rfl⟩
    · exact ⟨f, (Hierarchy.mem_entries_iff _ _).mpr ⟨e, he, Or.inr hf⟩, rfl⟩

end Represented

namespace Format

open Json

section Labels

theorem notBlank_none : NotBlank none := by simp [NotBlank]

theorem notBlank_of_readLabel {j : Json} {label : Option String}
    (h : (readLabel j : Read (Option String)) = .ok label) : NotBlank label := by
  obtain ⟨s, _, rfl⟩ := map_eq_ok_iff.mp h
  intro hblank
  have hfilter := (Option.filter_eq_some_iff.mp hblank).2
  simp at hfilter

theorem notBlank_of_readTerminal {n : Nat} {j : Json} {t : Terminal}
    (h : readTerminal n j = .ok t) : NotBlank t.name ∧ NotBlank t.range := by
  obtain ⟨m, rfl, hfilled⟩ := filled_readRecord terminalFields
    ["name", "range", "pins", "virtual", "default"] (fun _ => rfl) (by decide) h
  apply hfilled.induct (P := fun t => NotBlank t.name ∧ NotBlank t.range)
    ⟨notBlank_none, notBlank_none⟩
  simp only [terminalFields, List.forall_mem_cons, read_field_eq_ok_iff]
  refine ⟨?_, ?_, ?_, ?_, ?_, by simp⟩
  · rintro v _ _ ⟨x, hx, rfl⟩ t ht
    exact ⟨notBlank_of_readLabel hx, ht.2⟩
  · rintro v _ _ ⟨x, hx, rfl⟩ t ht
    exact ⟨ht.1, notBlank_of_readLabel hx⟩
  all_goals
    rintro v _ _ ⟨x, _, rfl⟩ t ht
    exact ht

theorem notBlank_of_readConstant {n : Nat} {j : Json} {c : Constant}
    (h : readConstant n j = .ok c) : NotBlank c.name := by
  obtain ⟨m, rfl, hfilled⟩ := filled_readRecord constantFields ["name", "value", "local"]
    (fun _ => rfl) (by decide) h
  apply hfilled.induct (P := fun c => NotBlank c.name) notBlank_none
  simp only [constantFields, List.forall_mem_cons, read_field_eq_ok_iff]
  refine ⟨?_, ?_, ?_, by simp⟩
  · rintro v _ _ ⟨x, hx, rfl⟩ c hc
    exact notBlank_of_readLabel hx
  all_goals
    rintro v _ _ ⟨x, _, rfl⟩ c hc
    exact hc

theorem notBlank_of_readCodeParameter (n : Nat) (j : Json) (p : CodeParameter)
    (h : readCodeParameter n j = .ok p) : NotBlank p.value := by
  obtain ⟨r, hr, h⟩ := bind_eq_ok_iff.mp h
  obtain ⟨name, _, h⟩ := bind_eq_ok_iff.mp h
  obtain rfl := Except.ok.inj h
  obtain ⟨m, rfl, hfilled⟩ := filled_readRecord codeParameterFields ["name", "value"]
    (fun _ => rfl) (by decide) hr
  apply hfilled.induct (P := fun r => NotBlank r.value) notBlank_none
  simp only [codeParameterFields, List.forall_mem_cons, read_field_eq_ok_iff]
  refine ⟨?_, ?_, by simp⟩
  · rintro v _ _ ⟨x, _, rfl⟩ r hr
    exact hr
  · rintro v _ _ ⟨x, hx, rfl⟩ r hr
    exact notBlank_of_readLabel hx

theorem notBlank_of_readCodePort (n : Nat) (j : Json) (p : CodePort)
    (h : readCodePort n j = .ok p) : NotBlank p.range := by
  obtain ⟨r, hr, h⟩ := bind_eq_ok_iff.mp h
  obtain ⟨name, _, h⟩ := bind_eq_ok_iff.mp h
  obtain rfl := Except.ok.inj h
  obtain ⟨m, rfl, hfilled⟩ := filled_readRecord codePortFields ["name", "range", "default"]
    (fun _ => rfl) (by decide) hr
  apply hfilled.induct (P := fun r => NotBlank r.range) notBlank_none
  simp only [codePortFields, List.forall_mem_cons, read_field_eq_ok_iff]
  refine ⟨?_, ?_, ?_, by simp⟩
  · rintro v _ _ ⟨x, _, rfl⟩ r hr
    exact hr
  · rintro v _ _ ⟨x, hx, rfl⟩ r hr
    exact notBlank_of_readLabel hx
  · rintro v _ _ ⟨x, _, rfl⟩ r hr
    exact hr

theorem notBlank_of_readCodePorts {n : Nat} {j : Json} {ports : CodePorts}
    (h : readCodePorts n j = .ok ports) :
    (∀ p ∈ ports.inputs, NotBlank p.range) ∧ ∀ p ∈ ports.outputs, NotBlank p.range := by
  obtain ⟨m, rfl, hfilled⟩ := filled_readRecord codePortsFields ["in", "out"]
    (fun _ => rfl) (by decide) h
  apply hfilled.induct (P := fun ports =>
    (∀ p ∈ ports.inputs, NotBlank p.range) ∧ ∀ p ∈ ports.outputs, NotBlank p.range) (by simp)
  simp only [codePortsFields, List.forall_mem_cons, read_field_eq_ok_iff]
  refine ⟨?_, ?_, by simp⟩
  · rintro v _ _ ⟨x, hx, rfl⟩ ports hports
    exact ⟨forall_mem_readList notBlank_of_readCodePort hx, hports.2⟩
  · rintro v _ _ ⟨x, hx, rfl⟩ ports hports
    exact ⟨hports.1, forall_mem_readList notBlank_of_readCodePort hx⟩

theorem isProper_of_readCode {n : Nat} {j : Json} {c : Code} (h : readCode n j = .ok c) :
    (BlockKind.code c).IsProper := by
  obtain ⟨m, rfl, hfilled⟩ := filled_readRecord codeFields ["code", "params", "ports"]
    (fun _ => rfl) (by decide) h
  apply hfilled.induct (P := fun c => (BlockKind.code c).IsProper) (by simp [BlockKind.IsProper])
  simp only [codeFields, List.forall_mem_cons, read_field_eq_ok_iff]
  refine ⟨?_, ?_, ?_, by simp⟩
  · rintro v _ _ ⟨x, _, rfl⟩ c hc
    exact hc
  · rintro v _ _ ⟨x, hx, rfl⟩ c hc
    exact ⟨forall_mem_readList notBlank_of_readCodeParameter hx, hc.2⟩
  · rintro v _ _ ⟨x, hx, rfl⟩ c hc
    exact ⟨hc.1, notBlank_of_readCodePorts hx⟩

end Labels

section Blocks

theorem isProper_of_readKind {levels : Nat} {id type : String} {data : Json} {kind : BlockKind}
    (h : readKind levels id type data = .ok kind) : kind.IsProper := by
  unfold readKind at h
  split at h
  case isTrue =>
    split at h
    case h_1 =>
      obtain ⟨t, ht, rfl⟩ := map_eq_ok_iff.mp h
      exact notBlank_of_readTerminal (payload_eq_ok_iff.mp ht)
    case h_2 =>
      obtain ⟨t, ht, rfl⟩ := map_eq_ok_iff.mp h
      exact notBlank_of_readTerminal (payload_eq_ok_iff.mp ht)
    case h_3 =>
      obtain ⟨c, hc, rfl⟩ := map_eq_ok_iff.mp h
      exact notBlank_of_readConstant (payload_eq_ok_iff.mp hc)
    case h_4 =>
      obtain ⟨c, hc, rfl⟩ := map_eq_ok_iff.mp h
      exact isProper_of_readCode (payload_eq_ok_iff.mp hc)
    case h_5 =>
      obtain rfl := Except.ok.inj h
      trivial
    case h_6 => cases h
  case isFalse hbuiltin =>
    obtain rfl := Except.ok.inj h
    rw [List.isPrefixOf_iff_prefix] at hbuiltin
    exact hbuiltin

theorem isProper_of_readBlock (levels : Nat) (j : Json) (b : Block)
    (h : readBlock levels j = .ok b) : b.kind.IsProper := by
  obtain ⟨r, type, _, _, _, hkind⟩ := readBlock_eq_ok_iff.mp h
  exact isProper_of_readKind hkind

theorem isProper_of_readGraph {levels : Nat} {j : Json} {g : Graph}
    (h : readGraph levels j = .ok g) : ∀ b ∈ g.blocks, b.kind.IsProper := by
  obtain ⟨m, rfl, hfilled⟩ := filled_readRecord graphFields ["blocks", "wires"]
    (fun _ => rfl) (by decide) h
  apply hfilled.induct (P := fun g => ∀ b ∈ g.blocks, b.kind.IsProper) (by simp)
  simp only [graphFields, List.forall_mem_cons, read_field_eq_ok_iff]
  refine ⟨?_, ?_, by simp⟩
  · rintro v _ _ ⟨x, hx, rfl⟩ g hg
    exact forall_mem_readList isProper_of_readBlock hx
  · rintro v _ _ ⟨x, _, rfl⟩ g hg
    exact hg

theorem isProper_of_readDesign {levels : Nat} {j : Json} {d : Design}
    (h : readDesign levels j = .ok d) : ∀ b ∈ d.graph.blocks, b.kind.IsProper := by
  obtain ⟨m, rfl, hfilled⟩ := filled_readRecord designFields ["board", "graph"]
    (fun _ => rfl) (by decide) h
  apply hfilled.induct (P := fun d => ∀ b ∈ d.graph.blocks, b.kind.IsProper) (by simp)
  simp only [designFields, List.forall_mem_cons, read_field_eq_ok_iff]
  refine ⟨?_, ?_, by simp⟩
  · rintro v _ _ ⟨x, _, rfl⟩ d hd
    exact hd
  · rintro v _ _ ⟨x, hx, rfl⟩ d hd
    exact isProper_of_readGraph hx

end Blocks

section Projects

/-- Everything in a project that was read is represented as the format does it. The induction is on
the levels: the sub-circuits of a library are read with fewer. -/
theorem isProper_of_readProject {levels : Nat} {j : Json} {p : Project}
    (h : readProject levels j = .ok p) : ∀ q ∈ p.nested, q.IsProper := by
  induction levels using Nat.strongRecOn generalizing j p with
  | ind levels ih =>
      cases levels with
      | zero => cases h
      | succ n =>
          rw [readProject_succ] at h
          obtain ⟨m, hm, hfilled⟩ := filled_readRecord (projectFields (readLibrary n))
            ["design", "dependencies"] (fun _ => rfl) (by decide) h
          have hproper : p.IsProper ∧ ∀ e ∈ p.library, ∀ q ∈ e.2.nested, q.IsProper := by
            apply hfilled.induct
              (P := fun p => p.IsProper ∧ ∀ e ∈ p.library, ∀ q ∈ e.2.nested, q.IsProper)
              ⟨⟨by simp [default, Project.graph], List.nodup_nil⟩, by simp [default]⟩
            simp only [projectFields, List.forall_mem_cons, read_field_eq_ok_iff]
            refine ⟨?_, ?_, by simp⟩
            · rintro v _ _ ⟨x, hx, rfl⟩ p hp
              exact ⟨⟨isProper_of_readDesign hx, hp.1.names⟩, hp.2⟩
            · rintro v _ _ ⟨x, hx, rfl⟩ p hp
              obtain ⟨k, members, rfl, rfl, hentries⟩ := readLibrary_eq_ok_iff.mp hx
              obtain ⟨hnodup, hfrom, _⟩ := readEntries_reads (by simp) hentries
              refine ⟨⟨hp.1.blocks, hnodup⟩, ?_⟩
              intro e he
              obtain hnil | ⟨w, hw⟩ := hfrom e he
              · cases hnil
              · exact ih k (by omega) hw
          intro q hq
          rcases (Project.mem_nested_iff p q).mp hq with rfl | ⟨e, he, hq⟩
          · exact hproper.1
          · exact hproper.2 e he q hq

end Projects

section Refused

/-- A block stands in the graph of a project as written, or in that of a sub-circuit at any
depth. -/
inductive HasBlock : Json → Json → Prop
  | own {project design graph b : Json} {blocks : List Json} :
      (some "design", design) ∈ project.written ["design", "dependencies"] →
      (some "graph", graph) ∈ design.written ["board", "graph"] →
      (some "blocks", .array blocks) ∈ graph.written ["blocks", "wires"] →
      b ∈ blocks → HasBlock project b
  | inner {project inner b : Json} {type : Option String} {members : List Member} :
      (some "dependencies", .object members) ∈ project.written ["design", "dependencies"] →
      (type, inner) ∈ members → HasBlock inner b → HasBlock project b

/-- Every block of a project that was read has been read. -/
theorem exists_readBlock {j b : Json} (hb : HasBlock j b) {levels : Nat} {p : Project}
    (h : readProject levels j = .ok p) : ∃ n block, readBlock n b = .ok block := by
  induction hb generalizing levels p with
  | @own project design graph b blocks hdesign hgraph hblocks hb =>
      cases levels with
      | zero => cases h
      | succ n =>
          rw [readProject_succ] at h
          obtain ⟨_, d, _, hd⟩ := exists_read_of_readRecord (projectFields (readLibrary n))
            ["design", "dependencies"] (fun _ => rfl) (by decide) h hdesign fun _ => rfl
          obtain ⟨_, g, _, hg⟩ := exists_read_of_readRecord designFields ["board", "graph"]
            (fun _ => rfl) (by decide) hd hgraph fun _ => rfl
          obtain ⟨_, list, _, hlist⟩ := exists_read_of_readRecord graphFields ["blocks", "wires"]
            (fun _ => rfl) (by decide) hg hblocks fun _ => rfl
          obtain ⟨m, items, _, hitems, hread⟩ := readList_eq_ok_iff.mp hlist
          obtain rfl : blocks = items := Json.array.inj hitems
          obtain ⟨block, _, hblock⟩ := (mem_of_mapM_eq_ok hread).2 b hb
          exact ⟨m, block, hblock⟩
  | @inner project inner b type members hlibrary hinner _ ih =>
      cases levels with
      | zero => cases h
      | succ n =>
          rw [readProject_succ] at h
          obtain ⟨_, library, _, hread⟩ := exists_read_of_readRecord
            (projectFields (readLibrary n)) ["design", "dependencies"] (fun _ => rfl) (by decide) h
            hlibrary fun _ => rfl
          obtain ⟨k, entries, rfl, hobject, hentries⟩ := readLibrary_eq_ok_iff.mp hread
          obtain rfl : members = entries := Json.object.inj hobject
          obtain ⟨q, hq⟩ := (readEntries_reads (by simp) hentries).2.2 _ hinner
          exact ih hq

end Refused

end Format

namespace Project

open Format Json

/-- A design that was read is represented as the format does it, at every depth, and a text with a
block of an unknown built-in type is refused, at whatever depth it stands. -/
theorem ofText_proper (text : String) :
    (∀ p, Project.ofText text = .ok p → ∀ q ∈ p.nested, q.IsProper) ∧
    ∀ b type, HasBlock (Document.ofText text).root b →
      (some "type", Json.ofText type) ∈ b.written ["id", "type", "data"] →
      primitivePrefix.toList <+: type.toList → type ∉ primitiveTypes →
      ∃ e, Project.ofText text = .error e := by
  constructor
  · intro p hp
    exact isProper_of_readProject (readDocument_eq_ok_iff.mp hp).1
  · intro b type hb htype hbuiltin hunknown
    cases h : Project.ofText text with
    | error e => exact ⟨e, rfl⟩
    | ok p =>
        obtain ⟨n, block, hblock⟩ := exists_readBlock hb (readDocument_eq_ok_iff.mp h).1
        obtain ⟨r, found, hrecord, _, hfound, hkind⟩ := readBlock_eq_ok_iff.mp hblock
        obtain rfl : type = found :=
          Option.some.inj ((type_of_readRecord hrecord htype).symm.trans hfound)
        exact absurd (mem_primitiveTypes_of_readKind hbuiltin hkind) hunknown

/-- A design whose terminal has an empty label and whose library holds a part with a part of its
own, that with an empty parameter. -/
def nestedText : String :=
  "[[null,[[[\"a\",\"basic.input\",\x7b\"name\":\"\"\x7d],[\"b\",\"part\"]]]],\x7b\"part\":[[]," ++
  "\x7b\"core\":[[null,[[\x7b\"data\":\x7b\"params\":[[\"N\",\"\"]]\x7d,\"type\":\"basic.code\"," ++
  "\"id\":\"c\"\x7d]]]]\x7d]\x7d]"

/-- A design whose library holds a block of an unknown built-in type. -/
def unknownText : String :=
  "\x7b\"dependencies\":\x7b\"part\":[[null,[[[\"c\",\"basic.custom\"]]]]]\x7d\x7d"

set_option maxRecDepth 1000 in
theorem root_unknownText : (Document.ofText unknownText).root =
    .object [(some "dependencies", .object [(some "part", .array [.array [.null,
      .array [.array [.array [.ofText "c", .ofText "basic.custom"]]]]])])] := by
  rfl

theorem ofText_proper_nested :
    (∃ p, Project.ofText nestedText = .ok p ∧ (∀ q ∈ p.nested, q.IsProper) ∧
      p.nested.map (·.graph.blocks) =
        [[⟨"a", .input {}⟩, ⟨"b", .circuit "part"⟩], [],
         [⟨"c", .code { parameters := [⟨"N", none⟩] }⟩]]) ∧
    ∃ e, Project.ofText unknownText = .error e := by
  constructor
  · have hread : (Project.ofText nestedText).toOption.map (fun p => p.nested.map (·.graph.blocks)) =
        some [[⟨"a", .input {}⟩, ⟨"b", .circuit "part"⟩], [],
          [⟨"c", .code { parameters := [⟨"N", none⟩] }⟩]] := by
      decide +kernel
    cases h : Project.ofText nestedText with
    | error e =>
        rw [h] at hread
        cases hread
    | ok p =>
        rw [h] at hread
        exact ⟨p, rfl, (ofText_proper nestedText).1 p h, Option.some.inj hread⟩
  · apply (ofText_proper unknownText).2 (.array [.ofText "c", .ofText "basic.custom"])
      "basic.custom"
    · rw [root_unknownText]
      refine .inner List.mem_cons_self List.mem_cons_self ?_
      exact .own List.mem_cons_self (List.mem_cons_of_mem _ List.mem_cons_self)
        List.mem_cons_self List.mem_cons_self
    · exact List.mem_cons_of_mem _ List.mem_cons_self
    · decide
    · decide

end Project

end Schematic
