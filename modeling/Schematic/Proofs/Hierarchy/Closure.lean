import Schematic.Proofs.Hierarchy.Compiled

/-!
# Flattened projects are closed

A sub-circuit whose name is taken is passed over together with its library, and an instance may
resolve to a library that the run has not come to yet. All the same every instance has its module
once the run is over: the libraries that an instance can see are exactly those that the run goes
through before it ends.
-/

namespace Schematic.Hierarchy

/-- Where the types in sight and the code blocks have modules, so has every instance. -/
theorem isEmitted_moduleName {ms : List Module} {s : Scope} {g : Graph} {parent : String}
    (hscope : ∀ l ∈ s, ∀ type ∈ l.map (·.1), isEmitted ms (Identifier.ofId type) = true)
    (hcode : ∀ m ∈ g.codeModules parent, isEmitted ms m.name = true) {b : Block}
    (hb : b ∈ g.blocks) (hresolves : s.Resolves b) (hinst : b.isInstance = true) :
    isEmitted ms (b.moduleName parent) = true := by
  rcases (b.isInstance_iff).mp hinst with ⟨c, hkind⟩ | ⟨type, hkind⟩
  · have hmem := (g.mem_codeModules_iff parent _).mpr ⟨b, hb, c, hkind, rfl⟩
    have hname : b.moduleName parent = (Module.ofCode (Module.codeName parent b.id) c).name := by
      simp [Block.moduleName, hkind, Module.ofCode]
    rw [hname]
    exact hcode _ hmem
  · obtain ⟨p, hp⟩ := hresolves type hkind
    obtain ⟨l, hl, hmem⟩ := Scope.mem_of_find? hp
    have hname : b.moduleName parent = Identifier.ofId type := by
      simp [Block.moduleName, hkind]
    rw [hname]
    exact hscope l hl type (List.mem_map.mpr ⟨_, hmem, rfl⟩)

/-- Each code and circuit block of the graph has its instance in the module, and the instance uses
a module that is there. -/
def Linked (ms : List Module) (m : Module) (g : Graph) : Prop :=
  ∃ list, m.body = .statements list ∧ ∀ b ∈ g.blocks, b.isInstance →
    .use (g.instanceOf m.name b) ∈ list ∧ ∃ n ∈ ms, n.name = (g.instanceOf m.name b).target

theorem linked_of_isEmitted {ms : List Module} {m : Module} {g : Graph} (hm : m.Realizes g)
    (h : ∀ b ∈ g.blocks, b.isInstance → isEmitted ms (b.moduleName m.name) = true) :
    Linked ms m g := by
  obtain ⟨list, hbody, huse, _⟩ := hm
  refine ⟨list, hbody, fun b hb hinst => ⟨(huse _).mpr ⟨b, hb, hinst, rfl⟩, ?_⟩⟩
  exact (isEmitted_iff ms _).mp (h b hb hinst)

namespace Compiled

variable {p : Project} {o : Options} {rules : BoardRules} {top : Top} {main : Module}
  {visits : List Visit} {ms : List Module}

theorem isEmitted_root (h : Compiled p o rules top main visits ms) :
    ∀ l ∈ Scope.root p, ∀ type ∈ l.map (·.1), isEmitted ms (Identifier.ofId type) = true := by
  obtain ⟨ms₁, hwalk, rfl⟩ := h.walk
  intro l hl type htype
  obtain rfl := List.mem_singleton.mp hl
  exact isEmitted_mono (extends_foldl_emit _ _).isPrefix (hwalk.isEmitted_type type htype)

/-- Every type that is in sight inside a rendered sub-circuit has its module. -/
theorem isEmitted_inside (h : Compiled p o rules top main visits ms) {v : Visit}
    (hv : v ∈ visits) :
    ∀ l ∈ v.inside, ∀ type ∈ l.map (·.1), isEmitted ms (Identifier.ofId type) = true := by
  have hroot := h.isEmitted_root
  obtain ⟨ms₁, hwalk, rfl⟩ := h.walk
  have hlibrary {w : Visit} (hw : w ∈ visits) {type : String} (htype : type ∈ w.types) :=
    isEmitted_mono (extends_foldl_emit (p.graph.codeModules main.name) ms₁).isPrefix
      (hwalk.isEmitted_types hw htype)
  intro l hl type htype
  rcases List.mem_cons.mp hl with rfl | hl
  · exact hlibrary hv htype
  · rcases hwalk.mem_scope v hv l hl with hl | ⟨w, hw, rfl⟩
    · exact hroot l hl type htype
    · exact hlibrary hw htype

theorem linked_main (h : Compiled p o rules top main visits ms) : Linked ms main top.graph := by
  obtain ⟨_, hrealizes, hresolves⟩ := Top.toModule_eq_ok h.main_eq
  refine linked_of_isEmitted hrealizes fun b hb hinst => ?_
  -- the code blocks that are emitted are those of the project's own graph
  have hown := Top.mem_blocks_of_isInstance h.top_eq hb hinst
  refine isEmitted_moduleName h.isEmitted_root ?_ hown (hresolves b hb) hinst
  obtain ⟨ms₁, _, rfl⟩ := h.walk
  exact (extends_foldl_emit _ _).taken

theorem linked_rendered (h : Compiled p o rules top main visits ms) {v : Visit}
    (hv : v ∈ visits) : Linked ms v.rendered v.project.graph := by
  obtain ⟨hname, hrealizes, hresolves⟩ := Graph.toModule_eq_ok (h.toModule_eq hv)
  refine linked_of_isEmitted hrealizes fun b hb hinst => ?_
  rw [hname]
  refine isEmitted_moduleName (h.isEmitted_inside hv) ?_ hb (hresolves b hb) hinst
  obtain ⟨ms₁, hwalk, rfl⟩ := h.walk
  intro m hm
  exact isEmitted_mono (extends_foldl_emit _ _).isPrefix (hwalk.isEmitted_code hv hm)

end Compiled

/-- The modules of a compilation have distinct names and use only each other: those that come from
graphs are the main module and those of the rendered sub-circuits, and all their instances have
modules. -/
theorem modules_linked {p : Project} {o : Options} {rules : BoardRules} {ms : List Module}
    (h : p.modules o rules = .ok ms) :
    (ms.map Module.name).Nodup ∧
      ∃ top main visits, Compiled p o rules top main visits ms ∧
        (∀ m ∈ ms, m = main ∨ (∃ v ∈ visits, m = v.rendered) ∨ ∃ code, m.body = .text code) ∧
        main ∈ ms ∧ Linked ms main top.graph ∧
        ∀ v ∈ visits, v.rendered ∈ ms ∧ Linked ms v.rendered v.project.graph := by
  obtain ⟨top, main, visits, hcompiled⟩ := (modules_eq_ok_iff p o rules ms).mp h
  refine ⟨hcompiled.nodup_names, top, main, visits, hcompiled, ?_, ?_, ?_, ?_⟩
  · intro m hm
    exact hcompiled.origin hm
  · exact hcompiled.main_mem
  · exact hcompiled.linked_main
  · intro v hv
    exact ⟨hcompiled.rendered_mem hv, hcompiled.linked_rendered hv⟩

/-- A type that stands in two libraries, of which only the first is rendered; it looks outwards for
a type that comes later. -/
def overlapping : Project where
  design := { graph := { blocks := [⟨"u", .circuit "outer"⟩, ⟨"c", .code {}⟩] } }
  library := [
    ("outer", {
      design := { graph := { blocks := [⟨"i", .circuit "inner"⟩, ⟨"c", .code {}⟩] } }
      library := [("inner", {
        design := { graph := { blocks := [⟨"l", .circuit "leaf"⟩] } }
        library := [] })] }),
    ("inner", { design := { graph := { blocks := [⟨"o", .circuit "outer"⟩] } }, library := [] }),
    ("leaf", { design := { graph := { blocks := [⟨"c", .code {}⟩] } }, library := [] })]

/-- The type that stands in two libraries has one module, and so has the one it looks outwards
for. -/
theorem modules_linked_overlapping : ∃ ms main, overlapping.modules {} {} = .ok ms ∧
    ms.map Module.name =
      ["main", "vouter", "vinner", "vouter_vc", "vleaf", "vleaf_vc", "main_vc"] ∧
    (ms.map Module.name).Nodup ∧ main ∈ ms ∧ Linked ms main overlapping.graph := by
  obtain ⟨ms, hms, hnames⟩ : ∃ ms, overlapping.modules {} {} = .ok ms ∧ ms.map Module.name =
      ["main", "vouter", "vinner", "vouter_vc", "vleaf", "vleaf_vc", "main_vc"] :=
    ⟨_, rfl, by decide +kernel⟩
  obtain ⟨hnodup, top, main, _, hcompiled, _, hmain, hlinked, _⟩ := modules_linked hms
  have hgraph : top.graph = overlapping.graph :=
    congrArg Top.graph (Except.ok.inj (hcompiled.top_eq.symm.trans rfl))
  exact ⟨ms, main, hms, hnames, hnodup, hmain, hgraph ▸ hlinked⟩

end Schematic.Hierarchy
