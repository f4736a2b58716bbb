import Schematic.Proofs.Hierarchy.Traversal

/-!
# The names of code blocks

The module of a code block is named after the module around it and the id of the block, with a mark
between them. The mark may stand in ids and types as well, so a name may be read in several ways:
two code blocks share a name when a part of the one's id is the end of the other's surroundings,
and a type may have the name of a code block. The run keeps one module of each name. So it leaves
something out exactly when names are shared in one of these ways.
-/

namespace Schematic

namespace Identifier

/-- The id stands in its identifier as it is. -/
def IsLiteral (id : String) : Prop := '-' ∉ id.toList

instance : DecidablePred IsLiteral := fun id => inferInstanceAs (Decidable ('-' ∉ id.toList))

theorem ofId_inj {id id' : String} (h : IsLiteral id) (h' : IsLiteral id') :
    ofId id = ofId id' ↔ id = id' := by
  rw [ofId_of_not_mem h, ofId_of_not_mem h', String.append_right_inj]

end Identifier

namespace Module

open Identifier

theorem codeName_of_isLiteral (parent : String) {id : String} (h : IsLiteral id) :
    codeName parent id = parent ++ "_v" ++ id := by
  rw [codeName, ofId_of_not_mem h, ← String.toList_inj]
  simp

/-- A text that starts with the mark and has it further on as well. -/
theorem mark_append_cases {x b d : List Char} (h : '_' :: 'v' :: b = x ++ '_' :: 'v' :: d) :
    (x = [] ∧ b = d) ∨ ∃ mid, x = '_' :: 'v' :: mid ∧ b = mid ++ '_' :: 'v' :: d := by
  match x with
  | [] => simpa using h
  | [_] => simp at h
  | _ :: _ :: mid =>
    simp only [List.cons_append, List.cons.injEq] at h
    obtain ⟨rfl, rfl, h⟩ := h
    exact Or.inr ⟨mid, rfl, h⟩

/-- Two ways to read one name: the surroundings in the second are those in the first, the mark and
the beginning of the id in the first. -/
def Overlaps (parent id parent' id' : String) : Prop :=
  ∃ mid, parent' = parent ++ "_v" ++ mid ∧ id = mid ++ "_v" ++ id'

theorem append_mark_eq_iff (parent id parent' id' : String) :
    parent ++ "_v" ++ id = parent' ++ "_v" ++ id' ↔
      (parent = parent' ∧ id = id') ∨ Overlaps parent id parent' id' ∨
        Overlaps parent' id' parent id := by
  have hoverlap {p i q j : String} {x : List Char} (hq : q.toList = p.toList ++ x)
      (hi : '_' :: 'v' :: i.toList = x ++ '_' :: 'v' :: j.toList) :
      (p = q ∧ i = j) ∨ Overlaps p i q j := by
    rcases mark_append_cases hi with ⟨rfl, hid⟩ | ⟨mid, rfl, hid⟩
    · exact Or.inl ⟨String.toList_inj.mp (by simpa using hq.symm), String.toList_inj.mp hid⟩
    · refine Or.inr ⟨String.ofList mid, ?_, ?_⟩
      · rw [← String.toList_inj]
        simpa using hq
      · rw [← String.toList_inj]
        simpa using hid
  constructor
  · intro h
    have hlist : parent.toList ++ '_' :: 'v' :: id.toList =
        parent'.toList ++ '_' :: 'v' :: id'.toList := by
      simpa using congrArg String.toList h
    rcases List.append_eq_append_iff.mp hlist with ⟨x, hparent, hid⟩ | ⟨x, hparent, hid⟩
    · exact (hoverlap hparent hid).imp_right Or.inl
    · exact (hoverlap hparent hid).imp (fun h => ⟨h.1.symm, h.2.symm⟩) Or.inr
  · rintro (⟨rfl, rfl⟩ | ⟨mid, rfl, rfl⟩ | ⟨mid, rfl, rfl⟩)
    · rfl
    · simp only [String.append_assoc]
    · simp only [String.append_assoc]

/-- Two code blocks have modules of the same name when they are the same, or when the name can be
read in both ways. -/
theorem codeName_eq_iff (parent parent' : String) {id id' : String} (h : IsLiteral id)
    (h' : IsLiteral id') :
    codeName parent id = codeName parent' id' ↔
      (parent = parent' ∧ id = id') ∨ Overlaps parent id parent' id' ∨
        Overlaps parent' id' parent id := by
  rw [codeName_of_isLiteral parent h, codeName_of_isLiteral parent' h', append_mark_eq_iff]

/-- A code block has a module that is named like a type when the type is that of its surroundings
with the mark and the id. -/
theorem codeName_eq_ofId_iff {type id type' : String} (htype : IsLiteral type) (hid : IsLiteral id)
    (htype' : IsLiteral type') :
    codeName (ofId type) id = ofId type' ↔ type' = type ++ "_v" ++ id := by
  rw [codeName_of_isLiteral _ hid, ofId_of_not_mem htype, ofId_of_not_mem htype',
    String.append_assoc, String.append_assoc, String.append_right_inj, eq_comm,
    String.append_assoc]

end Module

namespace Project

open Identifier Hierarchy

/-- The graphs of a project at every depth, with the names of their modules. -/
def namedGraphs (p : Project) : List (String × Graph) :=
  (Top.moduleName, p.graph) :: p.entries.map fun e => (ofId e.1, e.2.graph)

/-- All modules of a project but the main one, with none left out. -/
def parts (p : Project) : List Module :=
  libraryModules p.library ++ p.graph.codeModules Top.moduleName

/-- Types and ids are literal, and no two blocks of a graph have the same id. -/
structure PlainNames (p : Project) : Prop where
  types : ∀ e ∈ p.entries, IsLiteral e.1
  ids : ∀ x ∈ p.namedGraphs, ∀ b ∈ x.2.blocks, IsLiteral b.id
  distinct : ∀ x ∈ p.namedGraphs, x.2.DistinctIds

/-- No code block has a module named like a type, and code blocks whose modules have the same name
for different reasons have the same module. -/
structure CodeApart (p : Project) : Prop where
  types : ∀ e ∈ p.entries, ∀ f ∈ p.entries, ∀ b ∈ e.2.graph.blocks, ∀ c, b.kind = .code c →
    f.1 ≠ e.1 ++ "_v" ++ b.id
  code : ∀ e ∈ p.entries, ∀ f ∈ p.entries,
    ∀ b ∈ e.2.graph.blocks, ∀ c, b.kind = .code c →
    ∀ b' ∈ f.2.graph.blocks, ∀ c', b'.kind = .code c' →
    Module.Overlaps e.1 b.id f.1 b'.id → ∀ name, Module.ofCode name c = Module.ofCode name c'

/-- The name of a module tells which one it is. -/
def NamesTell (p : Project) : Prop :=
  ∀ m ∈ p.parts, ∀ n ∈ p.parts, m.name = n.name → m = n

end Project

namespace Hierarchy

open Identifier

theorem mem_libraryModules_iff_entries (l : List (String × Project)) (m : Module) :
    m ∈ libraryModules l ↔ ∃ e ∈ entries l, m = e.2.graph.rendering (ofId e.1) ∨
      m ∈ e.2.graph.codeModules (ofId e.1) := by
  refine libraryModules.induct
    (fun type p => m ∈ circuitModules type p ↔ ∃ e ∈ entriesOf type p,
      m = e.2.graph.rendering (ofId e.1) ∨ m ∈ e.2.graph.codeModules (ofId e.1))
    (fun l => m ∈ libraryModules l ↔ ∃ e ∈ entries l,
      m = e.2.graph.rendering (ofId e.1) ∨ m ∈ e.2.graph.codeModules (ofId e.1)) ?_ ?_ ?_ l
  · intro type design library ih
    rw [circuitModules_eq, entriesOf, List.mem_cons, List.mem_append, ih]
    simp only [List.mem_cons, exists_eq_or_imp, Project.graph]
    exact (or_congr_right or_comm).trans or_assoc.symm
  · simp [libraryModules, entries]
  · intro type p rest ihfirst ihrest
    rw [libraryModules, entries, List.mem_append, ihfirst, ihrest]
    simp only [List.mem_append, or_and_right, exists_or]

end Hierarchy

namespace Project

open Identifier Hierarchy

variable {p : Project}

theorem mem_parts_iff (p : Project) (m : Module) : m ∈ p.parts ↔
    (∃ e ∈ p.entries, m = e.2.graph.rendering (ofId e.1)) ∨
      ∃ x ∈ p.namedGraphs, m ∈ x.2.codeModules x.1 := by
  rw [parts, List.mem_append, mem_libraryModules_iff_entries]
  simp only [namedGraphs, List.mem_cons, List.mem_map, exists_eq_or_imp, and_or_left, exists_or]
  simp only [exists_exists_and_eq_and]
  exact or_right_comm.trans or_assoc

theorem rendering_mem_parts {e : String × Project} (he : e ∈ p.entries) :
    e.2.graph.rendering (ofId e.1) ∈ p.parts :=
  (p.mem_parts_iff _).mpr (Or.inl ⟨e, he, rfl⟩)

theorem ofCode_mem_parts {x : String × Graph} (hx : x ∈ p.namedGraphs) {b : Block}
    (hb : b ∈ x.2.blocks) {c : Code} (hkind : b.kind = .code c) :
    Module.ofCode (Module.codeName x.1 b.id) c ∈ p.parts :=
  (p.mem_parts_iff _).mpr
    (Or.inr ⟨x, hx, (x.2.mem_codeModules_iff x.1 _).mpr ⟨b, hb, c, hkind, rfl⟩⟩)

theorem namedGraph_mem {e : String × Project} (he : e ∈ p.entries) :
    (ofId e.1, e.2.graph) ∈ p.namedGraphs :=
  List.mem_cons_of_mem _ (List.mem_map.mpr ⟨e, he, rfl⟩)

/-- The module of a code block is not that of a graph. -/
theorem ofCode_ne_rendering (name name' : String) (c : Code) (g : Graph) :
    Module.ofCode name c ≠ g.rendering name' := by
  intro heq
  cases congrArg Module.body heq

theorem name_ne_moduleName {m : Module} (hm : m ∈ p.parts) : m.name ≠ Top.moduleName := by
  rcases (p.mem_parts_iff m).mp hm with ⟨e, _, rfl⟩ | ⟨x, _, hcode⟩
  · exact Top.ofId_ne_moduleName e.1
  · obtain ⟨b, _, c, _, rfl⟩ := (x.2.mem_codeModules_iff x.1 m).mp hcode
    intro heq
    have hmark : '_' ∈ (Module.codeName x.1 b.id).toList := by simp [Module.codeName]
    have hname : Module.codeName x.1 b.id = Top.moduleName := heq
    rw [hname] at hmark
    exact absurd hmark (by decide)

section Run

variable {o : Options} {rules : BoardRules} {ms : List Module}

/-- A name that tells its module is not taken by a code block where it is that of a type. -/
theorem NamesTell.apart (h : p.NamesTell) (htypes : ∀ e ∈ p.entries, IsLiteral e.1) :
    NamesApart p.entries where
  types := fun e he f hf heq => (ofId_inj (htypes e he) (htypes f hf)).mp heq
  code := by
    intro e he f hf m hm hname
    obtain ⟨b, hb, c, hkind, rfl⟩ := (f.2.graph.mem_codeModules_iff _ m).mp hm
    have hcode := ofCode_mem_parts (namedGraph_mem hf) hb hkind
    exact ofCode_ne_rendering _ _ _ _ (h _ hcode _ (rendering_mem_parts he) hname)

/-- A run leaves nothing out exactly when names tell the modules apart. -/
theorem kept_iff_namesTell (h : p.modules o rules = .ok ms)
    (htypes : ∀ e ∈ p.entries, IsLiteral e.1) (hone : OneProject p.entries) :
    (∀ m ∈ p.parts, m ∈ ms) ↔ p.NamesTell := by
  obtain ⟨top, main, visits, hcompiled⟩ := (modules_eq_ok_iff p o rules ms).mp h
  constructor
  · intro hkept m hm n hn hname
    exact List.inj_on_of_nodup_map hcompiled.nodup_names (hkept m hm) (hkept n hn) hname
  · intro htell m hm
    obtain ⟨ms₁, hwalk, heq⟩ := hcompiled.walk
    have hcovered : Covered p.entries [] [main] := by
      intro e _ _ hemitted
      simp [isEmitted_main hcompiled.name_main e.1] at hemitted
    obtain ⟨hms₁, _⟩ := hwalk.eq_foldl_emit (htell.apart htypes) hone (List.Subset.refl _) hcovered
    have hms : ms = p.parts.foldl emit [main] := by
      rw [heq, hms₁, hcompiled.name_main, parts, List.foldl_append]
    have hext := extends_foldl_emit p.parts [main]
    -- some module has the name; it is a part of the project and so the one in question
    obtain ⟨n, hn, hname⟩ := (isEmitted_iff _ _).mp (hext.taken m hm)
    rcases hext.origin n hn with hmain | hpart
    · rw [List.mem_singleton.mp hmain, hcompiled.name_main] at hname
      exact absurd hname.symm (name_ne_moduleName hm)
    · rw [hms, ← htell n hpart m hm hname]
      exact hn

end Run

section Names

/-- Projects that are alike have the same graph. -/
theorem graph_eq_of_alike {q r : Project} (h : alike q r = true) : q.graph = r.graph := by
  rcases q with ⟨design, library⟩
  have hparts : (design = r.design ∧ library.length = r.library.length) ∧
      allIn library r.library = true := by simpa [alike] using h
  exact congrArg Design.graph hparts.1.1

/-- The name of a graph's module tells which graph it is. -/
theorem graph_eq_of_name_eq (htypes : ∀ e ∈ p.entries, IsLiteral e.1)
    (hone : OneProject p.entries) {x y : String × Graph} (hx : x ∈ p.namedGraphs)
    (hy : y ∈ p.namedGraphs) (h : x.1 = y.1) : x.2 = y.2 := by
  rcases List.mem_cons.mp hx with rfl | hx
  · rcases List.mem_cons.mp hy with rfl | hy
    · rfl
    · obtain ⟨f, _, rfl⟩ := List.mem_map.mp hy
      exact absurd h.symm (Top.ofId_ne_moduleName f.1)
  · obtain ⟨e, he, rfl⟩ := List.mem_map.mp hx
    rcases List.mem_cons.mp hy with rfl | hy
    · exact absurd h (Top.ofId_ne_moduleName e.1)
    · obtain ⟨f, hf, rfl⟩ := List.mem_map.mp hy
      have htype := (ofId_inj (htypes e he) (htypes f hf)).mp h
      exact graph_eq_of_alike (hone e he f hf htype)

theorem overlaps_ofId_iff {type type' : String} (h : IsLiteral type) (h' : IsLiteral type')
    (id id' : String) :
    Module.Overlaps (ofId type) id (ofId type') id' ↔ Module.Overlaps type id type' id' := by
  rw [ofId_of_not_mem h, ofId_of_not_mem h']
  refine exists_congr fun mid => and_congr_left fun _ => ?_
  rw [String.append_assoc, String.append_assoc, String.append_right_inj, String.append_assoc]

/-- Names that can be read in two ways are those of code blocks in sub-circuits. -/
theorem exists_entries_of_overlaps {x y : String × Graph} (hx : x ∈ p.namedGraphs)
    (hy : y ∈ p.namedGraphs) {id id' : String} (h : Module.Overlaps x.1 id y.1 id') :
    (∃ e ∈ p.entries, x = (ofId e.1, e.2.graph)) ∧ ∃ f ∈ p.entries, y = (ofId f.1, f.2.graph) := by
  obtain ⟨mid, hparent, _⟩ := h
  rcases List.mem_cons.mp hy with rfl | hy
  · have hmark : '_' ∈ Top.moduleName.toList := by
      rw [show Top.moduleName = x.1 ++ "_v" ++ mid from hparent]
      simp
    exact absurd hmark (by decide)
  obtain ⟨f, hf, rfl⟩ := List.mem_map.mp hy
  rcases List.mem_cons.mp hx with rfl | hx
  · have hhead := head?_ofId f.1
    rw [show ofId f.1 = Top.moduleName ++ "_v" ++ mid from hparent] at hhead
    simp [Top.moduleName] at hhead
  obtain ⟨e, he, rfl⟩ := List.mem_map.mp hx
  exact ⟨⟨e, he, rfl⟩, f, hf, rfl⟩

/-- The modules of two code blocks have the same name for different reasons only if they are the
same. -/
theorem CodeApart.ofCode_eq (hapart : p.CodeApart) (htypes : ∀ e ∈ p.entries, IsLiteral e.1)
    {x y : String × Graph} (hx : x ∈ p.namedGraphs) (hy : y ∈ p.namedGraphs) {b b' : Block}
    (hb : b ∈ x.2.blocks) (hb' : b' ∈ y.2.blocks) {c c' : Code} (hkind : b.kind = .code c)
    (hkind' : b'.kind = .code c') (h : Module.Overlaps x.1 b.id y.1 b'.id) (name : String) :
    Module.ofCode name c = Module.ofCode name c' := by
  obtain ⟨⟨e, he, rfl⟩, f, hf, rfl⟩ := exists_entries_of_overlaps hx hy h
  have hover := (overlaps_ofId_iff (htypes e he) (htypes f hf) b.id b'.id).mp h
  exact hapart.code e he f hf b hb c hkind b' hb' c' hkind' hover name

/-- No code block has a module that is named like a type. -/
theorem CodeApart.codeName_ne (hapart : p.CodeApart) (hplain : p.PlainNames)
    {x : String × Graph} (hx : x ∈ p.namedGraphs) {b : Block} (hb : b ∈ x.2.blocks) {c : Code}
    (hkind : b.kind = .code c) {e : String × Project} (he : e ∈ p.entries) :
    Module.codeName x.1 b.id ≠ ofId e.1 := by
  have hid := hplain.ids x hx b hb
  rcases List.mem_cons.mp hx with rfl | hx
  · exact Top.codeName_ne_ofId b.id e.1
  · obtain ⟨f, hf, rfl⟩ := List.mem_map.mp hx
    rw [Ne, Module.codeName_eq_ofId_iff (hplain.types f hf) hid (hplain.types e he)]
    exact hapart.types f hf e he b hb c hkind

/-- Names tell the modules of a project apart when nothing is named like a code block but itself. -/
theorem CodeApart.namesTell (hapart : p.CodeApart) (hplain : p.PlainNames)
    (hone : OneProject p.entries) : p.NamesTell := by
  intro m hm n hn hname
  rcases (p.mem_parts_iff m).mp hm with ⟨e, he, rfl⟩ | ⟨x, hx, hmx⟩
  · rcases (p.mem_parts_iff n).mp hn with ⟨f, hf, rfl⟩ | ⟨y, hy, hny⟩
    · have hname : ofId e.1 = ofId f.1 := hname
      have hgraph := graph_eq_of_name_eq hplain.types hone (namedGraph_mem he) (namedGraph_mem hf)
        hname
      rw [show e.2.graph = f.2.graph from hgraph, hname]
    · obtain ⟨b, hb, c, hkind, rfl⟩ := (y.2.mem_codeModules_iff y.1 n).mp hny
      exact absurd hname.symm (hapart.codeName_ne hplain hy hb hkind he)
  · obtain ⟨b, hb, c, hkind, rfl⟩ := (x.2.mem_codeModules_iff x.1 m).mp hmx
    rcases (p.mem_parts_iff n).mp hn with ⟨f, hf, rfl⟩ | ⟨y, hy, hny⟩
    · exact absurd hname (hapart.codeName_ne hplain hx hb hkind hf)
    · obtain ⟨b', hb', c', hkind', rfl⟩ := (y.2.mem_codeModules_iff y.1 n).mp hny
      have hname : Module.codeName x.1 b.id = Module.codeName y.1 b'.id := hname
      rw [← hname]
      rcases (Module.codeName_eq_iff _ _ (hplain.ids x hx b hb) (hplain.ids y hy b' hb')).mp hname
        with ⟨hparent, hid⟩ | hover | hover
      · -- the same id in the same graph is the same block
        rw [← graph_eq_of_name_eq hplain.types hone hx hy hparent] at hb'
        rw [(hplain.distinct x hx).eq_of_id_eq hb hb' hid, hkind'] at hkind
        cases hkind
        rfl
      · exact hapart.ofCode_eq hplain.types hx hy hb hb' hkind hkind' hover _
      · exact (hapart.ofCode_eq hplain.types hy hx hb' hb hkind' hkind hover _).symm

theorem NamesTell.codeApart (h : p.NamesTell) (hplain : p.PlainNames) : p.CodeApart where
  types := by
    intro e he f hf b hb c hkind htype
    have hid := hplain.ids _ (namedGraph_mem he) b hb
    have hname := (Module.codeName_eq_ofId_iff (hplain.types e he) hid (hplain.types f hf)).mpr
      htype
    have hcode := ofCode_mem_parts (namedGraph_mem he) hb hkind
    exact ofCode_ne_rendering _ _ _ _ (h _ hcode _ (rendering_mem_parts hf) hname)
  code := by
    intro e he f hf b hb c hkind b' hb' c' hkind' hover name
    have hover := (overlaps_ofId_iff (hplain.types e he) (hplain.types f hf) b.id b'.id).mpr hover
    have hid := hplain.ids _ (namedGraph_mem he) b hb
    have hid' := hplain.ids _ (namedGraph_mem hf) b' hb'
    have hname := (Module.codeName_eq_iff _ _ hid hid').mpr (Or.inr (Or.inl hover))
    have heq := h _ (ofCode_mem_parts (namedGraph_mem he) hb hkind) _
      (ofCode_mem_parts (namedGraph_mem hf) hb' hkind') hname
    exact congrArg (fun m => { m with name := name }) heq

end Names

/-- What the names of code blocks can be confused with, and when that makes a run leave something
out. Two code blocks share a name exactly when they are the same or the name can be read in both
ways, and a code block is named like a type exactly when the type is that of its surroundings with
the mark and its id. A run leaves nothing out exactly when neither happens in the project, unless
the code blocks that share a name are equal. -/
theorem code_modules_kept_iff {p : Project} {o : Options} {rules : BoardRules} {ms : List Module}
    (h : p.modules o rules = .ok ms) (hplain : p.PlainNames) (hone : OneProject p.entries) :
    (∀ parent parent' id id', IsLiteral id → IsLiteral id' →
      (Module.codeName parent id = Module.codeName parent' id' ↔ (parent = parent' ∧ id = id') ∨
        Module.Overlaps parent id parent' id' ∨ Module.Overlaps parent' id' parent id)) ∧
    (∀ type id type', IsLiteral type → IsLiteral id → IsLiteral type' →
      Module.codeName Top.moduleName id ≠ ofId type' ∧
      (Module.codeName (ofId type) id = ofId type' ↔ type' = type ++ "_v" ++ id)) ∧
    ((∀ m ∈ p.parts, m ∈ ms) ↔ p.CodeApart) := by
  refine ⟨?_, ?_, ?_⟩
  · intro parent parent' id id' hid hid'
    exact Module.codeName_eq_iff parent parent' hid hid'
  · intro type id type' htype hid htype'
    exact ⟨Top.codeName_ne_ofId id type', Module.codeName_eq_ofId_iff htype hid htype'⟩
  · rw [kept_iff_namesTell h hplain.types hone]
    exact ⟨fun htell => htell.codeApart hplain, fun hapart => hapart.namesTell hplain hone⟩

/-- The modules that a run through everything meets twice are the same both times. -/
theorem code_modules_kept_iff_repeatedPart : repeatedPart.PlainNames ∧
    OneProject repeatedPart.entries ∧ ∃ ms, repeatedPart.modules {} {} = .ok ms ∧
    ms.map Module.name = ["main", "vmid", "vpart", "vbit", "vbit_vc", "vgate", "vgate_vc",
      "vmid_vc", "main_vc"] ∧
    (∀ m ∈ repeatedPart.parts, m ∈ ms) ∧ repeatedPart.CodeApart := by
  obtain ⟨ms, hms, hnames, hkept⟩ : ∃ ms, repeatedPart.modules {} {} = .ok ms ∧
      ms.map Module.name = ["main", "vmid", "vpart", "vbit", "vbit_vc", "vgate", "vgate_vc",
        "vmid_vc", "main_vc"] ∧ ∀ m ∈ repeatedPart.parts, m ∈ ms :=
    ⟨_, rfl, by decide +kernel, by decide +kernel⟩
  have hdistinct : ∀ x ∈ repeatedPart.namedGraphs, x.2.DistinctIds := by
    unfold Graph.DistinctIds
    decide +kernel
  have hplain : repeatedPart.PlainNames := ⟨by decide +kernel, by decide +kernel, hdistinct⟩
  have hone : OneProject repeatedPart.entries := by
    unfold OneProject
    decide +kernel
  obtain ⟨_, _, hiff⟩ := code_modules_kept_iff hms hplain hone
  exact ⟨hplain, hone, ms, hms, hnames, hkept, hiff.mp hkept⟩

/-- A code block `b` in a sub-circuit `a`, and a sub-circuit of type `a_vb`. -/
def marked : Project where
  design := { graph := { blocks := [⟨"u", .circuit "a"⟩, ⟨"w", .circuit "a_vb"⟩] } }
  library := [
    ("a", {
      design := { graph := { blocks := [⟨"b", .code { text := "// b" }⟩] } }
      library := [] }),
    ("a_vb", { design := { graph := { blocks := [⟨"q", .output {}⟩] } }, library := [] })]

/-- Names do not tell code blocks apart, nor from sub-circuits. Here the code block takes the name
of the sub-circuit, whose module is left out; both instances use the module of the code block. -/
theorem not_kept_marked :
    (Module.codeName (ofId "a") "b_vc" = Module.codeName (ofId "a_vb") "c" ∧
      ofId "a" ≠ ofId "a_vb") ∧
    Module.codeName (ofId "a") "b" = ofId "a_vb" ∧
    marked.PlainNames ∧ OneProject marked.entries ∧ ∃ ms, marked.modules {} {} = .ok ms ∧
      ∃ e ∈ marked.entries, e.2.graph.rendering (ofId e.1) ∉ ms := by
  let main : Module := {
    name := "main"
    body := .statements [.use ⟨"va", "vu", [], []⟩, .use ⟨"va_vb", "vw", [], []⟩] }
  let outer : Module := { name := "va", body := .statements [.use ⟨"va_vb", "vb", [], []⟩] }
  let code : Module := { name := "va_vb", body := .text "// b" }
  have hms : marked.modules {} {} = .ok [main, outer, code] := by decide +kernel
  have hdistinct : ∀ x ∈ marked.namedGraphs, x.2.DistinctIds := by
    unfold Graph.DistinctIds
    decide +kernel
  have hone : OneProject marked.entries := by
    unfold OneProject
    decide +kernel
  refine ⟨⟨by decide +kernel, by decide +kernel⟩, by decide +kernel,
    ⟨by decide +kernel, by decide +kernel, hdistinct⟩, hone, _, hms, ?_⟩
  refine ⟨("a_vb", _), List.mem_cons_of_mem _ List.mem_cons_self, ?_⟩
  decide +kernel

end Project

end Schematic
