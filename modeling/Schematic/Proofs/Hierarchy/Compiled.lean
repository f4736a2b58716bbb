import Schematic.Artifact.Generate
import Schematic.Proofs.BoardDefault.Growth
import Schematic.Proofs.Hierarchy.Walk

/-!
# Compilations that end well

A compilation is a chain of steps, each of which may fail. When none does, there is a top circuit,
a main module made from it, and a walk through the library. This module takes the chain apart once
and says which graph stands behind which module.
-/

namespace Schematic

/-- The module of a graph: its body has the instances of the graph's blocks and the assignments of
its wires, and no others. -/
def Module.Realizes (m : Module) (g : Graph) : Prop :=
  ∃ list, m.body = .statements list ∧
    (∀ inst, .use inst ∈ list ↔ ∃ b ∈ g.blocks, b.isInstance ∧ inst = g.instanceOf m.name b) ∧
    ∀ x y, .assign x y ∈ list ↔ .assign x y ∈ g.wiring

theorem Graph.toModule_eq_ok {g : Graph} {name : String} {s : Scope} {m : Module}
    (h : g.toModule name s = .ok m) :
    m.name = name ∧ m.Realizes g ∧ ∀ b ∈ g.blocks, s.Resolves b := by
  obtain ⟨list, hlist, rfl⟩ := map_eq_ok_iff.mp h
  refine ⟨rfl, ⟨list, rfl, ?_, ?_⟩, ((g.statements_eq_ok_iff name s list).mp hlist).1⟩
  · exact use_mem_statements_iff hlist
  · exact assign_mem_statements_iff hlist

theorem Graph.mem_codeModules_iff (g : Graph) (parent : String) (m : Module) :
    m ∈ g.codeModules parent ↔ ∃ b ∈ g.blocks, ∃ c, b.kind = .code c ∧
      m = Module.ofCode (Module.codeName parent b.id) c := by
  simp only [codeModules, List.mem_filterMap]
  constructor
  · rintro ⟨b, hb, hm⟩
    split at hm
    case h_1 c hkind => exact ⟨b, hb, c, hkind, (Option.some.inj hm).symm⟩
    case h_2 => cases hm
  · rintro ⟨b, hb, c, hkind, rfl⟩
    exact ⟨b, hb, by simp [hkind]⟩

/-- A known type stands in one of the libraries of the scope. -/
theorem Scope.mem_of_find? {s : Scope} {type : String} {p : Project}
    (h : s.find? type = some p) : ∃ l ∈ s, (type, p) ∈ l := by
  obtain ⟨l, hl, hlookup⟩ := List.exists_of_findSome?_eq_some h
  obtain ⟨before, after, rfl, _⟩ := List.lookup_eq_some_iff.mp hlookup
  exact ⟨_, hl, by simp⟩

namespace Top

/-- No identifier is the name of the main module. -/
theorem ofId_ne_moduleName (id : String) : Identifier.ofId id ≠ moduleName := by
  intro heq
  have hhead := Identifier.head?_ofId id
  rw [heq] at hhead
  exact absurd hhead (by decide)

/-- The code blocks of the top graph have no identifiers as names of modules. -/
theorem codeName_ne_ofId (id type : String) :
    Module.codeName moduleName id ≠ Identifier.ofId type := by
  intro heq
  have hhead := Identifier.head?_ofId type
  rw [← heq] at hhead
  simp [Module.codeName, moduleName] at hhead

/-- The top graph is the graph of the project after the requests of the options. -/
theorem exists_requests {p : Project} {o : Options} {rules : BoardRules} {top : Top}
    (h : ofProject p o rules = .ok top) :
    ∃ rs, p.graph.topRequests o (Scope.root p) = .ok rs ∧
      top.graph = rs.foldl Wiring.step p.graph := by
  obtain ⟨wiring, hwiring, rfl⟩ := map_eq_ok_iff.mp h
  obtain ⟨rs, hrs, rfl⟩ := map_eq_ok_iff.mp hwiring
  refine ⟨rs, hrs, ?_⟩
  cases rs with
  | nil => rfl
  | cons r rest => exact Wiring.graph_ofRequests p.graph (r :: rest)

/-- Requests add inputs to the graph of the project, and no other blocks. -/
theorem exists_blocks {p : Project} {o : Options} {rules : BoardRules} {top : Top}
    (h : ofProject p o rules = .ok top) :
    ∃ bs, top.graph.blocks = p.graph.blocks ++ bs ∧ ∀ b ∈ bs, ∃ t, b.kind = .input t := by
  obtain ⟨rs, _, hgraph⟩ := exists_requests h
  rw [hgraph]
  exact (Wiring.grows_foldl_step p.graph rs).exists_inputs

/-- Requests add no code or circuit blocks to the graph of the project. -/
theorem mem_blocks_of_isInstance {p : Project} {o : Options} {rules : BoardRules} {top : Top}
    (h : ofProject p o rules = .ok top) {b : Block} (hb : b ∈ top.graph.blocks)
    (hinst : b.isInstance = true) : b ∈ p.graph.blocks := by
  obtain ⟨bs, hbs, hinput⟩ := exists_blocks h
  rw [hbs] at hb
  rcases List.mem_append.mp hb with hb | hb
  · exact hb
  · obtain ⟨t, hkind⟩ := hinput b hb
    simp [Block.isInstance, hkind] at hinst

theorem toModule_eq_ok {t : Top} {s : Scope} {m : Module} (h : t.toModule s = .ok m) :
    m.name = moduleName ∧ m.Realizes t.graph ∧ ∀ b ∈ t.graph.blocks, s.Resolves b := by
  obtain ⟨list, hlist, rfl⟩ := map_eq_ok_iff.mp h
  refine ⟨rfl, ⟨_, rfl, ?_, ?_⟩, ((t.graph.statements_eq_ok_iff moduleName s list).mp hlist).1⟩
  · intro inst
    rw [← Graph.use_mem_statements_iff hlist]
    cases t.idlePins with
    | nil => simp
    | cons rule rest => simp
  · intro x y
    rw [← Graph.assign_mem_statements_iff hlist]
    cases t.idlePins with
    | nil => simp
    | cons rule rest => simp

end Top

namespace Hierarchy

/-- A compilation that ends well, with its top circuit, its main module and the sub-circuits it
rendered. -/
structure Compiled (p : Project) (o : Options) (rules : BoardRules) (top : Top) (main : Module)
    (visits : List Visit) (ms : List Module) : Prop where
  top_eq : Top.ofProject p o rules = .ok top
  main_eq : top.toModule (Scope.root p) = .ok main
  walk : ∃ ms₁, Walk [] (Scope.root p) p.library [main] visits ms₁ ∧
    ms = (p.graph.codeModules main.name).foldl emit ms₁

theorem modules_eq_ok_iff (p : Project) (o : Options) (rules : BoardRules) (ms : List Module) :
    p.modules o rules = .ok ms ↔ ∃ top main visits, Compiled p o rules top main visits ms := by
  constructor
  · intro h
    unfold Project.modules at h
    split at h
    case h_1 => cases h
    case h_2 top htop =>
      split at h
      case h_1 => cases h
      case h_2 main hmain =>
        obtain ⟨ms₁, hms₁, rfl⟩ := map_eq_ok_iff.mp h
        obtain ⟨visits, hwalk⟩ := (circuits_eq_ok_iff _ _ _ _ _).mp hms₁
        exact ⟨top, main, visits, htop, hmain, ms₁, hwalk, rfl⟩
  · rintro ⟨top, main, visits, htop, hmain, ms₁, hwalk, rfl⟩
    have hms₁ := (circuits_eq_ok_iff _ _ _ _ _).mpr ⟨visits, hwalk⟩
    simp only [Project.modules, htop, hmain]
    exact map_eq_ok_iff.mpr ⟨ms₁, hms₁, rfl⟩

namespace Compiled

variable {p : Project} {o : Options} {rules : BoardRules} {top : Top} {main : Module}
  {visits : List Visit} {ms : List Module}

theorem name_main (h : Compiled p o rules top main visits ms) : main.name = Top.moduleName :=
  (Top.toModule_eq_ok h.main_eq).1

theorem main_mem (h : Compiled p o rules top main visits ms) : main ∈ ms := by
  obtain ⟨ms₁, hwalk, rfl⟩ := h.walk
  apply (extends_foldl_emit _ _).isPrefix.subset
  exact hwalk.isPrefix.subset (List.mem_singleton_self main)

theorem rendered_mem (h : Compiled p o rules top main visits ms) {v : Visit} (hv : v ∈ visits) :
    v.rendered ∈ ms := by
  obtain ⟨ms₁, hwalk, rfl⟩ := h.walk
  exact (extends_foldl_emit _ _).isPrefix.subset (hwalk.rendered_mem hv)

theorem toModule_eq (h : Compiled p o rules top main visits ms) {v : Visit} (hv : v ∈ visits) :
    v.project.graph.toModule v.name v.inside = .ok v.rendered := by
  obtain ⟨ms₁, hwalk, _⟩ := h.walk
  exact hwalk.toModule_eq hv

/-- No two modules of a compilation have the same name. -/
theorem nodup_names (h : Compiled p o rules top main visits ms) : (ms.map Module.name).Nodup := by
  obtain ⟨ms₁, hwalk, rfl⟩ := h.walk
  apply (extends_foldl_emit _ _).nodup
  exact hwalk.nodup (List.nodup_singleton main.name)

/-- The modules of a compilation: the main module, those of sub-circuits, and those of code
blocks, whose bodies are the texts of the blocks. -/
theorem origin (h : Compiled p o rules top main visits ms) {m : Module} (hm : m ∈ ms) :
    m = main ∨ (∃ v ∈ visits, m = v.rendered) ∨ ∃ code, m.body = .text code := by
  have htext {g : Graph} {parent : String} (hcode : m ∈ g.codeModules parent) :
      ∃ code, m.body = .text code := by
    obtain ⟨b, _, c, _, rfl⟩ := (g.mem_codeModules_iff parent m).mp hcode
    exact ⟨_, rfl⟩
  obtain ⟨ms₁, hwalk, rfl⟩ := h.walk
  rcases (extends_foldl_emit _ _).origin m hm with hm | hm
  · rcases hwalk.origin m hm with hm | ⟨v, hv, hm | hm⟩
    · exact Or.inl (List.mem_singleton.mp hm)
    · exact Or.inr (Or.inl ⟨v, hv, hm⟩)
    · exact Or.inr (Or.inr (htext hm))
  · exact Or.inr (Or.inr (htext hm))

end Compiled

end Hierarchy

end Schematic
