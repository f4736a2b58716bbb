import Schematic.Proofs.Hierarchy.Compiled

/-!
# The sub-circuits of a project

A run through a project renders entries of its libraries, at any depth, and looks types up among
them. The module of an entry depends on nothing but its graph and its name. Which names are taken
says which types were rendered, as long as names tell the types apart.
-/

namespace Schematic

/-- The module of a graph whose types are all known. It does not depend on the scope. -/
def Graph.rendering (g : Graph) (name : String) : Module where
  name := name
  parameters := g.parameters
  inputs := g.inputPorts
  outputs := g.outputPorts
  body := .statements (g.wiring ++
    (g.blocks.filter Block.isInstance).map fun b => .use (g.instanceOf name b))

theorem Graph.toModule_eq_ok_iff (g : Graph) (name : String) (s : Scope) (m : Module) :
    g.toModule name s = .ok m ↔ (∀ b ∈ g.blocks, s.Resolves b) ∧ m = g.rendering name := by
  simp only [toModule, map_eq_ok_iff, statements_eq_ok_iff]
  constructor
  · rintro ⟨list, ⟨hresolves, rfl⟩, rfl⟩
    exact ⟨hresolves, rfl⟩
  · rintro ⟨hresolves, rfl⟩
    exact ⟨_, ⟨hresolves, rfl⟩, rfl⟩

namespace Hierarchy

mutual

/-- A sub-circuit with everything in its library. -/
def entriesOf (type : String) : Project → List (String × Project)
  | ⟨design, library⟩ => (type, ⟨design, library⟩) :: entries library

/-- The entries of a library and of the libraries inside, at every depth. -/
def entries : List (String × Project) → List (String × Project)
  | [] => []
  | (type, p) :: rest => entriesOf type p ++ entries rest

end

theorem entries_cons (type : String) (p : Project) (rest : List (String × Project)) :
    entries ((type, p) :: rest) = (type, p) :: (entries p.library ++ entries rest) := by
  cases p
  simp [entries, entriesOf]

theorem mem_entries_iff (l : List (String × Project)) (e : String × Project) :
    e ∈ entries l ↔ ∃ f ∈ l, e = f ∨ e ∈ entries f.2.library := by
  induction l with
  | nil => simp [entries]
  | cons f rest ih =>
      obtain ⟨type, p⟩ := f
      simp [entries_cons, ih, or_assoc]

theorem entries_cons_subset {type : String} {p : Project} {rest es : List (String × Project)} :
    entries ((type, p) :: rest) ⊆ es ↔
      (type, p) ∈ es ∧ entries p.library ⊆ es ∧ entries rest ⊆ es := by
  rw [entries_cons, List.cons_subset, List.append_subset]

/-- What lies inside an entry lies inside the library. -/
theorem entries_subset (l : List (String × Project)) :
    ∀ e ∈ entries l, entries e.2.library ⊆ entries l := by
  refine entries.induct
    (fun type p => ∀ e ∈ entriesOf type p, entries e.2.library ⊆ entriesOf type p)
    (fun l => ∀ e ∈ entries l, entries e.2.library ⊆ entries l) ?_ ?_ ?_ l
  · intro type design library ih e he
    have hinner : entries library ⊆ entriesOf type ⟨design, library⟩ := List.subset_cons_self _ _
    rcases List.mem_cons.mp he with rfl | he
    · exact hinner
    · exact List.Subset.trans (ih e he) hinner
  · simp [entries]
  · intro type p rest ihfirst ihrest e he
    rcases List.mem_append.mp he with he | he
    · exact List.subset_append_of_subset_left _ (ihfirst e he)
    · exact List.subset_append_of_subset_right _ (ihrest e he)

theorem isEmitted_foldl_emit (new ms : List Module) (name : String) :
    isEmitted (new.foldl emit ms) name = true ↔
      isEmitted ms name = true ∨ ∃ m ∈ new, m.name = name := by
  have hext := extends_foldl_emit new ms
  constructor
  · intro h
    obtain ⟨m, hm, hname⟩ := (isEmitted_iff _ _).mp h
    rcases hext.origin m hm with hm | hm
    · exact Or.inl ((isEmitted_iff _ _).mpr ⟨m, hm, hname⟩)
    · exact Or.inr ⟨m, hm, hname⟩
  · rintro (h | ⟨m, hm, rfl⟩)
    · exact isEmitted_mono hext.isPrefix h
    · exact hext.taken m hm

/-- The name of the main module is no identifier. -/
theorem isEmitted_main {main : Module} (hname : main.name = Top.moduleName) (type : String) :
    isEmitted [main] (Identifier.ofId type) = false := by
  simpa [isEmitted, hname] using (Top.ofId_ne_moduleName type).symm

/-- The entry that was rendered. -/
def Visit.entry (v : Visit) : String × Project := (v.type, v.project)

/-- Only entries of the library are rendered. -/
theorem Walk.entry_mem {nesting : List String} {s : Scope} {library : List (String × Project)}
    {ms ms' : List Module} {visits : List Visit} (h : Walk nesting s library ms visits ms') :
    ∀ v ∈ visits, v.entry ∈ entries library := by
  induction h with
  | done => simp
  | known _ _ _ ih =>
      intro v hv
      rw [entries_cons]
      exact List.mem_cons_of_mem _ (List.mem_append_right _ (ih v hv))
  | visit _ _ _ _ _ _ ihinner ihlater =>
      intro w hw
      rw [entries_cons]
      rcases List.mem_cons.mp hw with rfl | hw
      · exact List.mem_cons_self
      · refine List.mem_cons_of_mem _ (List.mem_append.mpr ?_)
        exact (List.mem_append.mp hw).imp (ihinner w) (ihlater w)

/-- Names tell sub-circuits apart: types with the same identifier are the same type, and no code
block has a module that is named like a type. -/
structure NamesApart (es : List (String × Project)) : Prop where
  types : ∀ e ∈ es, ∀ f ∈ es, Identifier.ofId e.1 = Identifier.ofId f.1 → e.1 = f.1
  code : ∀ e ∈ es, ∀ f ∈ es, ∀ m ∈ f.2.graph.codeModules (Identifier.ofId f.1),
    m.name ≠ Identifier.ofId e.1

namespace NamesApart

variable {es : List (String × Project)} {e : String × Project}

/-- Rendering a sub-circuit takes the name of its type and of no other. -/
theorem isEmitted_rendered (h : NamesApart es) (he : e ∈ es) {v : Visit} (hv : v.entry ∈ es)
    (hname : v.rendered.name = v.name) (ms : List Module) :
    isEmitted (ms ++ [v.rendered]) (Identifier.ofId e.1) = true ↔
      isEmitted ms (Identifier.ofId e.1) = true ∨ e.1 = v.type := by
  have htype : v.name = Identifier.ofId e.1 ↔ e.1 = v.type :=
    ⟨fun heq => (h.types _ hv e he heq).symm, fun heq => congrArg Identifier.ofId heq.symm⟩
  simp [isEmitted, hname, htype]

/-- Code blocks take the names of no types. -/
theorem isEmitted_code (h : NamesApart es) (he : e ∈ es) {f : String × Project} (hf : f ∈ es)
    (ms : List Module) :
    isEmitted ((f.2.graph.codeModules (Identifier.ofId f.1)).foldl emit ms)
      (Identifier.ofId e.1) = true ↔ isEmitted ms (Identifier.ofId e.1) = true := by
  rw [isEmitted_foldl_emit, or_iff_left]
  rintro ⟨m, hm, hname⟩
  exact h.code e he f hf m hm hname

end NamesApart

end Hierarchy

/-- All entries of the libraries of a project. -/
def Project.entries (p : Project) : List (String × Project) := Hierarchy.entries p.library

end Schematic
