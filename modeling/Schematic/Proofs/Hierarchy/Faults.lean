import Schematic.Proofs.Hierarchy.AfterMain

/-!
# Where a compilation fails

The two faults of a compilation belong to places in the nested libraries of a project. A place is
given by the way down to it: a list of entries, each in the library of the one before. A run that
fails has come to a place whose type it is nested in, or where the graph has a block of a type that
no library on the way holds. When all names differ, the run comes to every place, and it fails
exactly when one of the graphs has such a block.
-/

namespace Schematic

namespace Scope

/-- A library in sight holds the type. -/
def Holds (s : Scope) (type : String) : Prop := ∃ l ∈ s, type ∈ l.map (·.1)

theorem isSome_find?_iff (s : Scope) (type : String) :
    (s.find? type).isSome = true ↔ s.Holds type := by
  rw [find?, List.findSome?_isSome_iff]
  refine exists_congr fun l => and_congr_right fun _ => ?_
  rw [List.lookup_isSome_iff, List.mem_map]
  refine exists_congr fun e => and_congr_right fun _ => ?_
  rw [beq_iff_eq, eq_comm]

theorem resolves_iff (s : Scope) (b : Block) :
    s.Resolves b ↔ ∀ type, b.kind = .circuit type → s.Holds type := by
  refine forall₂_congr fun type _ => ?_
  rw [← s.isSome_find?_iff, Option.isSome_iff_exists]

end Scope

theorem Block.fault?_eq_some_iff (b : Block) (s : Scope) (e : CompileFault) :
    b.fault? s = some e ↔
      ∃ type, b.kind = .circuit type ∧ ¬ s.Holds type ∧ e = .missingType b.id type := by
  unfold fault?
  cases b.kind with
  | circuit type => simp [s.isSome_find?_iff, eq_comm]
  | _ => simp

namespace Graph

theorem exists_block_of_fault? {g : Graph} {s : Scope} {e : CompileFault}
    (h : g.fault? s = some e) : ∃ id type, ⟨id, .circuit type⟩ ∈ g.blocks ∧ ¬ s.Holds type ∧
      e = .missingType id type := by
  obtain ⟨b, hb, hfault⟩ := List.exists_of_findSome?_eq_some h
  obtain ⟨type, hkind, hnot, rfl⟩ := (b.fault?_eq_some_iff s e).mp hfault
  exact ⟨b.id, type, hkind ▸ hb, hnot, rfl⟩

theorem toModule_eq_error_iff (g : Graph) (name : String) (s : Scope) (e : CompileFault) :
    g.toModule name s = .error e ↔ g.fault? s = some e := by
  rw [toModule, map_eq_error_iff, statements_eq_error_iff]

end Graph

section Ways

/-- The scope at the end of a way down. -/
def Scope.along (s : Scope) (path : List (String × Project)) : Scope :=
  path.foldl (fun s e => s.enter e.2) s

/-- The project at the end of a way down. -/
def Project.along (p : Project) (path : List (String × Project)) : Project :=
  path.foldl (fun _ e => e.2) p

namespace Hierarchy

/-- A way down into a library: each entry stands in the library of the one before, and the first in
the library itself. -/
def Descends : List (String × Project) → List (String × Project) → Prop
  | _, [] => True
  | library, e :: path => e ∈ library ∧ Descends e.2.library path

/-- An entry and all that lies inside it stand among the entries of a library in this order. -/
theorem cons_entries_sublist {library : List (String × Project)} {e : String × Project}
    (he : e ∈ library) : (e :: entries e.2.library).Sublist (entries library) := by
  induction library with
  | nil => cases he
  | cons f rest ih =>
      obtain ⟨type, q⟩ := f
      rw [entries_cons]
      rcases List.mem_cons.mp he with rfl | he
      · exact List.Sublist.cons_cons _ (List.sublist_append_left _ _)
      · exact ((ih he).trans (List.sublist_append_right _ _)).cons _

/-- The entries on a way down are entries of the library at different positions. -/
theorem Descends.sublist {library path : List (String × Project)} (h : Descends library path) :
    path.Sublist (entries library) := by
  induction path generalizing library with
  | nil => exact List.nil_sublist _
  | cons e path ih => exact ((ih h.2).cons_cons e).trans (cons_entries_sublist h.1)

theorem Descends.mono {library library' path : List (String × Project)}
    (h : Descends library path) (hsub : library ⊆ library') : Descends library' path := by
  cases path with
  | nil => trivial
  | cons e path => exact ⟨hsub h.1, h.2⟩

/-- A way down into a library goes into its first entry or into the rest. -/
theorem descends_cons {library path : List (String × Project)} {f : String × Project}
    (h : Descends (f :: library) path) :
    Descends library path ∨ ∃ tail, path = f :: tail ∧ Descends f.2.library tail := by
  cases path with
  | nil => exact Or.inl trivial
  | cons e tail =>
      rcases List.mem_cons.mp h.1 with rfl | he
      · exact Or.inr ⟨tail, rfl, h.2⟩
      · exact Or.inl ⟨he, h.2⟩

end Hierarchy

end Ways

namespace Hierarchy

section Failure

/-- An entry at the end of a way down is at fault: its type is one that it is nested in, or its
graph has a block of a type that is not known there. -/
def FaultAt (nesting : List String) (s : Scope) (path : List (String × Project))
    (e : String × Project) (fault : CompileFault) : Prop :=
  (fault = .nestedInItself e.1 ∧ (e.1 ∈ nesting ∨ e.1 ∈ path.map (·.1))) ∨
    e.2.graph.fault? (s.along (path ++ [e])) = some fault

/-- A fault inside a sub-circuit is a fault on the way through it. -/
theorem FaultAt.inside {nesting : List String} {s : Scope} {path : List (String × Project)}
    {type : String} {p : Project} {e : String × Project} {fault : CompileFault}
    (h : FaultAt (type :: nesting) (s.enter p) path e fault) :
    FaultAt nesting s ((type, p) :: path) e fault := by
  rcases h with ⟨hfault, hmem⟩ | hgraph
  · refine Or.inl ⟨hfault, ?_⟩
    simpa [or_comm, or_left_comm, or_assoc] using hmem
  · exact Or.inr hgraph

/-- A run that fails has come to an entry that is at fault. -/
theorem exists_faultAt_of_circuits (library : List (String × Project)) :
    ∀ nesting s ms failure, circuits nesting s library ms = .error failure →
      ∃ path e, Descends library (path ++ [e]) ∧ FaultAt nesting s path e failure.fault := by
  refine entries.induct
    (fun type p => ∀ nesting s ms failure, circuit nesting s type p ms = .error failure →
      ∃ path e, Descends [(type, p)] (path ++ [e]) ∧ FaultAt nesting s path e failure.fault)
    (fun library => ∀ nesting s ms failure, circuits nesting s library ms = .error failure →
      ∃ path e, Descends library (path ++ [e]) ∧ FaultAt nesting s path e failure.fault)
    ?_ ?_ ?_ library
  · intro type design library ih nesting s ms failure h
    have hhere : Descends [(type, ⟨design, library⟩)] ([] ++ [(type, ⟨design, library⟩)]) :=
      ⟨List.mem_singleton_self _, trivial⟩
    rw [circuit] at h
    split at h
    · rename_i hnesting
      cases h
      exact ⟨[], _, hhere, Or.inl ⟨rfl, Or.inl hnesting⟩⟩
    split at h
    · cases h
    split at h
    · rename_i fault hfault
      cases h
      exact ⟨[], _, hhere, Or.inr ((Graph.toModule_eq_error_iff _ _ _ _).mp hfault)⟩
    split at h
    · rename_i failure' hinner
      cases h
      obtain ⟨path, e, hpath, he⟩ := ih _ _ _ _ hinner
      exact ⟨_ :: path, e, ⟨List.mem_singleton_self _, hpath⟩, he.inside⟩
    · cases h
  · intro nesting s ms failure h
    simp [circuits] at h
  · intro type p rest ihfirst ihrest nesting s ms failure h
    rw [circuits] at h
    split at h
    · rename_i failure' hfirst
      cases h
      obtain ⟨path, e, hpath, he⟩ := ihfirst _ _ _ _ hfirst
      exact ⟨path, e, hpath.mono (by simp), he⟩
    · obtain ⟨path, e, hpath, he⟩ := ihrest _ _ _ _ h
      exact ⟨path, e, hpath.mono (List.subset_cons_self _ _), he⟩

end Failure

section Complete

/-- Every entry has a name of its own: no other entry has the same identifier, and no code block has
a module of that name. -/
structure NamesDistinct (es : List (String × Project)) : Prop where
  types : (es.map fun e => Identifier.ofId e.1).Nodup
  code : ∀ e ∈ es, ∀ f ∈ es, ∀ m ∈ f.2.graph.codeModules (Identifier.ofId f.1),
    m.name ≠ Identifier.ofId e.1

theorem NamesDistinct.apart {es : List (String × Project)} (h : NamesDistinct es) :
    NamesApart es where
  types := fun _ he _ hf heq => congrArg Prod.fst (List.inj_on_of_nodup_map h.types he hf heq)
  code := h.code

variable {es library : List (String × Project)} {nesting : List String} {s : Scope}
  {ms ms' : List Module} {visits : List Visit}

/-- The types that a run gives modules to are those of the sub-circuits it renders. -/
theorem Walk.isEmitted_ofId_iff (h : Walk nesting s library ms visits ms') (hapart : NamesApart es)
    (hsub : entries library ⊆ es) {e : String × Project} (he : e ∈ es) :
    isEmitted ms' (Identifier.ofId e.1) = true ↔
      isEmitted ms (Identifier.ofId e.1) = true ∨ ∃ v ∈ visits, v.type = e.1 := by
  constructor
  · intro htaken
    obtain ⟨m, hm, hname⟩ := (isEmitted_iff _ _).mp htaken
    rcases h.origin m hm with hm | ⟨v, hv, rfl | hcode⟩
    · exact Or.inl ((isEmitted_iff _ _).mpr ⟨m, hm, hname⟩)
    · rw [name_of_toModule (h.toModule_eq hv)] at hname
      exact Or.inr ⟨v, hv, hapart.types v.entry (hsub (h.entry_mem v hv)) e he hname⟩
    · exact absurd hname (hapart.code e he v.entry (hsub (h.entry_mem v hv)) m hcode)
  · rintro (htaken | ⟨v, hv, htype⟩)
    · exact isEmitted_mono h.isPrefix htaken
    · refine (isEmitted_iff _ _).mpr ⟨v.rendered, h.rendered_mem hv, ?_⟩
      rw [name_of_toModule (h.toModule_eq hv), ← htype]
      rfl

/-- None of the entries has a module. -/
def Untaken (es : List (String × Project)) (ms : List Module) : Prop :=
  ∀ e ∈ es, isEmitted ms (Identifier.ofId e.1) = false

/-- Rendering a sub-circuit takes no name but its own. -/
theorem Untaken.rendered {es' : List (String × Project)} {v : Visit} (h : Untaken es' ms)
    (hapart : NamesApart es) (hsub : es' ⊆ es) (hv : v.entry ∈ es)
    (hname : v.rendered.name = v.name) (hnot : v.name ∉ es'.map fun e => Identifier.ofId e.1) :
    Untaken es' (ms ++ [v.rendered]) := by
  intro e he
  refine Bool.eq_false_iff.mpr fun htaken => ?_
  rcases (hapart.isEmitted_rendered (hsub he) hv hname ms).mp htaken with hbefore | htype
  · simp [h e he] at hbefore
  · exact hnot (List.mem_map.mpr ⟨e, he, congrArg Identifier.ofId htype⟩)

/-- A run takes no names but those of the entries it goes through. -/
theorem Untaken.walked {es' : List (String × Project)} (h : Untaken es' ms)
    (hwalk : Walk nesting s library ms visits ms') (hapart : NamesApart es)
    (hlibrary : entries library ⊆ es) (hsub : es' ⊆ es)
    (hcross : ∀ f ∈ entries library, ∀ e ∈ es', Identifier.ofId f.1 ≠ Identifier.ofId e.1) :
    Untaken es' ms' := by
  intro e he
  refine Bool.eq_false_iff.mpr fun htaken => ?_
  rcases (hwalk.isEmitted_ofId_iff hapart hlibrary (hsub he)).mp htaken with
    hbefore | ⟨v, hv, htype⟩
  · simp [h e he] at hbefore
  · exact hcross v.entry (hwalk.entry_mem v hv) e he (congrArg Identifier.ofId htype)

theorem Untaken.code {es' : List (String × Project)} {f : String × Project} (h : Untaken es' ms)
    (hapart : NamesApart es) (hsub : es' ⊆ es) (hf : f ∈ es) :
    Untaken es' ((f.2.graph.codeModules (Identifier.ofId f.1)).foldl emit ms) := by
  intro e he
  rw [Bool.eq_false_iff, Ne, hapart.isEmitted_code (hsub he) hf, h e he]
  exact Bool.false_ne_true

/-- When all names differ and none is taken, a run renders every entry, in the scope at the end of
the way down to it. -/
theorem Walk.exists_visit_of_descends (h : Walk nesting s library ms visits ms')
    (hapart : NamesApart es) (hsub : entries library ⊆ es)
    (hnodup : ((entries library).map fun e => Identifier.ofId e.1).Nodup)
    (hfree : Untaken (entries library) ms) :
    ∀ path e, Descends library (path ++ [e]) →
      ∃ v ∈ visits, v.entry = e ∧ v.scope = s.along path := by
  induction h with
  | done =>
      intro path e hpath
      cases hpath.sublist.subset (List.mem_append_right path (List.mem_singleton_self e))
  | @known nesting s type p rest ms ms' visits _ hname _ _ =>
      have hnot := hfree (type, p) (by simp [entries_cons])
      exact absurd hname (by simp [hnot])
  | @visit nesting s rest ms ms₁ ms₂ v inner later hscope _ _ hmodule hinner hlater ihinner
      ihlater =>
      obtain ⟨hv, hlibrary, hrest⟩ := entries_cons_subset.mp hsub
      have hmname := name_of_toModule hmodule
      rw [entries_cons, List.map_cons, List.nodup_cons] at hnodup
      obtain ⟨hself, hothers⟩ := hnodup
      -- the names inside the sub-circuit and those after it stay free while it is rendered
      have hfree₁ : Untaken (entries v.project.library ++ entries rest) (ms ++ [v.rendered]) := by
        refine Untaken.rendered ?_ hapart (List.append_subset.mpr ⟨hlibrary, hrest⟩) hv hmname hself
        intro e he
        exact hfree e (by rw [entries_cons]; exact List.mem_cons_of_mem _ he)
      rw [List.map_append, List.nodup_append] at hothers
      obtain ⟨hnodup₁, hnodup₂, hcross⟩ := hothers
      have hfree₂ : Untaken (entries rest)
          ((v.project.graph.codeModules v.name).foldl emit ms₁) := by
        refine Untaken.code (f := v.entry) ?_ hapart hrest hv
        refine Untaken.walked ?_ hinner hapart hlibrary hrest ?_
        · exact fun e he => hfree₁ e (List.mem_append_right _ he)
        · exact fun f hf e he => hcross _ (List.mem_map_of_mem hf) _ (List.mem_map_of_mem he)
      have hinside := ihinner hlibrary hnodup₁ fun e he => hfree₁ e (List.mem_append_left _ he)
      have hafter := ihlater hrest hnodup₂ hfree₂
      intro path e hpath
      rcases descends_cons hpath with hpath | ⟨tail, heq, htail⟩
      · obtain ⟨w, hw, hentry, hwscope⟩ := hafter path e hpath
        exact ⟨w, by simp [hw], hentry, hwscope⟩
      · cases path with
        | nil =>
            obtain ⟨rfl, _⟩ := List.cons.inj heq
            exact ⟨v, List.mem_cons_self, rfl, hscope⟩
        | cons f path =>
            obtain ⟨rfl, rfl⟩ := List.cons.inj heq
            obtain ⟨w, hw, hentry, hwscope⟩ := hinside path e htail
            refine ⟨w, by simp [hw], hentry, ?_⟩
            rw [hwscope, ← hscope]
            rfl

end Complete

end Hierarchy

namespace Project

open Hierarchy

variable {p : Project} {o : Options} {rules : BoardRules}

/-- At every place of the project, the types of the blocks are held by a library on the way. -/
def KnowsTypes (p : Project) : Prop :=
  ∀ path, Descends p.library path → ∀ b ∈ (p.along path).graph.blocks,
    ∀ type, b.kind = .circuit type → ((Scope.root p).along path).Holds type

theorem along_concat (p : Project) (path : List (String × Project)) (e : String × Project) :
    p.along (path ++ [e]) = e.2 := by
  simp [along]

/-- A compilation that fails has come to an entry that is nested in itself, or to a graph with a
fault. -/
theorem exists_fault_of_verilog {fault : CompileFault} (h : p.verilog o rules = .error fault) :
    (∃ path e, Descends p.library (path ++ [e]) ∧ fault = .nestedInItself e.1 ∧
      e.1 ∈ path.map (·.1)) ∨
    ∃ path, Descends p.library path ∧
      (p.along path).graph.fault? ((Scope.root p).along path) = some fault := by
  cases hfault : p.graph.fault? (Scope.root p) with
  | some e =>
      rw [verilog, modules_of_fault hfault] at h
      cases h
      exact Or.inr ⟨[], trivial, hfault⟩
  | none =>
      obtain ⟨top, main, _, _, hmodules⟩ := modules_of_no_fault hfault o rules
      rw [verilog, hmodules, flatten] at h
      cases hrun : circuits [] (Scope.root p) p.library [main] with
      | ok ms => simp [hrun, Except.map] at h
      | error failure =>
          obtain rfl : failure.fault = fault := by simpa [hrun, Except.map] using h
          obtain ⟨path, e, hpath, ⟨heq, hmem⟩ | hgraph⟩ :=
            exists_faultAt_of_circuits _ _ _ _ _ hrun
          · exact Or.inl ⟨path, e, hpath, heq, hmem.resolve_left List.not_mem_nil⟩
          · exact Or.inr ⟨path ++ [e], hpath, by rw [along_concat]; exact hgraph⟩

theorem exists_verilog_iff : (∃ text, p.verilog o rules = .ok text) ↔
    ∃ ms, p.modules o rules = .ok ms := by
  rw [verilog]
  cases p.modules o rules <;> simp

/-- Without two entries of the same name a compilation fails only for a block of unknown type. -/
theorem exists_verilog_of_knowsTypes
    (hnodup : (p.entries.map fun e => Identifier.ofId e.1).Nodup) (hknows : p.KnowsTypes) :
    ∃ text, p.verilog o rules = .ok text := by
  cases h : p.verilog o rules with
  | ok text => exact ⟨text, rfl⟩
  | error fault =>
      rcases exists_fault_of_verilog h with ⟨path, e, hpath, _, hmem⟩ | ⟨path, hpath, hgraph⟩
      · -- two entries on the way would have the same name
        have hway := hnodup.sublist (hpath.sublist.map _)
        rw [List.map_append, List.nodup_append] at hway
        obtain ⟨f, hf, htype⟩ := List.mem_map.mp hmem
        refine absurd (congrArg Identifier.ofId htype) (hway.2.2 _ ?_ _ ?_)
        · exact List.mem_map.mpr ⟨f, hf, rfl⟩
        · exact List.mem_map.mpr ⟨e, List.mem_singleton_self e, rfl⟩
      · obtain ⟨id, type, hb, hnot, _⟩ := Graph.exists_block_of_fault? hgraph
        exact absurd (hknows path hpath _ hb type rfl) hnot

/-- When all names differ, a compilation that succeeds has looked up every type. -/
theorem knowsTypes_of_modules {ms : List Module} (h : p.modules o rules = .ok ms)
    (hnames : NamesDistinct p.entries) : p.KnowsTypes := by
  obtain ⟨top, main, visits, hcompiled⟩ := (modules_eq_ok_iff p o rules ms).mp h
  obtain ⟨ms₁, hwalk, _⟩ := hcompiled.walk
  intro path hpath b hb
  apply (Scope.resolves_iff _ b).mp
  rcases List.eq_nil_or_concat' path with rfl | ⟨path, e, rfl⟩
  · obtain ⟨bs, hbs, _⟩ := Top.exists_blocks hcompiled.top_eq
    apply (Top.toModule_eq_ok hcompiled.main_eq).2.2
    rw [hbs]
    exact List.mem_append_left _ hb
  · have hfree : Untaken p.entries [main] := fun e _ => isEmitted_main hcompiled.name_main e.1
    obtain ⟨v, hv, rfl, hscope⟩ := hwalk.exists_visit_of_descends hnames.apart
      (List.Subset.refl _) hnames.types hfree path e hpath
    have hresolves := (Graph.toModule_eq_ok (hwalk.toModule_eq hv)).2.2
    rw [along_concat] at hb
    have hinside : (Scope.root p).along (path ++ [v.entry]) = v.inside := by
      rw [Visit.inside, hscope, Scope.along, List.foldl_append]
      rfl
    rw [hinside]
    exact hresolves b hb

/-- A fault of a compilation is there in the project: a type that is nested in itself stands twice
on one way down, and a missing type is that of a block which is reached on a way whose libraries do
not hold it. When all names differ, only a missing type can make a compilation fail. -/
theorem verilog_faults_located (p : Project) (o : Options) (rules : BoardRules) :
    (∀ type, p.verilog o rules = .error (.nestedInItself type) →
      ∃ outer q inner q', Descends p.library (outer ++ (type, q) :: (inner ++ [(type, q')]))) ∧
    (∀ id type, p.verilog o rules = .error (.missingType id type) →
      ∃ path, Descends p.library path ∧ ⟨id, .circuit type⟩ ∈ (p.along path).graph.blocks ∧
        ¬ ((Scope.root p).along path).Holds type) ∧
    (NamesDistinct p.entries →
      ((∃ text, p.verilog o rules = .ok text) ↔ p.KnowsTypes)) := by
  refine ⟨fun type h => ?_, fun id type h => ?_, fun hnames => ⟨fun h => ?_, fun h => ?_⟩⟩
  · rcases exists_fault_of_verilog h with ⟨path, ⟨_, q'⟩, hpath, heq, hmem⟩ | ⟨path, _, hgraph⟩
    · cases heq
      obtain ⟨⟨_, q⟩, hq, rfl⟩ := List.mem_map.mp hmem
      obtain ⟨outer, inner, rfl⟩ := List.append_of_mem hq
      exact ⟨outer, q, inner, q', by simpa using hpath⟩
    · obtain ⟨_, _, _, _, heq⟩ := Graph.exists_block_of_fault? hgraph
      cases heq
  · rcases exists_fault_of_verilog h with ⟨_, _, _, heq, _⟩ | ⟨path, hpath, hgraph⟩
    · cases heq
    · obtain ⟨_, _, hb, hnot, heq⟩ := Graph.exists_block_of_fault? hgraph
      cases heq
      exact ⟨path, hpath, hb, hnot⟩
  · obtain ⟨ms, hms⟩ := exists_verilog_iff.mp h
    exact knowsTypes_of_modules hms hnames
  · exact exists_verilog_of_knowsTypes hnames.types h

/-- A sub-circuit `a` with a sub-circuit `b` inside, which has a block of a given type and a library
of its own. -/
def tower (type : String) (library : List (String × Project)) : Project where
  design := { graph := { blocks := [⟨"u", .circuit "a"⟩] } }
  library := [("a", {
    design := { graph := { blocks := [⟨"v", .circuit "b"⟩, ⟨"c", .code {}⟩] } }
    library := [("b", {
      design := { graph := { blocks := [⟨"x", .circuit type⟩] } }
      library := library })] })]

/-- The way through `b` comes to `a` again, the block in `b` has a type that is held nowhere, and a
block in `b` may have a type from further out. -/
theorem verilog_faults_located_tower :
    ((tower "a" [("a", default)]).verilog {} {} = .error (.nestedInItself "a") ∧
      ∃ outer q inner q', Descends (tower "a" [("a", default)]).library
        (outer ++ ("a", q) :: (inner ++ [("a", q')]))) ∧
    ((tower "gone" []).verilog {} {} = .error (.missingType "x" "gone") ∧
      ∃ path, Descends (tower "gone" []).library path ∧
        ⟨"x", .circuit "gone"⟩ ∈ ((tower "gone" []).along path).graph.blocks ∧
        ¬ ((Scope.root (tower "gone" [])).along path).Holds "gone") ∧
    NamesDistinct (tower "a" []).entries ∧
      ((∃ text, (tower "a" []).verilog {} {} = .ok text) ↔ (tower "a" []).KnowsTypes) := by
  have hnames : NamesDistinct (tower "a" []).entries := ⟨by decide +kernel, by decide +kernel⟩
  refine ⟨⟨rfl, ?_⟩, ⟨rfl, ?_⟩, hnames, ?_⟩
  · exact (verilog_faults_located (tower "a" [("a", default)]) {} {}).1 "a" rfl
  · exact (verilog_faults_located (tower "gone" []) {} {}).2.1 "x" "gone" rfl
  · exact (verilog_faults_located (tower "a" []) {} {}).2.2 hnames

end Project

end Schematic
