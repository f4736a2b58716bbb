import Schematic.Proofs.Hierarchy.Entries
import Schematic.Proofs.Hierarchy.Closure

/-!
# Which sub-circuit an instance gets

An instance names its module by type alone. Its type is looked up in the libraries from the
innermost outwards, but the module that stands under the name is that of the first entry of the type
which the run came to. Where libraries hold different sub-circuits under one type, the two may
differ.
-/

namespace Schematic

namespace Hierarchy

section FirstEntries

mutual

/-- Enters a sub-circuit unless one of its type was met before. -/
def enter (type : String) : Project → List (String × Project) → List (String × Project)
  | ⟨design, library⟩, met =>
    if type ∈ met.map (·.1) then met else enterAll library (met ++ [(type, ⟨design, library⟩)])

/-- Enters the sub-circuits of a library in order. -/
def enterAll : List (String × Project) → List (String × Project) → List (String × Project)
  | [], met => met
  | (type, p) :: rest, met => enterAll rest (enter type p met)

end

theorem enter_of_mem {type : String} {met : List (String × Project)} (p : Project)
    (h : type ∈ met.map (·.1)) : enter type p met = met := by
  cases p
  simp only [enter, if_pos h]

theorem enter_of_not_mem {type : String} {met : List (String × Project)} (p : Project)
    (h : type ∉ met.map (·.1)) : enter type p met = enterAll p.library (met ++ [(type, p)]) := by
  cases p
  simp only [enter, if_neg h]

/-- The types that have a module are those that were met. -/
def Records (es met : List (String × Project)) (ms : List Module) : Prop :=
  ∀ e ∈ es, isEmitted ms (Identifier.ofId e.1) = true ↔ e.1 ∈ met.map (·.1)

/-- A run renders the entries that are the first of their type, in the order in which they are
met. -/
theorem Walk.enterAll_eq {es met : List (String × Project)} {nesting : List String} {s : Scope}
    {library : List (String × Project)} {ms ms' : List Module} {visits : List Visit}
    (h : Walk nesting s library ms visits ms') (hapart : NamesApart es)
    (hsub : entries library ⊆ es) (hrecords : Records es met ms) :
    enterAll library met = met ++ visits.map Visit.entry ∧
      Records es (met ++ visits.map Visit.entry) ms' := by
  induction h generalizing met with
  | done => simpa [enterAll] using hrecords
  | @known nesting s type p rest ms ms' visits hnesting hname _ ih =>
      obtain ⟨hfirst, _, hrest⟩ := entries_cons_subset.mp hsub
      rw [enterAll, enter_of_mem p ((hrecords (type, p) hfirst).mp hname)]
      exact ih hrest hrecords
  | @visit nesting s rest ms ms₁ ms₂ v inner later _ hnesting hname hmodule _ _ ihinner ihlater =>
      obtain ⟨hv, hlibrary, hrest⟩ := entries_cons_subset.mp hsub
      have hmname := name_of_toModule hmodule
      have hnew : v.type ∉ met.map (·.1) := by
        intro hmem
        have htaken := (hrecords v.entry hv).mpr hmem
        exact Bool.false_ne_true (hname.symm.trans htaken)
      have hrendered : Records es (met ++ [v.entry]) (ms ++ [v.rendered]) := by
        intro e he
        rw [hapart.isEmitted_rendered he hv hmname, hrecords e he, List.map_append,
          List.mem_append]
        simp [Visit.entry]
      obtain ⟨hinner, hrecords₁⟩ := ihinner hlibrary hrendered
      have hcode : Records es (met ++ [v.entry] ++ inner.map Visit.entry)
          ((v.project.graph.codeModules v.name).foldl emit ms₁) := by
        intro e he
        exact (hapart.isEmitted_code he hv ms₁).trans (hrecords₁ e he)
      obtain ⟨hlater, hrecords₂⟩ := ihlater hrest hcode
      have hall : met ++ [v.entry] ++ inner.map Visit.entry ++ later.map Visit.entry =
          met ++ (v :: (inner ++ later)).map Visit.entry := by simp
      rw [hall] at hlater hrecords₂
      refine ⟨?_, hrecords₂⟩
      rw [enterAll, enter_of_not_mem v.project hnew]
      exact (congrArg (enterAll rest) hinner).trans hlater

end FirstEntries

/-- A module that was made from a graph, and the scope in which the types of the graph were looked
up. -/
structure Origin where
  rendered : Module
  graph : Graph
  scope : Scope

/-- The modules of a compilation that come from graphs. -/
def origins (p : Project) (top : Top) (main : Module) (visits : List Visit) : List Origin :=
  ⟨main, top.graph, Scope.root p⟩ ::
    visits.map fun v => ⟨v.rendered, v.project.graph, v.inside⟩

/-- The one module with a name is that of a graph. -/
def Stands (ms : List Module) (name : String) (g : Graph) : Prop :=
  ∀ m, m ∈ ms ∧ m.name = name ↔ m = g.rendering name

theorem stands_of_mem {ms : List Module} {name : String} {g : Graph}
    (hnodup : (ms.map Module.name).Nodup) (h : g.rendering name ∈ ms) : Stands ms name g := by
  intro m
  constructor
  · rintro ⟨hm, hname⟩
    exact List.inj_on_of_nodup_map hnodup hm h hname
  · rintro rfl
    exact ⟨h, rfl⟩

/-- What stands under a name is determined up to how it is rendered. -/
theorem Stands.iff {ms : List Module} {name : String} {g g' : Graph} (h : Stands ms name g) :
    Stands ms name g' ↔ g'.rendering name = g.rendering name := by
  constructor
  · intro h'
    exact (h _).mp ((h' _).mpr rfl)
  · intro heq m
    rw [heq]
    exact h m

end Hierarchy

/-- The entries that a run through the libraries comes to first, one for each type. -/
def Project.firstEntries (p : Project) : List (String × Project) :=
  Hierarchy.enterAll p.library []

theorem Graph.name_ne_ofId {g : Graph} {m : Module} (hm : m ∈ g.codeModules Top.moduleName)
    (id : String) : m.name ≠ Identifier.ofId id := by
  obtain ⟨b, _, c, _, rfl⟩ := (g.mem_codeModules_iff _ _).mp hm
  exact Top.codeName_ne_ofId b.id id

namespace Hierarchy

namespace Compiled

variable {p : Project} {o : Options} {rules : BoardRules} {top : Top} {main : Module}
  {visits : List Visit} {ms : List Module} {u : Origin}

theorem origin_mem (h : Compiled p o rules top main visits ms)
    (hu : u ∈ origins p top main visits) : u.rendered ∈ ms := by
  rcases List.mem_cons.mp hu with rfl | hu
  · exact h.main_mem
  · obtain ⟨v, hv, rfl⟩ := List.mem_map.mp hu
    exact h.rendered_mem hv

theorem origin_resolves (h : Compiled p o rules top main visits ms)
    (hu : u ∈ origins p top main visits) : ∀ b ∈ u.graph.blocks, u.scope.Resolves b := by
  rcases List.mem_cons.mp hu with rfl | hu
  · exact (Top.toModule_eq_ok h.main_eq).2.2
  · obtain ⟨v, hv, rfl⟩ := List.mem_map.mp hu
    exact (Graph.toModule_eq_ok (h.toModule_eq hv)).2.2

/-- Types are looked up among the entries of the project, and all that are in sight have
modules. -/
theorem origin_scope (h : Compiled p o rules top main visits ms)
    (hu : u ∈ origins p top main visits) {type : String} {found : Project}
    (hfound : u.scope.find? type = some found) :
    (type, found) ∈ p.entries ∧ isEmitted ms (Identifier.ofId type) = true := by
  obtain ⟨l, hl, hmem⟩ := Scope.mem_of_find? hfound
  have htype : type ∈ l.map (·.1) := List.mem_map.mpr ⟨_, hmem, rfl⟩
  have hown : p.library ⊆ p.entries := fun e he => (mem_entries_iff _ e).mpr ⟨e, he, Or.inl rfl⟩
  rcases List.mem_cons.mp hu with rfl | hu
  · obtain rfl := List.mem_singleton.mp hl
    exact ⟨hown hmem, h.isEmitted_root _ hl type htype⟩
  · obtain ⟨v, hv, rfl⟩ := List.mem_map.mp hu
    refine ⟨?_, h.isEmitted_inside hv l hl type htype⟩
    obtain ⟨ms₁, hwalk, _⟩ := h.walk
    have hinside {w : Visit} (hw : w ∈ visits) : w.project.library ⊆ p.entries := by
      intro e he
      refine entries_subset p.library w.entry (hwalk.entry_mem w hw) ?_
      exact (mem_entries_iff _ e).mpr ⟨e, he, Or.inl rfl⟩
    rcases List.mem_cons.mp hl with rfl | hl
    · exact hinside hv hmem
    · rcases hwalk.mem_scope v hv l hl with hl | ⟨w, hw, rfl⟩
      · obtain rfl := List.mem_singleton.mp hl
        exact hown hmem
      · exact hinside hw hmem

/-- The sub-circuits that were rendered are the first ones of their types, and every type with a
module is among them. -/
theorem firstEntries_eq (h : Compiled p o rules top main visits ms)
    (hapart : NamesApart p.entries) :
    p.firstEntries = visits.map Visit.entry ∧ Records p.entries p.firstEntries ms := by
  obtain ⟨ms₁, hwalk, rfl⟩ := h.walk
  have hstart : Records p.entries [] [main] := by
    intro e _
    simp [isEmitted_main h.name_main e.1]
  obtain ⟨heq, hrecords⟩ := hwalk.enterAll_eq hapart (List.Subset.refl _) hstart
  rw [List.nil_append] at heq hrecords
  refine ⟨heq, fun e he => ?_⟩
  rw [Project.firstEntries, heq, ← hrecords e he, isEmitted_foldl_emit, or_iff_left]
  rintro ⟨m, hm, hname⟩
  rw [h.name_main] at hm
  exact Graph.name_ne_ofId hm e.1 hname

/-- The module of a type is that of its first entry. -/
theorem exists_stands (h : Compiled p o rules top main visits ms) (hapart : NamesApart p.entries)
    {e : String × Project} (he : e ∈ p.entries)
    (hemitted : isEmitted ms (Identifier.ofId e.1) = true) :
    ∃ first, p.firstEntries.lookup e.1 = some first ∧ (e.1, first) ∈ p.entries ∧
      Stands ms (Identifier.ofId e.1) first.graph := by
  obtain ⟨heq, hrecords⟩ := h.firstEntries_eq hapart
  obtain ⟨f, hf, htype⟩ := List.mem_map.mp ((hrecords e he).mp hemitted)
  obtain ⟨first, hfirst⟩ := Option.isSome_iff_exists.mp
    (List.lookup_isSome_iff.mpr ⟨f, hf, beq_iff_eq.mpr htype.symm⟩)
  obtain ⟨before, after, hsplit, _⟩ := List.lookup_eq_some_iff.mp hfirst
  obtain ⟨v, hv, hentry⟩ : ∃ v ∈ visits, v.entry = (e.1, first) := by
    rw [← List.mem_map, ← heq, hsplit]
    simp
  obtain ⟨htype, hproject⟩ := Prod.mk.inj hentry
  obtain ⟨ms₁, hwalk, _⟩ := h.walk
  have hrendered : v.rendered = first.graph.rendering (Identifier.ofId e.1) := by
    rw [← htype, ← hproject]
    exact ((Graph.toModule_eq_ok_iff _ _ _ _).mp (h.toModule_eq hv)).2
  refine ⟨first, hfirst, hentry ▸ hwalk.entry_mem v hv, ?_⟩
  exact stands_of_mem h.nodup_names (hrendered ▸ h.rendered_mem hv)

end Compiled

/-- An instance gets the sub-circuit that was met first under its type. This is the one that its
scope finds exactly when the two are rendered alike, and so in any case when all entries of the type
have the same graph. -/
theorem instances_stand_iff {p : Project} {o : Options} {rules : BoardRules} {ms : List Module}
    (h : p.modules o rules = .ok ms) (hapart : NamesApart p.entries) :
    ∃ top main visits, Compiled p o rules top main visits ms ∧
      ∀ u ∈ origins p top main visits, u.rendered ∈ ms ∧
        ∀ b ∈ u.graph.blocks, ∀ type, b.kind = .circuit type →
          ∃ found first, u.scope.find? type = some found ∧
            p.firstEntries.lookup type = some first ∧
            Stands ms (Identifier.ofId type) first.graph ∧
            (Stands ms (Identifier.ofId type) found.graph ↔
              found.graph.rendering (Identifier.ofId type) =
                first.graph.rendering (Identifier.ofId type)) ∧
            ((∀ q, (type, q) ∈ p.entries → q.graph = found.graph) →
              Stands ms (Identifier.ofId type) found.graph) := by
  obtain ⟨top, main, visits, hcompiled⟩ := (modules_eq_ok_iff p o rules ms).mp h
  refine ⟨top, main, visits, hcompiled, fun u hu => ⟨hcompiled.origin_mem hu, ?_⟩⟩
  intro b hb type hkind
  obtain ⟨found, hfound⟩ := hcompiled.origin_resolves hu b hb type hkind
  obtain ⟨hentry, hemitted⟩ := hcompiled.origin_scope hu hfound
  obtain ⟨first, hfirst, hmem, hstands⟩ := hcompiled.exists_stands hapart hentry hemitted
  refine ⟨found, first, hfound, hfirst, hstands, hstands.iff, fun hsame => ?_⟩
  rw [← hsame first hmem]
  exact hstands

/-- The instance in the top graph gets the sub-circuit that the library has under its type. -/
theorem instances_stand_iff_overlapping : NamesApart overlapping.entries ∧
    ∃ ms found, overlapping.modules {} {} = .ok ms ∧
      overlapping.library.lookup "outer" = some found ∧
      found.graph.blocks.map Block.id = ["i", "c"] ∧ Stands ms "vouter" found.graph := by
  obtain ⟨ms, hms⟩ : ∃ ms, overlapping.modules {} {} = .ok ms := ⟨_, rfl⟩
  have hapart : NamesApart overlapping.entries := ⟨by decide +kernel, by decide +kernel⟩
  obtain ⟨top, main, visits, hcompiled, hstand⟩ := instances_stand_iff hms hapart
  obtain rfl := Except.ok.inj (hcompiled.top_eq.symm.trans rfl)
  obtain ⟨_, hblocks⟩ := hstand _ List.mem_cons_self
  obtain ⟨found, first, hfound, hfirst, hstands, _⟩ :=
    hblocks ⟨"u", .circuit "outer"⟩ List.mem_cons_self "outer" rfl
  obtain rfl := Option.some.inj (hfound.symm.trans rfl)
  obtain rfl := Option.some.inj (hfirst.symm.trans rfl)
  exact ⟨hapart, ms, _, hms, rfl, rfl, hstands⟩

/-- A type with two sub-circuits, of which the inner one comes first and has no inputs. -/
def shadowed : Project where
  design := { graph := { blocks := [⟨"l", .circuit "leaf"⟩] } }
  library := [
    ("mid", { design := {}, library := [("leaf", { design := {}, library := [] })] }),
    ("leaf", {
      design := { graph := { blocks := [
        ⟨"k", .input { preset := some ⟨"clk", "21", true⟩ }⟩] } }
      library := [] })]

/-- The top graph finds the outer sub-circuit and binds its input; the module under the name is that
of the inner one, which has none. -/
theorem not_stands_shadowed : NamesApart shadowed.entries ∧
    ∃ ms top main visits, shadowed.modules { boardRules := true } {} = .ok ms ∧
      Compiled shadowed { boardRules := true } {} top main visits ms ∧
      ∃ u ∈ origins shadowed top main visits, ∃ b ∈ u.graph.blocks, b.kind = .circuit "leaf" ∧
        ∃ found, u.scope.find? "leaf" = some found ∧
          ¬ Stands ms (Identifier.ofId "leaf") found.graph := by
  let main : Module := {
    name := "main"
    inputs := [⟨"vclk", none⟩]
    body := .statements [.wire 0 none, .assign (.wire 0) (.name "vclk"),
      .use ⟨"vleaf", "vl", [], [⟨"vk", .wire 0⟩]⟩] }
  let mid : Module := { name := "vmid", body := .statements [] }
  let leaf : Module := { name := "vleaf", body := .statements [] }
  have hms : shadowed.modules { boardRules := true } {} = .ok [main, mid, leaf] := by
    decide +kernel
  obtain ⟨top, main', visits, hcompiled⟩ := (modules_eq_ok_iff _ _ _ _).mp hms
  refine ⟨⟨by decide +kernel, by decide +kernel⟩, _, top, main', visits, hms, hcompiled, ?_⟩
  obtain ⟨bs, hbs, _⟩ := Top.exists_blocks hcompiled.top_eq
  refine ⟨_, List.mem_cons_self, ⟨"l", .circuit "leaf"⟩, ?_, rfl, _, rfl, fun hstands => ?_⟩
  · exact hbs ▸ List.mem_cons_self
  · exact absurd ((hstands _).mpr rfl).1 (by decide +kernel)

end Hierarchy

end Schematic
