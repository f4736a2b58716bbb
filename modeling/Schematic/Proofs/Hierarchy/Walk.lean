import Schematic.Netlist.Hierarchy
import Schematic.Proofs.Netlist.Statements
import Mathlib.Data.List.Nodup

/-!
# Runs of the flattening

A run that ends well is described once, as a relation: it passes over a type whose name is taken,
and otherwise renders the sub-circuit, runs through its library and adds its code blocks. The
relation keeps the list of what was rendered and where, which the modules themselves no longer
tell. Everything about flattened projects is proved by induction on it.
-/

namespace Schematic.Hierarchy

section Emission

theorem isEmitted_iff (ms : List Module) (name : String) :
    isEmitted ms name = true ↔ ∃ m ∈ ms, m.name = name := by
  simp [isEmitted]

theorem isEmitted_mono {ms ms' : List Module} {name : String} (hpre : ms <+: ms')
    (h : isEmitted ms name = true) : isEmitted ms' name = true := by
  obtain ⟨m, hm, hname⟩ := (isEmitted_iff ms name).mp h
  exact (isEmitted_iff ms' name).mpr ⟨m, hpre.subset hm, hname⟩

theorem emit_of_free {ms : List Module} {m : Module} (h : isEmitted ms m.name = false) :
    emit ms m = ms ++ [m] := by
  simp [emit, h]

/-- All that an emission can do. -/
theorem emit_cases (ms : List Module) (m : Module) :
    (isEmitted ms m.name = true ∧ emit ms m = ms) ∨
      (isEmitted ms m.name = false ∧ emit ms m = ms ++ [m]) := by
  cases h : isEmitted ms m.name with
  | true => exact Or.inl ⟨rfl, by simp [emit, h]⟩
  | false => exact Or.inr ⟨rfl, emit_of_free h⟩

/-- What emitting some modules makes of those emitted before: none is lost, every name is taken
afterwards, what is new was asked for, and the names stay distinct. -/
structure Extends (new ms ms' : List Module) : Prop where
  isPrefix : ms <+: ms'
  taken : ∀ m ∈ new, isEmitted ms' m.name = true
  origin : ∀ m ∈ ms', m ∈ ms ∨ m ∈ new
  nodup : (ms.map Module.name).Nodup → (ms'.map Module.name).Nodup

theorem nodup_append_free {ms : List Module} {m : Module} (h : isEmitted ms m.name = false)
    (hms : (ms.map Module.name).Nodup) : ((ms ++ [m]).map Module.name).Nodup := by
  rw [List.map_append, List.map_singleton]
  refine List.nodup_append.mpr ⟨hms, List.nodup_singleton _, ?_⟩
  intro name hname new hnew hsame
  obtain ⟨n, hn, rfl⟩ := List.mem_map.mp hname
  have htaken : isEmitted ms m.name = true :=
    (isEmitted_iff ms m.name).mpr ⟨n, hn, hsame.trans (List.mem_singleton.mp hnew)⟩
  simp [h] at htaken

theorem extends_emit (ms : List Module) (m : Module) : Extends [m] ms (emit ms m) := by
  rcases emit_cases ms m with ⟨htaken, heq⟩ | ⟨hfree, heq⟩
  · rw [heq]
    exact ⟨List.prefix_refl ms, by simpa using htaken, fun n hn => Or.inl hn, fun h => h⟩
  · rw [heq]
    refine ⟨List.prefix_append ms [m], ?_, fun n hn => List.mem_append.mp hn,
      nodup_append_free hfree⟩
    intro n hn
    exact (isEmitted_iff _ _).mpr ⟨n, List.mem_append_right ms hn, rfl⟩

theorem extends_foldl_emit (new ms : List Module) : Extends new ms (new.foldl emit ms) := by
  induction new generalizing ms with
  | nil => exact ⟨List.prefix_refl ms, by simp, fun n hn => Or.inl hn, fun h => h⟩
  | cons m rest ih =>
      have hfirst := extends_emit ms m
      have hrest := ih (emit ms m)
      refine ⟨hfirst.isPrefix.trans hrest.isPrefix, ?_, ?_, fun h => hrest.nodup (hfirst.nodup h)⟩
      · intro n hn
        rcases List.mem_cons.mp hn with rfl | hn
        · exact isEmitted_mono hrest.isPrefix (hfirst.taken _ (List.mem_singleton_self _))
        · exact hrest.taken n hn
      · intro n hn
        rcases hrest.origin n hn with hn | hn
        · rcases hfirst.origin n hn with hn | hn
          · exact Or.inl hn
          · exact Or.inr (List.mem_singleton.mp hn ▸ List.mem_cons_self)
        · exact Or.inr (List.mem_cons_of_mem m hn)

end Emission

/-- A rendered sub-circuit: its type, its project, the scope that holds it, and its module. -/
structure Visit where
  type : String
  project : Project
  scope : Scope
  rendered : Module

namespace Visit

/-- The name of the module. -/
def name (v : Visit) : String := Identifier.ofId v.type

/-- The scope of the graph inside. -/
def inside (v : Visit) : Scope := v.scope.enter v.project

/-- The types in the library of the sub-circuit. -/
def types (v : Visit) : List String := v.project.library.map (·.1)

end Visit

/-- A run through a library that ends well, with the sub-circuits rendered on the way. -/
inductive Walk : List String → Scope → List (String × Project) → List Module → List Visit →
    List Module → Prop
  | done {nesting : List String} {s : Scope} {ms : List Module} : Walk nesting s [] ms [] ms
  | known {nesting : List String} {s : Scope} {type : String} {p : Project}
      {rest : List (String × Project)} {ms ms' : List Module} {visits : List Visit}
      (hnesting : type ∉ nesting) (hname : isEmitted ms (Identifier.ofId type) = true)
      (tail : Walk nesting s rest ms visits ms') :
      Walk nesting s ((type, p) :: rest) ms visits ms'
  | visit {nesting : List String} {s : Scope} {rest : List (String × Project)}
      {ms ms₁ ms₂ : List Module} {v : Visit} {inner later : List Visit}
      (hscope : v.scope = s) (hnesting : v.type ∉ nesting) (hname : isEmitted ms v.name = false)
      (hmodule : v.project.graph.toModule v.name v.inside = .ok v.rendered)
      (hinner : Walk (v.type :: nesting) v.inside v.project.library (ms ++ [v.rendered]) inner ms₁)
      (hlater : Walk nesting s rest ((v.project.graph.codeModules v.name).foldl emit ms₁)
        later ms₂) :
      Walk nesting s ((v.type, v.project) :: rest) ms (v :: (inner ++ later)) ms₂

theorem name_of_toModule {g : Graph} {name : String} {s : Scope} {m : Module}
    (h : g.toModule name s = .ok m) : m.name = name := by
  obtain ⟨list, _, rfl⟩ := map_eq_ok_iff.mp h
  rfl

/-- A run of the program that ends well is a walk. -/
theorem exists_walk_of_circuits (nesting : List String) (s : Scope)
    (library : List (String × Project)) (ms : List Module) :
    ∀ ms', circuits nesting s library ms = .ok ms' →
      ∃ visits, Walk nesting s library ms visits ms' := by
  -- for one sub-circuit: whatever the run does after it is a walk, so the whole is
  refine circuits.induct
    (fun nesting s type p ms => ∀ rest ms₁ later ms₂, circuit nesting s type p ms = .ok ms₁ →
      Walk nesting s rest ms₁ later ms₂ →
      ∃ visits, Walk nesting s ((type, p) :: rest) ms visits ms₂)
    (fun nesting s library ms => ∀ ms', circuits nesting s library ms = .ok ms' →
      ∃ visits, Walk nesting s library ms visits ms')
    ?_ ?_ ?_ ?_ ?_ ?_ ?_ ?_ nesting s library ms
  · intro nesting s type design library ms hnesting rest ms₁ later ms₂ h
    simp [circuit, hnesting] at h
  · intro nesting s type design library ms name hnesting hname rest ms₁ later ms₂ h hlater
    obtain rfl : ms = ms₁ := by simpa [circuit, hnesting, hname, name] using h
    exact ⟨later, .known hnesting hname hlater⟩
  · intro nesting s type design library ms name hnesting hname e he rest ms₁ later ms₂ h
    simp [circuit, hnesting, hname, he, name] at h
  · intro nesting s type design library ms name hnesting hname m hm e he _ rest ms₁ later ms₂ h
    simp [circuit, hnesting, hname, hm, he, name] at h
  · intro nesting s type design library ms name hnesting hname m hm emitted hemitted ih rest ms₁
      later ms₂ h hlater
    obtain rfl : (design.graph.codeModules name).foldl emit emitted = ms₁ := by
      simpa [circuit, hnesting, hname, hm, hemitted, name] using h
    have hfree : isEmitted ms name = false := by simpa using hname
    rw [emit_of_free (by rw [name_of_toModule hm, hfree])] at hemitted ih
    obtain ⟨inner, hinner⟩ := ih emitted hemitted
    exact ⟨_, .visit (v := ⟨type, ⟨design, library⟩, s, m⟩) rfl hnesting hfree hm hinner hlater⟩
  · intro nesting s ms ms' h
    obtain rfl : ms = ms' := by simpa [circuits] using h
    exact ⟨[], .done⟩
  · intro nesting s type p rest ms e he _ ms' h
    simp [circuits, he] at h
  · intro nesting s type p rest ms emitted hemitted ihfirst ihrest ms' h
    obtain ⟨later, hlater⟩ := ihrest ms' (by simpa [circuits, hemitted] using h)
    exact ihfirst rest emitted later ms' hemitted hlater

/-- The walks are exactly the runs of the program that end well. -/
theorem circuits_eq_ok_iff (nesting : List String) (s : Scope) (library : List (String × Project))
    (ms ms' : List Module) :
    circuits nesting s library ms = .ok ms' ↔ ∃ visits, Walk nesting s library ms visits ms' := by
  constructor
  · exact exists_walk_of_circuits nesting s library ms ms'
  · rintro ⟨visits, h⟩
    induction h with
    | done => rfl
    | @known nesting s type p rest ms ms' visits hnesting hname _ ih =>
        rcases p with ⟨design, library⟩
        simp [circuits, circuit, hnesting, hname, ih]
    | @visit nesting s rest ms ms₁ ms₂ v inner later hscope hnesting hname hmodule _ _
        ihinner ihlater =>
        rcases v with ⟨type, ⟨design, library⟩, scope, m⟩
        obtain rfl : scope = s := hscope
        have hname : isEmitted ms (Identifier.ofId type) = false := hname
        have hmname : m.name = Identifier.ofId type := name_of_toModule hmodule
        have hadd : emit ms m = ms ++ [m] := emit_of_free (by rw [hmname, hname])
        have hm : design.graph.toModule (Identifier.ofId type) (library :: scope) = .ok m := hmodule
        have hinner : circuits (type :: nesting) (library :: scope) library (ms ++ [m]) = .ok ms₁ :=
          ihinner
        simp only [circuits, circuit, hnesting, hname, hm, hadd, hinner, if_false,
          Bool.false_eq_true]
        exact ihlater

section Run

variable {nesting : List String} {s : Scope} {library : List (String × Project)}
  {ms ms' : List Module} {visits : List Visit}

theorem Walk.isPrefix (h : Walk nesting s library ms visits ms') : ms <+: ms' := by
  induction h with
  | done => exact List.prefix_refl _
  | known _ _ _ ih => exact ih
  | visit _ _ _ _ _ _ ihinner ihlater =>
      exact ((List.prefix_append _ _).trans ihinner).trans
        ((extends_foldl_emit _ _).isPrefix.trans ihlater)

theorem Walk.nodup (h : Walk nesting s library ms visits ms')
    (hms : (ms.map Module.name).Nodup) : (ms'.map Module.name).Nodup := by
  induction h with
  | done => exact hms
  | known _ _ _ ih => exact ih hms
  | visit _ _ hname hmodule _ _ ihinner ihlater =>
      refine ihlater ((extends_foldl_emit _ _).nodup (ihinner (nodup_append_free ?_ hms)))
      rw [name_of_toModule hmodule, hname]

/-- What a run has done about each sub-circuit it rendered: the name was free, the library was run
through right after it, and its code blocks were emitted before the end. -/
theorem Walk.visited (h : Walk nesting s library ms visits ms') :
    ∀ v ∈ visits, ∃ deeper before inner after,
      nesting ⊆ deeper ∧ ms <+: before ∧ isEmitted before v.name = false ∧
      v.project.graph.toModule v.name v.inside = .ok v.rendered ∧
      Walk (v.type :: deeper) v.inside v.project.library (before ++ [v.rendered]) inner after ∧
      (v.project.graph.codeModules v.name).foldl emit after <+: ms' := by
  induction h with
  | done => simp
  | known _ _ _ ih => exact ih
  | @visit nesting s rest ms ms₁ ms₂ v inner later _ _ hname hmodule hinner hlater ihinner
      ihlater =>
      have hms₁ : ms <+: (v.project.graph.codeModules v.name).foldl emit ms₁ :=
        ((List.prefix_append _ _).trans hinner.isPrefix).trans (extends_foldl_emit _ _).isPrefix
      intro w hw
      rcases List.mem_cons.mp hw with rfl | hw
      · exact ⟨nesting, ms, inner, ms₁, List.Subset.refl _, List.prefix_refl _, hname, hmodule,
          hinner, hlater.isPrefix⟩
      · rcases List.mem_append.mp hw with hw | hw
        · obtain ⟨deeper, before, inner', after, hdeeper, hbefore, hfree, hm, hwalk, hafter⟩ :=
            ihinner w hw
          exact ⟨deeper, before, inner', after,
            List.Subset.trans (List.subset_cons_self _ _) hdeeper,
            (List.prefix_append _ _).trans hbefore, hfree, hm, hwalk,
            hafter.trans ((extends_foldl_emit _ _).isPrefix.trans hlater.isPrefix)⟩
        · obtain ⟨deeper, before, inner', after, hdeeper, hbefore, hrest⟩ := ihlater w hw
          exact ⟨deeper, before, inner', after, hdeeper, hms₁.trans hbefore, hrest⟩

/-- The libraries around a sub-circuit are those around the run and those of rendered
sub-circuits. -/
theorem Walk.mem_scope (h : Walk nesting s library ms visits ms') :
    ∀ v ∈ visits, ∀ l ∈ v.scope, l ∈ s ∨ ∃ w ∈ visits, l = w.project.library := by
  induction h with
  | done => simp
  | known _ _ _ ih => exact ih
  | @visit nesting s rest ms ms₁ ms₂ v inner later hscope _ _ _ _ _ ihinner ihlater =>
      intro w hw l hl
      rcases List.mem_cons.mp hw with rfl | hw
      · exact Or.inl (hscope ▸ hl)
      · rcases List.mem_append.mp hw with hw | hw
        · rcases ihinner w hw l hl with hl | ⟨u, hu, rfl⟩
          · rcases List.mem_cons.mp hl with rfl | hl
            · exact Or.inr ⟨v, by simp, rfl⟩
            · exact Or.inl (hscope ▸ hl)
          · exact Or.inr ⟨u, by simp [hu], rfl⟩
        · rcases ihlater w hw l hl with hl | ⟨u, hu, rfl⟩
          · exact Or.inl hl
          · exact Or.inr ⟨u, by simp [hu], rfl⟩

/-- Every type of the library has a module in the end. -/
theorem Walk.isEmitted_type (h : Walk nesting s library ms visits ms') :
    ∀ type ∈ library.map (·.1), isEmitted ms' (Identifier.ofId type) = true := by
  induction h with
  | done => simp
  | known _ hname htail ih =>
      intro type htype
      rcases List.mem_cons.mp htype with rfl | htype
      · exact isEmitted_mono htail.isPrefix hname
      · exact ih type htype
  | visit _ _ _ hmodule hinner hlater _ ihlater =>
      intro type htype
      rcases List.mem_cons.mp htype with rfl | htype
      · have hpre := (extends_foldl_emit _ _).isPrefix.trans hlater.isPrefix
        refine (isEmitted_iff _ _).mpr ⟨_, ?_, name_of_toModule hmodule⟩
        exact hpre.subset (hinner.isPrefix.subset (by simp))
      · exact ihlater type htype

/-- A type of the library is not one that the run is nested in. -/
theorem Walk.not_mem_nesting (h : Walk nesting s library ms visits ms') :
    ∀ type ∈ library.map (·.1), type ∉ nesting := by
  induction h with
  | done => simp
  | known hnesting _ _ ih =>
      intro type htype
      rcases List.mem_cons.mp htype with rfl | htype
      · exact hnesting
      · exact ih type htype
  | visit _ hnesting _ _ _ _ _ ihlater =>
      intro type htype
      rcases List.mem_cons.mp htype with rfl | htype
      · exact hnesting
      · exact ihlater type htype

section Visited

variable {v : Visit}

/-- A sub-circuit is rendered only when its name was not taken. -/
theorem Walk.isEmitted_eq_false (h : Walk nesting s library ms visits ms') (hv : v ∈ visits) :
    isEmitted ms v.name = false := by
  obtain ⟨_, before, _, _, _, hbefore, hfree, _⟩ := h.visited v hv
  refine Bool.eq_false_iff.mpr fun htaken => ?_
  simp [isEmitted_mono hbefore htaken] at hfree

theorem Walk.toModule_eq (h : Walk nesting s library ms visits ms') (hv : v ∈ visits) :
    v.project.graph.toModule v.name v.inside = .ok v.rendered := by
  obtain ⟨_, _, _, _, _, _, _, hmodule, _⟩ := h.visited v hv
  exact hmodule

theorem Walk.rendered_mem (h : Walk nesting s library ms visits ms') (hv : v ∈ visits) :
    v.rendered ∈ ms' := by
  obtain ⟨_, before, _, after, _, _, _, _, hwalk, hafter⟩ := h.visited v hv
  have hmem : v.rendered ∈ after := hwalk.isPrefix.subset (by simp)
  exact hafter.subset ((extends_foldl_emit _ _).isPrefix.subset hmem)

/-- The types in the library of a sub-circuit have modules in the end. -/
theorem Walk.isEmitted_types (h : Walk nesting s library ms visits ms') (hv : v ∈ visits)
    {type : String} (htype : type ∈ v.types) : isEmitted ms' (Identifier.ofId type) = true := by
  obtain ⟨_, _, _, _, _, _, _, _, hwalk, hafter⟩ := h.visited v hv
  exact isEmitted_mono ((extends_foldl_emit _ _).isPrefix.trans hafter)
    (hwalk.isEmitted_type type htype)

/-- The code blocks of a sub-circuit have modules in the end. -/
theorem Walk.isEmitted_code (h : Walk nesting s library ms visits ms') (hv : v ∈ visits)
    {m : Module} (hm : m ∈ v.project.graph.codeModules v.name) :
    isEmitted ms' m.name = true := by
  obtain ⟨_, _, _, _, _, _, _, _, _, hafter⟩ := h.visited v hv
  exact isEmitted_mono hafter ((extends_foldl_emit _ _).taken m hm)

/-- No type in the library of a sub-circuit is the sub-circuit's own, or one the run is nested
in. -/
theorem Walk.not_mem_types (h : Walk nesting s library ms visits ms') (hv : v ∈ visits)
    {type : String} (htype : type = v.type ∨ type ∈ nesting) : type ∉ v.types := by
  obtain ⟨deeper, _, _, _, hdeeper, _, _, _, hwalk, _⟩ := h.visited v hv
  intro hmem
  refine hwalk.not_mem_nesting type hmem ?_
  rcases htype with rfl | htype
  · exact List.mem_cons_self
  · exact List.mem_cons_of_mem _ (hdeeper htype)

end Visited

/-- Where the modules of a run come from: they were there before, or belong to a rendered
sub-circuit or to one of its code blocks. -/
theorem Walk.origin (h : Walk nesting s library ms visits ms') :
    ∀ m ∈ ms', m ∈ ms ∨
      ∃ v ∈ visits, m = v.rendered ∨ m ∈ v.project.graph.codeModules v.name := by
  induction h with
  | done => exact fun m hm => Or.inl hm
  | known _ _ _ ih => exact ih
  | @visit nesting s rest ms ms₁ ms₂ v inner later _ _ _ _ _ _ ihinner ihlater =>
      intro m hm
      rcases ihlater m hm with hm | ⟨w, hw, hm⟩
      · rcases (extends_foldl_emit _ _).origin m hm with hm | hm
        · rcases ihinner m hm with hm | ⟨w, hw, hm⟩
          · rcases List.mem_append.mp hm with hm | hm
            · exact Or.inl hm
            · exact Or.inr ⟨v, by simp, Or.inl (List.mem_singleton.mp hm)⟩
          · exact Or.inr ⟨w, by simp [hw], hm⟩
        · exact Or.inr ⟨v, by simp, Or.inr hm⟩
      · exact Or.inr ⟨w, by simp [hw], hm⟩

end Run

end Schematic.Hierarchy
