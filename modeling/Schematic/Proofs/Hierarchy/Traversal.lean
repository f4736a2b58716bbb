import Schematic.Proofs.Hierarchy.Entries

/-!
# Leaving out what is there already

The flattening does not go into a sub-circuit whose name is taken. It could as well go through
everything and keep the first module of each name, provided that a name stands for one project: what
it leaves out was run through to its end before, for otherwise it would be nested in itself.
-/

namespace Schematic.Hierarchy

section Repetition

/-- Modules of the same name. -/
def sameName (m n : Module) : Bool := m.name == n.name

theorem loop_eraseDupsBy_sameName (new ms : List Module) :
    List.eraseDupsBy.loop sameName new ms.reverse = new.foldl emit ms := by
  induction new generalizing ms with
  | nil => simp [List.eraseDupsBy.loop]
  | cons m rest ih =>
      have hany : ms.reverse.any (sameName m) = isEmitted ms m.name := by
        rw [List.any_reverse]
        exact congrArg ms.any (funext fun n => Bool.beq_comm)
      rw [List.eraseDupsBy.loop, hany, List.foldl_cons]
      rcases emit_cases ms m with ⟨htaken, heq⟩ | ⟨hfree, heq⟩
      · rw [htaken, heq]
        exact ih ms
      · rw [hfree, heq]
        simpa using ih (ms ++ [m])

/-- Emitting modules one after another keeps the first of each name. -/
theorem foldl_emit_nil (new : List Module) : new.foldl emit [] = new.eraseDupsBy sameName :=
  (loop_eraseDupsBy_sameName new []).symm

/-- Modules whose names are taken add nothing. -/
theorem foldl_emit_of_taken {new ms : List Module}
    (h : ∀ m ∈ new, isEmitted ms m.name = true) : new.foldl emit ms = ms := by
  induction new with
  | nil => rfl
  | cons m rest ih =>
      have hm : emit ms m = ms := by simp [emit, h m List.mem_cons_self]
      rw [List.foldl_cons, hm]
      exact ih fun n hn => h n (List.mem_cons_of_mem m hn)

end Repetition

section Traversal

/-- The modules of the code blocks among some blocks, in order. -/
def modulesOfCode (parent : String) : List Block → List Module
  | [] => []
  | ⟨id, .code c⟩ :: rest =>
    Module.ofCode (Module.codeName parent id) c :: modulesOfCode parent rest
  | _ :: rest => modulesOfCode parent rest

theorem codeModules_eq (g : Graph) (parent : String) :
    g.codeModules parent = modulesOfCode parent g.blocks := by
  rw [Graph.codeModules]
  induction g.blocks with
  | nil => rfl
  | cons b rest ih =>
      rcases b with ⟨id, kind⟩
      cases kind <;> simp [modulesOfCode, ih]

mutual

/-- All modules of a sub-circuit: its own, those of its library, and those of its code blocks.
Nothing is left out, whatever the names are. -/
def circuitModules (type : String) : Project → List Module
  | ⟨design, library⟩ =>
    design.graph.rendering (Identifier.ofId type) ::
      (libraryModules library ++ modulesOfCode (Identifier.ofId type) design.graph.blocks)

/-- All modules of a library, one sub-circuit after another. -/
def libraryModules : List (String × Project) → List Module
  | [] => []
  | (type, p) :: rest => circuitModules type p ++ libraryModules rest

end

theorem circuitModules_eq (type : String) (p : Project) :
    circuitModules type p = p.graph.rendering (Identifier.ofId type) ::
      (libraryModules p.library ++ p.graph.codeModules (Identifier.ofId type)) := by
  cases p
  rw [circuitModules, codeModules_eq]
  rfl

theorem mem_libraryModules_iff (l : List (String × Project)) (m : Module) :
    m ∈ libraryModules l ↔ ∃ e ∈ l, m ∈ circuitModules e.1 e.2 := by
  induction l with
  | nil => simp [libraryModules]
  | cons e rest ih => simp [libraryModules, ih]

end Traversal

section Equality

mutual

/-- The designs are equal and the libraries have the same entries. The order of a library does not
count. -/
def alike : Project → Project → Bool
  | ⟨design, library⟩, q =>
    design == q.design && library.length == q.library.length && allIn library q.library

/-- Every entry of a library has one in another that is alike. -/
def allIn : List (String × Project) → List (String × Project) → Bool
  | [], _ => true
  | (type, p) :: rest, l => l.any (fun e => e.1 == type && alike p e.2) && allIn rest l

end

theorem allIn_iff (l l' : List (String × Project)) :
    allIn l l' = true ↔ ∀ e ∈ l, ∃ q, (e.1, q) ∈ l' ∧ alike e.2 q = true := by
  induction l with
  | nil => simp [allIn]
  | cons e rest ih => simp [allIn, ih]

/-- Equal projects are alike. -/
@[simp] theorem alike_self (p : Project) : alike p p = true := by
  refine circuitModules.induct (fun _ p => alike p p = true)
    (fun l => ∀ e ∈ l, alike e.2 e.2 = true) ?_ ?_ ?_ "" p
  · intro type design library ih
    have hall : allIn library library = true :=
      (allIn_iff library library).mpr fun e he => ⟨e.2, he, ih e he⟩
    simp [alike, hall]
  · simp
  · intro type p rest ihfirst ihrest
    simpa using ⟨ihfirst, by simpa using ihrest⟩

/-- Projects that are alike have modules of the same names. -/
theorem exists_name_eq_of_alike (type : String) (p : Project) : ∀ q, alike p q = true →
    ∀ m ∈ circuitModules type p, ∃ n ∈ circuitModules type q, n.name = m.name := by
  refine circuitModules.induct
    (fun type p => ∀ q, alike p q = true →
      ∀ m ∈ circuitModules type p, ∃ n ∈ circuitModules type q, n.name = m.name)
    (fun l => ∀ l', allIn l l' = true →
      ∀ m ∈ libraryModules l, ∃ n ∈ libraryModules l', n.name = m.name) ?_ ?_ ?_ type p
  · intro type design library ih q halike m hm
    obtain ⟨⟨hdesign, _⟩, hall⟩ : (design = q.design ∧ library.length = q.library.length) ∧
        allIn library q.library = true := by simpa [alike] using halike
    rw [circuitModules_eq] at hm
    rw [circuitModules_eq type q, Project.graph, ← hdesign]
    rcases List.mem_cons.mp hm with rfl | hm
    · exact ⟨_, List.mem_cons_self, rfl⟩
    · rcases List.mem_append.mp hm with hm | hm
      · obtain ⟨n, hn, hname⟩ := ih q.library hall m hm
        exact ⟨n, List.mem_cons_of_mem _ (List.mem_append_left _ hn), hname⟩
      · exact ⟨m, List.mem_cons_of_mem _ (List.mem_append_right _ hm), rfl⟩
  · simp [libraryModules]
  · intro type p rest ihfirst ihrest l' hall m hm
    obtain ⟨⟨q, hq, halike⟩, hrest⟩ :
        (∃ q, (type, q) ∈ l' ∧ alike p q = true) ∧ allIn rest l' = true := by
      simpa [allIn] using hall
    rcases List.mem_append.mp hm with hm | hm
    · obtain ⟨n, hn, hname⟩ := ihfirst q halike m hm
      exact ⟨n, (mem_libraryModules_iff l' n).mpr ⟨(type, q), hq, hn⟩, hname⟩
    · exact ihrest l' hrest m hm

end Equality

/-- A sub-circuit that has its module, and is not being run through, has all its modules. -/
def Covered (es : List (String × Project)) (nesting : List String) (ms : List Module) : Prop :=
  ∀ e ∈ es, e.1 ∉ nesting → isEmitted ms (Identifier.ofId e.1) = true →
    ∀ m ∈ circuitModules e.1 e.2, isEmitted ms m.name = true

/-- A type has one project. -/
def OneProject (es : List (String × Project)) : Prop :=
  ∀ e ∈ es, ∀ f ∈ es, e.1 = f.1 → alike e.2 f.2 = true

section Run

variable {es : List (String × Project)} {nesting : List String} {ms : List Module} {v : Visit}

/-- Once a sub-circuit is rendered it is being run through; the others stay as they were. -/
theorem Covered.rendered (hcovered : Covered es nesting ms) (hapart : NamesApart es)
    (hv : v.entry ∈ es) (hname : v.rendered.name = v.name) :
    Covered es (v.type :: nesting) (ms ++ [v.rendered]) := by
  intro e he hnesting hemitted m hm
  have hbefore := ((hapart.isEmitted_rendered he hv hname ms).mp hemitted).resolve_right
    (List.ne_of_not_mem_cons hnesting)
  exact isEmitted_mono (List.prefix_append _ _)
    (hcovered e he (List.not_mem_of_not_mem_cons hnesting) hbefore m hm)

/-- Once its library and its code blocks are there, a sub-circuit has all its modules. -/
theorem Covered.finished (hcovered : Covered es (v.type :: nesting) ms) (hapart : NamesApart es)
    (hone : OneProject es) (hv : v.entry ∈ es) (hown : isEmitted ms v.name = true)
    (hlibrary : ∀ m ∈ libraryModules v.project.library, isEmitted ms m.name = true) :
    Covered es nesting ((v.project.graph.codeModules v.name).foldl emit ms) := by
  have hext := extends_foldl_emit (v.project.graph.codeModules v.name) ms
  intro e he hnesting hemitted m hm
  by_cases htype : e.1 = v.type
  · obtain ⟨n, hn, hname⟩ :=
      exists_name_eq_of_alike e.1 e.2 _ (hone e he v.entry hv htype) m hm
    rw [← hname]
    rw [htype, circuitModules_eq] at hn
    rcases List.mem_cons.mp hn with rfl | hn
    · exact isEmitted_mono hext.isPrefix hown
    · rcases List.mem_append.mp hn with hn | hn
      · exact isEmitted_mono hext.isPrefix (hlibrary n hn)
      · exact hext.taken n hn
  · have hbefore := (hapart.isEmitted_code he hv ms).mp hemitted
    have hnot : e.1 ∉ v.type :: nesting := List.not_mem_cons_of_ne_of_not_mem htype hnesting
    exact isEmitted_mono hext.isPrefix (hcovered e he hnot hbefore m hm)

/-- A run that leaves out what has its module already does the same as one through everything that
keeps the first module of each name. -/
theorem Walk.eq_foldl_emit {s : Scope} {library : List (String × Project)} {ms' : List Module}
    {visits : List Visit} (h : Walk nesting s library ms visits ms') (hapart : NamesApart es)
    (hone : OneProject es) (hsub : entries library ⊆ es) (hcovered : Covered es nesting ms) :
    ms' = (libraryModules library).foldl emit ms ∧ Covered es nesting ms' := by
  induction h with
  | done => exact ⟨rfl, hcovered⟩
  | @known nesting s type p rest ms ms' visits hnesting hname _ ih =>
      obtain ⟨hfirst, _, hrest⟩ := entries_cons_subset.mp hsub
      -- nothing of the sub-circuit is new, since it was run through before
      have hnothing := foldl_emit_of_taken (hcovered (type, p) hfirst hnesting hname)
      rw [libraryModules, List.foldl_append, hnothing]
      exact ih hrest hcovered
  | @visit nesting s rest ms ms₁ ms₂ v inner later _ hnesting hname hmodule hinner hlater ihinner
      ihlater =>
      obtain ⟨hv, hlibrary, hrest⟩ := entries_cons_subset.mp hsub
      have hmname := name_of_toModule hmodule
      obtain ⟨heq, hcovered₁⟩ := ihinner hlibrary (hcovered.rendered hapart hv hmname)
      have hown : isEmitted ms₁ v.name = true :=
        (isEmitted_iff _ _).mpr ⟨v.rendered, hinner.isPrefix.subset (by simp), hmname⟩
      have htaken : ∀ m ∈ libraryModules v.project.library, isEmitted ms₁ m.name = true :=
        heq ▸ (extends_foldl_emit _ _).taken
      obtain ⟨heq₂, hcovered₂⟩ :=
        ihlater hrest (hcovered₁.finished hapart hone hv hown htaken)
      refine ⟨?_, hcovered₂⟩
      have hrendering : v.rendered = v.project.graph.rendering v.name :=
        ((Graph.toModule_eq_ok_iff _ _ _ _).mp hmodule).2
      have hadd : emit ms v.rendered = ms ++ [v.rendered] := emit_of_free (by rw [hmname, hname])
      rw [heq₂, heq, ← hadd, hrendering, libraryModules, circuitModules_eq, List.foldl_append,
        List.foldl_cons, List.foldl_append]
      rfl

end Run

/-- The modules of a compilation are those of a run through everything, of which only the first of
each name is kept: the main module, all of the library, and the code blocks of the top graph. The
text is that of these modules in order. -/
theorem modules_eq_eraseDups {p : Project} {o : Options} {rules : BoardRules} {ms : List Module}
    (h : p.modules o rules = .ok ms) (hapart : NamesApart p.entries)
    (hone : OneProject p.entries) :
    ∃ top main, Top.ofProject p o rules = .ok top ∧ top.toModule (Scope.root p) = .ok main ∧
      ms = (main :: (libraryModules p.library ++ modulesOfCode "main" p.graph.blocks)).eraseDupsBy
        sameName ∧
      p.verilog o rules = .ok (String.join (ms.map Module.text)) := by
  have hverilog : p.verilog o rules = .ok (String.join (ms.map Module.text)) := by
    simp only [Project.verilog, h]
    rfl
  obtain ⟨top, main, visits, hcompiled⟩ := (modules_eq_ok_iff p o rules ms).mp h
  obtain ⟨ms₁, hwalk, heq⟩ := hcompiled.walk
  have hcovered : Covered p.entries [] [main] := by
    intro e _ _ hemitted
    simp [isEmitted_main hcompiled.name_main e.1] at hemitted
  obtain ⟨hms₁, _⟩ := hwalk.eq_foldl_emit hapart hone (List.Subset.refl _) hcovered
  refine ⟨top, main, hcompiled.top_eq, hcompiled.main_eq, ?_, hverilog⟩
  rw [heq, hms₁, hcompiled.name_main, codeModules_eq, ← foldl_emit_nil, List.foldl_cons,
    List.foldl_append]
  rfl

/-- A sub-circuit that stands in two libraries, the second time with its own library in another
order. -/
def repeatedPart : Project where
  design := { graph := { blocks := [⟨"m", .circuit "mid"⟩, ⟨"p", .circuit "part"⟩,
    ⟨"c", .code {}⟩] } }
  library := [
    ("mid", {
      design := { graph := { blocks := [⟨"p", .circuit "part"⟩, ⟨"c", .code {}⟩] } }
      library := [("part", part [("bit", leaf), ("gate", leaf)])] }),
    ("part", part [("gate", leaf), ("bit", leaf)])]
where
  leaf : Project := { design := { graph := { blocks := [⟨"c", .code {}⟩] } }, library := [] }
  part (library : List (String × Project)) : Project :=
    { design := { graph := { blocks := [⟨"b", .circuit "bit"⟩, ⟨"g", .circuit "gate"⟩] } }
      library := library }

/-- Of the modules of the part and its library, which a run through everything meets twice, the
first ones are kept. -/
theorem modules_eq_eraseDups_repeatedPart : NamesApart repeatedPart.entries ∧
    OneProject repeatedPart.entries ∧ ∃ ms main, repeatedPart.modules {} {} = .ok ms ∧
      ms = (main :: (libraryModules repeatedPart.library ++
        modulesOfCode "main" repeatedPart.graph.blocks)).eraseDupsBy sameName ∧
      (libraryModules repeatedPart.library).map Module.name = ["vmid", "vpart", "vbit", "vbit_vc",
        "vgate", "vgate_vc", "vmid_vc", "vpart", "vgate", "vgate_vc", "vbit", "vbit_vc"] ∧
      (modulesOfCode "main" repeatedPart.graph.blocks).map Module.name = ["main_vc"] ∧
      repeatedPart.verilog {} {} = .ok (String.join (ms.map Module.text)) := by
  obtain ⟨ms, hms⟩ : ∃ ms, repeatedPart.modules {} {} = .ok ms := ⟨_, rfl⟩
  have hapart : NamesApart repeatedPart.entries := ⟨by decide +kernel, by decide +kernel⟩
  have hone : OneProject repeatedPart.entries := by
    unfold OneProject
    decide +kernel
  obtain ⟨_, main, _, _, heq, hverilog⟩ := modules_eq_eraseDups hms hapart hone
  exact ⟨hapart, hone, ms, main, hms, heq, by decide, by decide, hverilog⟩

end Schematic.Hierarchy
