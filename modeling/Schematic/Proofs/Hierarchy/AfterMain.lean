import Schematic.Proofs.Artifact.Prepared
import Schematic.Proofs.Netlist.Faults

/-!
# What comes after the main module

The flattening of a project asks of the modules it has emitted only which names are taken, and it
adds to their end. The main module has one name whatever the options and the rules of the board
are, so they have no part in anything after it. They have none in the fault of a compilation
either: looking for requests and making the main module fail for the same block of the top graph.
-/

namespace Schematic

namespace Hierarchy

/-- The same names are taken. -/
def SameNames (ms ms' : List Module) : Prop := ∀ name, isEmitted ms name = isEmitted ms' name

theorem SameNames.append {ms ms' : List Module} (h : SameNames ms ms') (new : List Module) :
    SameNames (ms ++ new) (ms' ++ new) := by
  intro name
  have hname := h name
  simp only [isEmitted] at hname
  simp only [isEmitted, List.any_append, hname]

/-- The outcome of a run with the modules that were there before it. -/
def onto (ms : List Module) :
    Except FlattenFailure (List Module) → Except FlattenFailure (List Module)
  | .ok new => .ok (ms ++ new)
  | .error failure => .error ⟨failure.fault, ms ++ failure.emitted⟩

theorem onto_append (ms new : List Module) (out : Except FlattenFailure (List Module)) :
    onto (ms ++ new) out = onto ms (onto new out) := by
  cases out with
  | ok later => simp [onto]
  | error failure => simp [onto]

/-- A run adds modules to those that are there. Which ones, and where it fails, depends on no more
than the names that are taken. -/
def AddsByName (run : List Module → Except FlattenFailure (List Module)) : Prop :=
  ∀ ms, ∃ out, ∀ ms', SameNames ms ms' → run ms' = onto ms' out

namespace AddsByName

variable {f g : List Module → Except FlattenFailure (List Module)}

theorem of_eq (hf : AddsByName f) (h : ∀ ms, g ms = f ms) : AddsByName g := by
  rwa [funext h]

theorem bind (hf : AddsByName f) (hg : AddsByName g) : AddsByName fun ms => (f ms).bind g := by
  intro ms
  obtain ⟨first, hfirst⟩ := hf ms
  cases first with
  | error failure =>
      refine ⟨.error failure, fun ms' hsame => ?_⟩
      change (f ms').bind g = _
      rw [hfirst ms' hsame]
      rfl
  | ok new =>
      obtain ⟨later, hlater⟩ := hg (ms ++ new)
      refine ⟨onto new later, fun ms' hsame => ?_⟩
      change (f ms').bind g = _
      rw [hfirst ms' hsame, ← onto_append]
      exact hlater (ms' ++ new) (hsame.append new)

theorem append (new : List Module) : AddsByName fun ms => .ok (ms ++ new) :=
  fun _ => ⟨.ok new, fun _ _ => rfl⟩

theorem done : AddsByName .ok :=
  (append []).of_eq fun ms => by rw [List.append_nil]

theorem fail (fault : CompileFault) : AddsByName fun ms => .error ⟨fault, ms⟩ :=
  fun _ => ⟨.error ⟨fault, []⟩, fun ms' _ => by simp [onto]⟩

/-- A run may go one way or the other by whether a name is taken. -/
theorem ite (name : String) (hf : AddsByName f) (hg : AddsByName g) :
    AddsByName fun ms => if isEmitted ms name then f ms else g ms := by
  intro ms
  cases htaken : isEmitted ms name with
  | true =>
      obtain ⟨out, hout⟩ := hf ms
      refine ⟨out, fun ms' hsame => ?_⟩
      simp only [← hsame name, htaken, if_true]
      exact hout ms' hsame
  | false =>
      obtain ⟨out, hout⟩ := hg ms
      refine ⟨out, fun ms' hsame => ?_⟩
      simp only [← hsame name, htaken, if_false, Bool.false_eq_true]
      exact hout ms' hsame

theorem emit (m : Module) : AddsByName fun ms => .ok (emit ms m) :=
  (ite m.name done (append [m])).of_eq fun ms => apply_ite Except.ok _ ms (ms ++ [m])

theorem foldl_emit (new : List Module) :
    AddsByName fun ms => .ok (new.foldl Hierarchy.emit ms) := by
  induction new with
  | nil => exact done
  | cons m rest ih => exact (emit m).bind ih

end AddsByName

/-- A run through a library adds by name. -/
theorem addsByName_circuits (library : List (String × Project)) :
    ∀ nesting s, AddsByName (circuits nesting s library) := by
  -- one case for a sub-circuit, whose own library is run through in the middle, and two for a list
  refine entries.induct
    (fun type p => ∀ nesting s, AddsByName (circuit nesting s type p))
    (fun library => ∀ nesting s, AddsByName (circuits nesting s library)) ?_ ?_ ?_ library
  · intro type design library ih nesting s
    by_cases hnesting : type ∈ nesting
    · apply (AddsByName.fail (.nestedInItself type)).of_eq
      intro ms
      simp [circuit, hnesting]
    cases hmodule : design.graph.toModule (Identifier.ofId type) (library :: s) with
    | error e =>
        apply (AddsByName.ite (Identifier.ofId type) .done (.fail e)).of_eq
        intro ms
        simp [circuit, hnesting, hmodule]
    | ok m =>
        have hinside := (AddsByName.emit m).bind (ih (type :: nesting) (library :: s))
        have hcode := AddsByName.foldl_emit (design.graph.codeModules (Identifier.ofId type))
        apply (AddsByName.ite (Identifier.ofId type) .done (hinside.bind hcode)).of_eq
        intro ms
        simp only [circuit, hnesting, hmodule, if_false, Except.bind]
        cases circuits (type :: nesting) (library :: s) library (emit ms m) <;> rfl
  · intro nesting s
    exact AddsByName.done.of_eq fun ms => by rw [circuits]
  · intro type p rest ihfirst ihrest nesting s
    apply ((ihfirst nesting s).bind (ihrest nesting s)).of_eq
    intro ms
    rw [circuits]
    cases circuit nesting s type p ms <;> rfl

/-- What the flattening of a project adds to its main module is the same for every main module. -/
theorem exists_flatten (p : Project) :
    ∃ out, ∀ main : Module, main.name = Top.moduleName → p.flatten main = onto [main] out := by
  have hcode := AddsByName.foldl_emit (p.graph.codeModules Top.moduleName)
  obtain ⟨out, hout⟩ := (addsByName_circuits p.library [] (Scope.root p)).bind hcode
    [{ name := Top.moduleName }]
  refine ⟨out, fun main hname => ?_⟩
  have hsame : SameNames [{ name := Top.moduleName }] [main] := by
    intro name
    simp [isEmitted, hname]
  have hflatten : p.flatten main = (circuits [] (Scope.root p) p.library [main]).bind fun ms =>
      .ok ((p.graph.codeModules Top.moduleName).foldl emit ms) := by
    rw [Project.flatten, hname]
    cases circuits [] (Scope.root p) p.library [main] <;> rfl
  exact hflatten.trans (hout [main] hsame)

end Hierarchy

section Faults

theorem Wiring.Grows.fault?_eq {rs : List Request} {g g' : Graph} (h : Grows rs g g') (s : Scope) :
    g'.fault? s = g.fault? s := by
  obtain ⟨bs, hbs, hinput⟩ := h.exists_inputs
  have hnone : bs.findSome? (·.fault? s) = none := by
    apply List.findSome?_eq_none_iff.mpr
    intro b hb
    obtain ⟨t, hkind⟩ := hinput b hb
    simp [Block.fault?, hkind]
  rw [Graph.fault?, Graph.fault?, hbs, List.findSome?_append, hnone, Option.or_none]

theorem Top.fault?_eq {p : Project} {o : Options} {rules : BoardRules} {top : Top}
    (h : ofProject p o rules = .ok top) (s : Scope) : top.graph.fault? s = p.graph.fault? s := by
  obtain ⟨rs, _, hgraph⟩ := exists_requests h
  rw [hgraph]
  exact (Wiring.grows_foldl_step p.graph rs).fault?_eq s

/-- There is no top circuit only if a block of the top graph is at fault. -/
theorem Top.fault?_of_ofProject_eq_error {p : Project} {o : Options} {rules : BoardRules}
    {e : CompileFault} (h : ofProject p o rules = .error e) :
    p.graph.fault? (Scope.root p) = some e := by
  rw [ofProject_eq, map_eq_error_iff, Graph.topRequests] at h
  split at h
  · split at h
    · cases h
    · exact (p.graph.requests_eq_error_iff _ e).mp h
  · cases h

theorem Top.toModule_eq_error_iff (t : Top) (s : Scope) (e : CompileFault) :
    t.toModule s = .error e ↔ t.graph.fault? s = some e := by
  rw [toModule, map_eq_error_iff, Graph.statements_eq_error_iff]

end Faults

namespace Project

/-- A fault of the top graph ends every compilation before anything is emitted. -/
theorem modules_of_fault {p : Project} {e : CompileFault}
    (h : p.graph.fault? (Scope.root p) = some e) (o : Options) (rules : BoardRules) :
    p.modules o rules = .error ⟨e, []⟩ := by
  rw [modules]
  cases htop : Top.ofProject p o rules with
  | error fault =>
      have hfault := Top.fault?_of_ofProject_eq_error htop
      rw [h] at hfault
      rw [Option.some.inj hfault]
  | ok top =>
      have hmain : top.toModule (Scope.root p) = .error e := by
        rw [Top.toModule_eq_error_iff, Top.fault?_eq htop, h]
      simp only [hmain]

/-- Without a fault in the top graph every compilation has a main module and flattens it. -/
theorem modules_of_no_fault {p : Project} (h : p.graph.fault? (Scope.root p) = none) (o : Options)
    (rules : BoardRules) : ∃ top main, Top.ofProject p o rules = .ok top ∧
      top.toModule (Scope.root p) = .ok main ∧ p.modules o rules = p.flatten main := by
  rw [modules]
  cases htop : Top.ofProject p o rules with
  | error fault =>
      have hfault := Top.fault?_of_ofProject_eq_error htop
      rw [h] at hfault
      cases hfault
  | ok top =>
      cases hmain : top.toModule (Scope.root p) with
      | error fault =>
          rw [Top.toModule_eq_error_iff, Top.fault?_eq htop, h] at hmain
          cases hmain
      | ok main => exact ⟨top, main, rfl, hmain, by simp only [hmain]⟩

/-- A compilation gives the main module of its top circuit and then the modules `rest`, and its text
is the text of the one followed by that of the others. -/
def LeadsWithMain (p : Project) (o : Options) (rules : BoardRules) (rest : List Module) : Prop :=
  ∃ top main, Top.ofProject p o rules = .ok top ∧ top.toModule (Scope.root p) = .ok main ∧
    main.name = Top.moduleName ∧ p.modules o rules = .ok (main :: rest) ∧
    p.verilog o rules = .ok (main.text ++ Module.concat rest)

/-- Options and rules change the main module and nothing else: either a project fails to compile
with the same fault under all of them, or the modules after the main module are the same under
all of them. -/
theorem verilog_fails_or_leadsWithMain (p : Project) :
    (∃ e, ∀ (o : Options) (rules : BoardRules), p.verilog o rules = .error e) ∨
      ∃ rest, ∀ (o : Options) (rules : BoardRules), p.LeadsWithMain o rules rest := by
  cases hfault : p.graph.fault? (Scope.root p) with
  | some e =>
      left
      refine ⟨e, fun o rules => ?_⟩
      rw [verilog, modules_of_fault hfault]
  | none =>
      obtain ⟨out, hout⟩ := Hierarchy.exists_flatten p
      cases out with
      | error failure =>
          left
          refine ⟨failure.fault, fun o rules => ?_⟩
          obtain ⟨top, main, _, hmain, hmodules⟩ := modules_of_no_fault hfault o rules
          rw [verilog, hmodules, hout main (Top.toModule_eq_ok hmain).1]
          rfl
      | ok rest =>
          right
          refine ⟨rest, fun o rules => ?_⟩
          obtain ⟨top, main, htop, hmain, hmodules⟩ := modules_of_no_fault hfault o rules
          have hname := (Top.toModule_eq_ok hmain).1
          rw [hout main hname] at hmodules
          refine ⟨top, main, htop, hmain, hname, hmodules, ?_⟩
          rw [verilog, hmodules]
          simp [Hierarchy.onto, Module.concat]

end Project

end Schematic
