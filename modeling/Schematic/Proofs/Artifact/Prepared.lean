import Schematic.Summary
import Schematic.Proofs.Artifact.Interface
import Schematic.Proofs.BoardDefault.Settled

/-!
# Artifacts of a prepared top graph

Options and board rules reach an artifact through the top circuit only, so two compilations with
the same top circuit have the same artifacts. There are two ways to prepare the top circuit of a
project before it is compiled: what its summary reports can be given as options, and its graph can
be replaced by the one on which the requests are met. Neither of them changes an artifact.
-/

namespace Schematic

namespace Graph

/-- The graph that is compiled in place of a top graph. -/
def prepared (g : Graph) (o : Options) (s : Scope) : Except CompileFault Graph :=
  (g.topWiring o s).map fun wiring =>
    match wiring with
    | some w => w.graph
    | none => g

/-- Having no requests comes to the same as meeting none. -/
theorem map_topWiring {α : Type} (g : Graph) (o : Options) (s : Scope) (f : Option Wiring → α)
    (hf : f none = f (some ⟨g, []⟩)) :
    (g.topWiring o s).map f = (g.topRequests o s).map fun rs => f (some (.ofRequests g rs)) := by
  rw [topWiring]
  cases g.topRequests o s with
  | error e => rfl
  | ok rs =>
      cases rs with
      | nil => exact congrArg Except.ok hf
      | cons r rest => rfl

theorem prepared_eq (g : Graph) (o : Options) (s : Scope) :
    g.prepared o s = (g.topRequests o s).map fun rs => rs.foldl Wiring.step g := by
  simp only [← Wiring.graph_ofRequests]
  exact g.map_topWiring o s _ rfl

end Graph

/-- The top circuit has the graph after the requests of the options, and the pins that are idle
there. -/
theorem Top.ofProject_eq (p : Project) (o : Options) (rules : BoardRules) :
    ofProject p o rules = (p.graph.topRequests o (Scope.root p)).map fun rs =>
      ⟨rs.foldl Wiring.step p.graph, (Wiring.ofRequests p.graph rs).steps,
        (rs.foldl Wiring.step p.graph).topIdlePins o rules⟩ := by
  simp only [← Wiring.graph_ofRequests]
  exact p.graph.map_topWiring o (Scope.root p) _ rfl

namespace Target

/-- The content of an artifact, made from the top circuit. -/
def contentOf (t : Target) (p : Project) (top : Top) : Except CompileFault String :=
  match t with
  | .verilog =>
    match top.toModule (Scope.root p) with
    | .error e => .error e
    | .ok main =>
      match p.flatten main with
      | .ok ms => .ok (Module.concat ms)
      | .error failure => .error failure.fault
  | .constraints => .ok (Constraint.concat top.constraints)
  | .testbench => .ok (top.testbench p).text
  | .waves => .ok (top.testbench p).waves

/-- Options and rules have a part in the top circuit and in nothing after it. -/
theorem content_eq_bind (t : Target) (p : Project) (o : Options) (rules : BoardRules) :
    t.content p o rules = (Top.ofProject p o rules).bind (t.contentOf p) := by
  cases t with
  | verilog =>
      rw [content, Project.verilog, Project.modules]
      cases Top.ofProject p o rules with
      | error e => rfl
      | ok top =>
          simp only [Except.bind, contentOf]
          cases top.toModule (Scope.root p) with
          | error e => rfl
          | ok main => rfl
  | constraints =>
      rw [content, Project.constraints]
      cases Top.ofProject p o rules <;> rfl
  | testbench =>
      rw [content, Project.testbench]
      cases Top.ofProject p o rules <;> rfl
  | waves =>
      rw [content, Project.waves]
      cases Top.ofProject p o rules <;> rfl

/-- Without a top circuit there is no artifact. -/
theorem generate_eq_error {p : Project} {o : Options} {rules : BoardRules} {e : CompileFault}
    (h : Top.ofProject p o rules = .error e) (t : Target) (b : Banner) :
    t.generate p o rules b = .error e := by
  rw [generate, content_eq_bind, h]
  rfl

/-- The steps that led to a top circuit have no part in artifacts, and of the graph of the project
only what inputs have no part in. -/
theorem contentOf_withGraph (t : Target) {p : Project} {rs : List Request} {g : Graph}
    (h : Wiring.Grows rs p.graph g) (top : Top) (steps : List WiringStep) :
    t.contentOf (p.withGraph g) { top with steps := steps } = t.contentOf p top := by
  have hbench : Top.testbench { top with steps := steps } (p.withGraph g) = top.testbench p := by
    change Testbench.mk g.testParameters top.interface = ⟨p.graph.testParameters, top.interface⟩
    rw [h.testParameters_eq]
  cases t with
  | verilog =>
      have hflatten (main : Module) : (p.withGraph g).flatten main = p.flatten main := by
        change Except.map (fun ms => (g.codeModules main.name).foldl Hierarchy.emit ms) _ = _
        rw [h.codeModules_eq]
        rfl
      simp only [contentOf, hflatten]
      rfl
  | constraints => rfl
  | testbench => simp only [contentOf, hbench]
  | waves => simp only [contentOf, hbench]

end Target

section Summarized

variable {p : Project} {rules : BoardRules}

/-- The requests of a summary are those that a compilation finds, and the pins that are idle in the
graph stay so when the requests are met. -/
theorem Top.ofProject_of_summary {d : Summary} (h : Summary.ofProject p rules = .ok d) :
    ofProject p { boardRules := true, requests := some d.requests, idlePins := some d.idlePins }
      rules = ofProject p { boardRules := true } rules := by
  obtain ⟨rs, hrs, rfl⟩ := map_eq_ok_iff.mp h
  have hidle := (Wiring.grows_foldl_step p.graph rs).idlePins_eq rules
  simp [ofProject_eq, Graph.topRequests, Graph.topIdlePins, hrs, hidle, Except.map]

theorem Top.ofProject_of_summary_error {e : CompileFault}
    (h : Summary.ofProject p rules = .error e) :
    ofProject p { boardRules := true } rules = .error e := by
  have hrequests : p.graph.requests (Scope.root p) = .error e := by
    rw [Summary.ofProject] at h
    cases hrs : p.graph.requests (Scope.root p) with
    | error fault => simpa [hrs, Except.map] using h
    | ok rs => simp [hrs, Except.map] at h
  simp [ofProject_eq, Graph.topRequests, hrequests, Except.map]

/-- What the summary of a project reports, given as options, leads to the same artifacts as finding
it anew. A project without a summary has no artifacts, for the same reason. -/
theorem Target.generate_summarized (p : Project) (rules : BoardRules) (t : Target) (b : Banner) :
    match Summary.ofProject p rules with
    | .ok d =>
      t.generate p
          { boardRules := true, requests := some d.requests, idlePins := some d.idlePins } rules b =
        t.generate p { boardRules := true } rules b
    | .error e => t.generate p { boardRules := true } rules b = .error e := by
  cases h : Summary.ofProject p rules with
  | ok d =>
      have htop := Top.ofProject_of_summary h
      simp only [generate, content_eq_bind, htop]
  | error e => exact generate_eq_error (Top.ofProject_of_summary_error h) t b

end Summarized

section Wired

theorem Wiring.Grows.topRequests_eq {rs : List Request} {g g' : Graph} (h : Grows rs g g')
    (o : Options) (s : Scope) : g'.topRequests o s = g.topRequests o s := by
  rw [Graph.topRequests, Graph.topRequests, h.requests_eq]

/-- A project whose requests have been met compiles to the artifacts of the project itself, and has
nothing left to be met. -/
theorem Target.generate_prepared {p : Project} {o : Options} {g : Graph} (rules : BoardRules)
    (h : p.graph.prepared o (Scope.root p) = .ok g) :
    (∀ (t : Target) (b : Banner),
      t.generate (p.withGraph g) o rules b = t.generate p o rules b) ∧
    g.prepared o (Scope.root (p.withGraph g)) = .ok g := by
  rw [Graph.prepared_eq] at h
  obtain ⟨rs, hrs, rfl⟩ := map_eq_ok_iff.mp h
  have hgrows := Wiring.grows_foldl_step p.graph rs
  have hrequests : (rs.foldl Wiring.step p.graph).topRequests o (Scope.root p) = .ok rs :=
    (hgrows.topRequests_eq o (Scope.root p)).trans hrs
  have hsettled := Wiring.foldl_step_foldl_step p.graph rs
  constructor
  · intro t b
    have htop := Top.ofProject_eq p o rules
    have htop' := Top.ofProject_eq (p.withGraph (rs.foldl Wiring.step p.graph)) o rules
    simp only [Project.graph_withGraph, Scope.root_withGraph, hrequests, hrs, hsettled,
      Except.map] at htop htop'
    rw [generate, generate, content_eq_bind, content_eq_bind, htop, htop']
    simp only [Except.bind]
    rw [← t.contentOf_withGraph hgrows]
  · rw [Graph.prepared_eq, Scope.root_withGraph, hrequests]
    simp only [Except.map, hsettled]

/-- Requests for a clock: two for one port, on different pins, and one more for the first pin. -/
def Options.repeatedClock : Options where
  boardRules := true
  requests :=
    some [⟨"c", "clk", "clk", "21"⟩, ⟨"c", "clk", "slow", "22"⟩, ⟨"c", "aux", "clk", "21"⟩]

/-- Meeting the requests adds one input and two wires, and the artifacts stay as they are. -/
theorem Target.generate_prepared_repeatedClock : ∃ g,
    Project.clocked.graph.prepared .repeatedClock (Scope.root .clocked) = .ok g ∧
    g.blocks.length = 4 ∧ g.wires.length = 3 ∧
    (∀ (t : Target) (b : Banner),
      t.generate (Project.clocked.withGraph g) .repeatedClock Project.threePins b =
        t.generate .clocked .repeatedClock Project.threePins b) ∧
    g.prepared .repeatedClock (Scope.root (Project.clocked.withGraph g)) = .ok g := by
  refine ⟨_, rfl, by decide, by decide, ?_⟩
  exact Target.generate_prepared Project.threePins rfl

end Wired

end Schematic
