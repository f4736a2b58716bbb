import Schematic.Interface
import Schematic.Proofs.BoardDefault.Growth

/-!
# Graphs whose requests have been met

After a run of requests every port that was asked for has a driver, so requests for the same ports
find nothing to do when they come again, in whatever order and for whatever pins. All that the run
added are inputs and wires, and most of what is read off a graph does not look at inputs: the
requests of its blocks, the pins its outputs take, its constants and its code are those of the graph
before the run.
-/

namespace Schematic

namespace Wiring

section Drivers

theorem Grows.isDriven {rs : List Request} {g g' : Graph} (h : Grows rs g g') {e : Endpoint}
    (he : g.isDriven e = true) : g'.isDriven e = true := by
  by_contra hnot
  have hfree : g.isDriven e = false := h.isDriven_eq_false (Bool.eq_false_iff.mpr hnot)
  simp [he] at hfree

/-- A request leaves its port with a driver. -/
theorem isDriven_step (g : Graph) (r : Request) : (step g r).isDriven r.endpoint = true := by
  cases hd : g.isDriven r.endpoint with
  | true => exact (grows_step g r).isDriven hd
  | false =>
      obtain ⟨b, _, _, hwires⟩ := step_undriven hd
      apply (Graph.isDriven_iff _ _).mpr
      exact ⟨r.wire b.id, by simp [hwires], rfl⟩

/-- After a run every port that was asked for has a driver. -/
theorem isDriven_foldl_step (g : Graph) (rs : List Request) :
    ∀ r ∈ rs, (rs.foldl step g).isDriven r.endpoint = true := by
  induction rs generalizing g with
  | nil => simp
  | cons q rest ih =>
      intro r hr
      rcases List.mem_cons.mp hr with rfl | hr
      · exact (grows_foldl_step (step g r) rest).isDriven (isDriven_step g r)
      · exact ih (step g q) r hr

/-- Requests for ports that have drivers are all kept as they are. -/
theorem foldl_meet_of_isDriven (w : Wiring) {rs : List Request}
    (h : ∀ r ∈ rs, w.graph.isDriven r.endpoint = true) :
    rs.foldl meet w = ⟨w.graph, w.steps ++ rs.map .kept⟩ := by
  induction rs generalizing w with
  | nil => simp
  | cons r rest ih =>
      have hmeet : w.meet r = ⟨w.graph, w.steps ++ [.kept r]⟩ := by
        simp [meet, plan, h r List.mem_cons_self, perform]
      have hrest := ih ⟨w.graph, w.steps ++ [.kept r]⟩ fun q hq => h q (List.mem_cons_of_mem r hq)
      rw [List.foldl_cons, hmeet, hrest]
      simp

theorem ofRequests_of_isDriven {g : Graph} {rs : List Request}
    (h : ∀ r ∈ rs, g.isDriven r.endpoint = true) : ofRequests g rs = ⟨g, rs.map .kept⟩ :=
  foldl_meet_of_isDriven ⟨g, []⟩ h

/-- Requests for ports that have drivers change nothing. -/
theorem foldl_step_of_isDriven {g : Graph} {rs : List Request}
    (h : ∀ r ∈ rs, g.isDriven r.endpoint = true) : rs.foldl step g = g := by
  rw [← graph_ofRequests, ofRequests_of_isDriven h]

/-- Requests that come a second time change nothing. -/
theorem foldl_step_foldl_step (g : Graph) (rs : List Request) :
    rs.foldl step (rs.foldl step g) = rs.foldl step g :=
  foldl_step_of_isDriven (isDriven_foldl_step g rs)

theorem bindings_kept (g : Graph) (rs : List Request) : bindings ⟨g, rs.map .kept⟩ = [] := by
  simp [bindings, WiringStep.binding?]

/-- Once a run of requests has been met, later requests for the same ports change nothing and bind
nothing, whatever names and pins they ask for: each of their ports has its driver already. -/
theorem covered_requests_settled (g : Graph) (ps qs : List Request)
    (h : ∀ q ∈ qs, ∃ p ∈ ps, p.endpoint = q.endpoint) :
    (ofRequests (ofRequests g ps).graph qs).graph = (ofRequests g ps).graph ∧
    (ofRequests (ofRequests g ps).graph qs).bindings = [] ∧
    ∀ q ∈ qs, (ofRequests g ps).graph.isDriven q.endpoint = true := by
  have hdriven : ∀ q ∈ qs, (ofRequests g ps).graph.isDriven q.endpoint = true := by
    intro q hq
    obtain ⟨p, hp, hsame⟩ := h q hq
    rw [graph_ofRequests, ← hsame]
    exact isDriven_foldl_step g ps p hp
  rw [ofRequests_of_isDriven hdriven]
  exact ⟨rfl, bindings_kept _ qs, hdriven⟩

/-- A part that is not wired. -/
def unwired : Graph where
  blocks := [⟨"u", .circuit "part"⟩]

/-- One port is asked for twice, with different pins, and one is on a block that does not exist. -/
def conflicting : List Request :=
  [⟨"u", "a", "CLK", "95"⟩, ⟨"ghost", "d", "CLK", "95"⟩, ⟨"u", "a", "RST", "3"⟩,
   ⟨"u", "c", "RST", "21"⟩]

/-- The ports of some of these requests, in another order and with other names and pins. -/
def repeating : List Request :=
  [⟨"ghost", "d", "LED", "7"⟩, ⟨"u", "a", "RST", "3"⟩, ⟨"u", "a", "CLK", "95"⟩]

/-- The first run wires three ports, and the second none. -/
theorem covered_requests_settled_conflicting :
    (∀ q ∈ repeating, ∃ p ∈ conflicting, p.endpoint = q.endpoint) ∧
    (ofRequests unwired conflicting).bindings.map (fun b => (b.request.port, b.source)) =
      [("a", "CLK"), ("d", "CLK"), ("c", "RST")] ∧
    (ofRequests (ofRequests unwired conflicting).graph repeating).graph =
      (ofRequests unwired conflicting).graph ∧
    (ofRequests (ofRequests unwired conflicting).graph repeating).bindings = [] := by
  have hcovered : ∀ q ∈ repeating, ∃ p ∈ conflicting, p.endpoint = q.endpoint := by decide
  obtain ⟨hgraph, hbindings, _⟩ := covered_requests_settled unwired conflicting repeating hcovered
  exact ⟨hcovered, by decide +kernel, hgraph, hbindings⟩

end Drivers

section Unread

variable {rs : List Request} {g g' : Graph}

theorem Grows.codeModules_eq (h : Grows rs g g') (parent : String) :
    g'.codeModules parent = g.codeModules parent := by
  apply h.filterMap_blocks
  intro b t hkind
  simp [hkind]

theorem Grows.testParameters_eq (h : Grows rs g g') : g'.testParameters = g.testParameters := by
  apply congrArg (testParametersFrom 0)
  apply h.filterMap_blocks
  intro b t hkind
  simp [hkind]

/-- Inputs take no output pins. -/
theorem Grows.takenPins_eq (h : Grows rs g g') : g'.takenPins = g.takenPins := by
  obtain ⟨bs, hbs, hinput⟩ := h.exists_inputs
  rw [Graph.takenPins, Graph.takenPins, hbs, List.flatMap_append]
  apply List.append_right_eq_self.mpr
  apply List.flatMap_eq_nil_iff.mpr
  intro b hb
  obtain ⟨t, hkind⟩ := hinput b hb
  simp [Block.output?, hkind]

theorem Grows.idlePins_eq (h : Grows rs g g') (rules : BoardRules) :
    g'.idlePins rules = g.idlePins rules := by
  rw [Graph.idlePins, Graph.idlePins, h.takenPins_eq]

/-- Inputs ask for nothing. -/
theorem requestsOf_inputs (s : Scope) {bs : List Block} (h : ∀ b ∈ bs, ∃ t, b.kind = .input t) :
    Graph.requestsOf s bs = .ok [] := by
  induction bs with
  | nil => rfl
  | cons b rest ih =>
      obtain ⟨t, hkind⟩ := h b List.mem_cons_self
      have hrest := ih fun c hc => h c (List.mem_cons_of_mem b hc)
      simp [Graph.requestsOf, Block.requests, hkind, hrest, Except.map]

theorem requestsOf_append_inputs (s : Scope) (bs : List Block) {new : List Block}
    (hnew : ∀ b ∈ new, ∃ t, b.kind = .input t) :
    Graph.requestsOf s (bs ++ new) = Graph.requestsOf s bs := by
  induction bs with
  | nil => exact requestsOf_inputs s hnew
  | cons b rest ih => rw [List.cons_append, Graph.requestsOf, Graph.requestsOf, ih]

theorem Grows.requests_eq (h : Grows rs g g') (s : Scope) : g'.requests s = g.requests s := by
  obtain ⟨bs, hbs, hinput⟩ := h.exists_inputs
  rw [Graph.requests, Graph.requests, hbs, requestsOf_append_inputs s g.blocks hinput]

end Unread

end Wiring

end Schematic
