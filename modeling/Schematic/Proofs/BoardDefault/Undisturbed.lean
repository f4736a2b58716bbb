import Schematic.Proofs.BoardDefault.Extension
import Schematic.Proofs.Netlist.Statements

/-!
# What requests leave undisturbed

Meeting requests appends inputs and wires to a graph, and then every pass of the netlist reads all
blocks and all wires again. The passes go over the wires in order, so what they made of the first
wires stands at the beginning again. A new block could come between only where an old wire starts at
its id, and a new id is that of no block.
-/

namespace Schematic

/-- A use of the same module under the same name and with the same parameters, in which further
ports may be connected after those that were. -/
structure Instance.ExtendedBy (i i' : Instance) : Prop where
  target : i'.target = i.target
  name : i'.name = i.name
  parameters : i'.parameters = i.parameters
  ports : i.ports <+: i'.ports

namespace Graph

section Lists

/-- The table of first wires is carried from left to right, so later wires do not matter. -/
theorem rootsFrom_isPrefix (firsts : List (Endpoint × Nat)) (i : Nat) (ws more : List Wire) :
    rootsFrom firsts i ws <+: rootsFrom firsts i (ws ++ more) := by
  induction ws generalizing firsts i with
  | nil => exact List.nil_prefix
  | cons w rest ih =>
      rw [List.cons_append, rootsFrom, rootsFrom]
      split
      · exact (List.prefix_cons_inj i).mpr (ih firsts (i + 1))
      · split
        · exact (List.prefix_cons_inj _).mpr (ih firsts (i + 1))
        · exact (List.prefix_cons_inj i).mpr (ih _ (i + 1))

/-- Connecting a port keeps what was connected before. -/
theorem isPrefix_connect (i : Nat) (bound : List (String × Nat)) (port : String) :
    bound <+: connect i bound port := by
  unfold connect
  split
  · exact List.prefix_rfl
  · exact List.prefix_append _ _

/-- What only ever appends to a list keeps it, however often it is done. -/
theorem isPrefix_foldl {α β : Type} {f : List α → β → List α} (hf : ∀ l b, l <+: f l b)
    (l : List α) (bs : List β) : l <+: bs.foldl f l := by
  induction bs generalizing l with
  | nil => exact List.prefix_rfl
  | cons b rest ih => exact (hf l b).trans (ih (f l b))

end Lists

/-- The second graph is the first with inputs and signal wires appended. No wire of the first starts
at one of the new inputs. -/
structure Appends (g g' : Graph) (bs : List Block) (ws : List Wire) : Prop where
  blocks : g'.blocks = g.blocks ++ bs
  wires : g'.wires = g.wires ++ ws
  inputs : ∀ b ∈ bs, ∃ t, b.kind = .input t
  signals : ∀ w ∈ ws, w.isFeed = false
  fresh : ∀ b ∈ bs, ∀ w ∈ g.wires, w.source.block ≠ b.id

namespace Appends

variable {g g' : Graph} {bs : List Block} {ws : List Wire}

theorem indexedWires_eq (h : Appends g g' bs ws) :
    g'.indexedWires = g.indexedWires ++ ws.zipIdx g.wires.length := by
  rw [indexedWires, h.wires, List.zipIdx_append, Nat.zero_add]
  rfl

theorem isFeed_of_mem_zipIdx (h : Appends g g' bs ws) {n : Nat} {x : Wire × Nat}
    (hx : x ∈ ws.zipIdx n) : x.1.isFeed = false :=
  h.signals x.1 (List.fst_mem_of_mem_zipIdx hx)

/-- No constant is carried by a new wire. -/
theorem feedDeclarations_eq (h : Appends g g' bs ws) :
    g'.feedDeclarations = g.feedDeclarations := by
  rw [feedDeclarations, feedDeclarations, h.indexedWires_eq, List.filterMap_append]
  apply List.append_right_eq_self.mpr
  apply List.filterMap_eq_nil_iff.mpr
  intro x hx
  simp [h.isFeed_of_mem_zipIdx hx]

/-- Each new wire is declared, after all others. -/
theorem wireDeclarations_eq (h : Appends g g' bs ws) : g'.wireDeclarations =
    g.wireDeclarations ++ (ws.zipIdx g.wires.length).map fun x => .wire x.2 x.1.width := by
  rw [wireDeclarations, wireDeclarations, h.indexedWires_eq, List.filterMap_append,
    ← List.filterMap_eq_map']
  apply congrArg (_ ++ ·)
  apply List.filterMap_congr
  intro x hx
  simp [h.isFeed_of_mem_zipIdx hx]

theorem roots_isPrefix (h : Appends g g' bs ws) : g.roots <+: g'.roots := by
  rw [roots, roots, h.wires]
  exact rootsFrom_isPrefix [] 0 g.wires ws

theorem followerAssigns_isPrefix (h : Appends g g' bs ws) :
    g.followerAssigns <+: g'.followerAssigns := by
  obtain ⟨more, hroots⟩ := h.roots_isPrefix
  rw [followerAssigns, followerAssigns, ← hroots, List.zipIdx_append, List.filterMap_append]
  exact List.prefix_append _ _

/-- A new input is assigned to none of the old wires: none of them starts there. -/
theorem flatMap_assignAt (h : Appends g g' bs ws) {w : Wire} (hw : w ∈ g.wires) (root i : Nat) :
    g'.blocks.flatMap (assignAt w root i) = g.blocks.flatMap (assignAt w root i) := by
  have hnone : bs.flatMap (assignAt w root i) = [] := by
    apply List.flatMap_eq_nil_iff.mpr
    intro b hb
    obtain ⟨t, hkind⟩ := h.inputs b hb
    simp [assignAt, hkind, h.fresh b hb w hw]
  rw [h.blocks, List.flatMap_append, hnone, List.append_nil]

theorem terminalAssigns_isPrefix (h : Appends g g' bs ws) :
    g.terminalAssigns <+: g'.terminalAssigns := by
  obtain ⟨more, hroots⟩ := h.roots_isPrefix
  have hzip : g'.wires.zip g'.roots = g.wires.zip g.roots ++ ws.zip more := by
    rw [h.wires, ← hroots, List.zip_append g.length_roots.symm]
  rw [terminalAssigns, terminalAssigns, hzip, List.zipIdx_append, List.flatMap_append]
  refine ⟨_, congrArg (· ++ _) (List.flatMap_congr fun x hx => ?_)⟩
  have hw : x.1.1 ∈ g.wires := (List.of_mem_zip (List.fst_mem_of_mem_zipIdx hx)).1
  exact (h.flatMap_assignAt hw x.1.2 x.2).symm

theorem connections_isPrefix (h : Appends g g' bs ws) (id : String) :
    g.connections id <+: g'.connections id := by
  rw [connections, connections, h.indexedWires_eq, List.foldl_append]
  -- both loops, over the ports of a wire and over the wires, only append
  refine isPrefix_foldl (fun bound wi => ?_) _ _
  exact isPrefix_foldl (isPrefix_connect wi.2) bound (wi.1.portsAt id)

theorem feedsOf_eq (h : Appends g g' bs ws) (id : String) : g'.feedsOf id = g.feedsOf id := by
  have hnone : ((ws.zipIdx g.wires.length).filter fun wi =>
      wi.1.target.block == id && wi.1.isFeed) = [] := by
    apply List.filter_eq_nil_iff.mpr
    intro x hx
    simp [h.isFeed_of_mem_zipIdx hx]
  rw [feedsOf, h.indexedWires_eq, List.filter_append, hnone, List.append_nil]
  rfl

theorem instanceOf_extendedBy (h : Appends g g' bs ws) (parent : String) (b : Block) :
    (g.instanceOf parent b).ExtendedBy (g'.instanceOf parent b) where
  target := rfl
  name := rfl
  parameters := by
    simp only [instanceOf, instanceFor, h.feedsOf_eq]
  ports := (h.connections_isPrefix b.id).map _

end Appends

end Graph

namespace Wiring

section Fresh

/-- The source of a binding that added an input was the first free id for its name, in some graph
between the first and the last. -/
theorem exists_freeId_of_added {g : Graph} {rs : List Request} {b : DefaultBinding}
    (hb : b ∈ (ofRequests g rs).bindings) (hadded : b.added = true) :
    ∃ g₁ : Graph, b.source = g₁.freeId b.request.name ∧ g.blocks <+: g₁.blocks ∧
      g₁.blocks <+: (ofRequests g rs).graph.blocks := by
  induction rs using List.reverseRecOn with
  | nil => cases hb
  | append_singleton rs r ih =>
      rw [ofRequests_concat] at hb ⊢
      obtain ⟨_, hgraph, hsame⟩ | ⟨_, c, rfl, hbindings, _, hcases⟩ :=
        meet_cases (ofRequests g rs) r
      · rw [hgraph]
        exact ih (hsame ▸ hb)
      · have hgrows : (ofRequests g rs).graph.blocks <+:
            ((ofRequests g rs).meet c.request).graph.blocks := by
          obtain ⟨_, hblocks, _⟩ | ⟨_, hblocks, _⟩ := hcases
          · rw [hblocks]
          · rw [hblocks]
            exact List.prefix_append _ _
        rw [hbindings, List.mem_append, List.mem_singleton] at hb
        rcases hb with hb | rfl
        · obtain ⟨g₁, hsource, hbefore, hafter⟩ := ih hb
          exact ⟨g₁, hsource, hbefore, hafter.trans hgrows⟩
        · obtain ⟨hnot, _⟩ | ⟨_, _, _, hsource⟩ := hcases
          · simp [hadded] at hnot
          · exact ⟨_, hsource, ⟨_, (extends_ofRequests g rs).blocks.symm⟩, hgrows⟩

/-- The source of a binding that added an input is the id of no block that was there before. -/
theorem source_not_mem_of_added {g : Graph} {rs : List Request} {b : DefaultBinding}
    (hb : b ∈ (ofRequests g rs).bindings) (hadded : b.added = true) :
    b.source ∉ g.blocks.map Block.id := by
  obtain ⟨g₁, hsource, hbefore, _⟩ := exists_freeId_of_added hb hadded
  intro hmem
  apply g₁.freeId_not_mem b.request.name
  rw [← hsource]
  exact (hbefore.map Block.id).subset hmem

end Fresh

/-- Where the wires of a graph start at blocks of it, requests append to the graph, and the wires
that were there have nothing to do with the inputs that are new. -/
theorem appends_ofRequests {g : Graph} (rs : List Request)
    (hsources : ∀ w ∈ g.wires, w.source.block ∈ g.blocks.map Block.id) :
    g.Appends (ofRequests g rs).graph ((ofRequests g rs).added.map DefaultBinding.input)
      ((ofRequests g rs).bindings.map DefaultBinding.wire) where
  blocks := (extends_ofRequests g rs).blocks
  wires := (extends_ofRequests g rs).wires
  inputs := by
    intro b hb
    obtain ⟨c, _, rfl⟩ := List.mem_map.mp hb
    exact ⟨_, rfl⟩
  signals := by
    intro w hw
    obtain ⟨c, _, rfl⟩ := List.mem_map.mp hw
    rfl
  fresh := by
    intro b hb w hw hsame
    obtain ⟨c, hc, rfl⟩ := List.mem_map.mp hb
    obtain ⟨hc, hadded⟩ := List.mem_filter.mp hc
    have hid : w.source.block = c.source := hsame
    exact source_not_mem_of_added hc hadded (hid ▸ hsources w hw)

/-- What a graph's body keeps when requests have been met: the constants as they are, the
declarations with one more for each binding, and the assignments, the followers and the instances
with what is new after what was there. -/
structure Undisturbed (g : Graph) (w : Wiring) (insts insts' : List Instance) : Prop where
  constants : w.graph.localConstants ++ w.graph.feedDeclarations =
    g.localConstants ++ g.feedDeclarations
  declarations : w.graph.wireDeclarations = g.wireDeclarations ++
    (List.range' g.wires.length w.bindings.length).map fun i => .wire i none
  assigns : g.terminalAssigns <+: w.graph.terminalAssigns
  followers : g.followerAssigns <+: w.graph.followerAssigns
  roots : g.roots <+: w.graph.roots
  instances : List.Forall₂ Instance.ExtendedBy insts insts'

section Kept

variable {g : Graph} {rs : List Request} {name : String} {s : Scope}

/-- Requests add no code or circuit blocks. -/
theorem filter_isInstance_ofRequests (g : Graph) (rs : List Request) :
    (ofRequests g rs).graph.blocks.filter Block.isInstance = g.blocks.filter Block.isInstance := by
  rw [graph_ofRequests, ← List.filterMap_eq_filter]
  apply (grows_foldl_step g rs).filterMap_blocks
  intro b t hkind
  simp [Block.isInstance, hkind]

theorem localConstants_ofRequests (g : Graph) (rs : List Request) :
    (ofRequests g rs).graph.localConstants = g.localConstants := by
  rw [graph_ofRequests]
  apply (grows_foldl_step g rs).filterMap_blocks
  intro b t hkind
  simp [hkind]

/-- The wires of bindings have no width. -/
theorem map_wire_zipIdx (bs : List DefaultBinding) (n : Nat) :
    ((bs.map DefaultBinding.wire).zipIdx n).map (fun x => Statement.wire x.2 x.1.width) =
      (List.range' n bs.length).map fun i => .wire i none := by
  rw [List.zipIdx_map, List.map_map, ← List.zipIdx_map_snd n bs, List.map_map]
  rfl

theorem resolves_ofRequests (h : ∀ b ∈ g.blocks, s.Resolves b) :
    ∀ b ∈ (ofRequests g rs).graph.blocks, s.Resolves b := by
  intro b hb
  rw [(extends_ofRequests g rs).blocks] at hb
  rcases List.mem_append.mp hb with hb | hb
  · exact h b hb
  · obtain ⟨c, _, rfl⟩ := List.mem_map.mp hb
    intro type hkind
    cases hkind

/-- Requests do not disturb a body: where every wire of a graph starts at one of its blocks, the
graph still has a body once they are met, and each part of the old one stands at the beginning of
that part of the new one. -/
theorem requests_leave_body {list : List Statement} (rs : List Request)
    (hsources : ∀ w ∈ g.wires, w.source.block ∈ g.blocks.map Block.id)
    (h : g.statements name s = .ok list) :
    ∃ insts insts', list = g.wiring ++ insts.map .use ∧
      (ofRequests g rs).graph.statements name s =
        .ok ((ofRequests g rs).graph.wiring ++ insts'.map .use) ∧
      Undisturbed g (ofRequests g rs) insts insts' := by
  have happends := appends_ofRequests rs hsources
  obtain ⟨hresolves, rfl⟩ := (g.statements_eq_ok_iff name s list).mp h
  refine ⟨(g.blocks.filter Block.isInstance).map (g.instanceOf name),
    (g.blocks.filter Block.isInstance).map ((ofRequests g rs).graph.instanceOf name), ?_, ?_, ?_⟩
  · rw [List.map_map]
    rfl
  · apply (Graph.statements_eq_ok_iff _ _ _ _).mpr
    rw [filter_isInstance_ofRequests, List.map_map]
    exact ⟨resolves_ofRequests hresolves, rfl⟩
  · constructor
    case constants => rw [localConstants_ofRequests, happends.feedDeclarations_eq]
    case declarations => rw [happends.wireDeclarations_eq, map_wire_zipIdx]
    case assigns => exact happends.terminalAssigns_isPrefix
    case followers => exact happends.followerAssigns_isPrefix
    case roots => exact happends.roots_isPrefix
    case instances =>
      rw [List.forall₂_map_left_iff, List.forall₂_map_right_iff]
      exact List.forall₂_same.mpr fun b _ => happends.instanceOf_extendedBy name b

/-- A part with a clock, a constant and an output. -/
def wiredPart : Graph where
  blocks := [⟨"clk", .input (.onPin "clk" "21")⟩, ⟨"k", .constant { value := "5" }⟩,
    ⟨"u", .circuit "part"⟩, ⟨"o", .output {}⟩]
  wires := [{ source := ⟨"clk", "out"⟩, target := ⟨"u", "a"⟩ },
    { source := ⟨"k", "constant-out"⟩, target := ⟨"u", "n"⟩ },
    { source := ⟨"u", "q"⟩, target := ⟨"o", "in"⟩ }]

/-- One port that is wired, one for the pin of the clock, and one for a pin that no input has. -/
def furtherPorts : List Request :=
  [⟨"u", "a", "clk", "95"⟩, ⟨"u", "b", "clk", "21"⟩, ⟨"u", "c", "clk", "95"⟩]

/-- The first new wire follows that of the clock, and the second comes from an input of its
own. -/
theorem requests_leave_body_wiredPart : ∃ list insts insts',
    (∀ w ∈ wiredPart.wires, w.source.block ∈ wiredPart.blocks.map Block.id) ∧
    wiredPart.statements "main" [[("part", default)]] = .ok list ∧
    list = wiredPart.wiring ++ insts.map .use ∧
    (ofRequests wiredPart furtherPorts).graph.roots = [0, 1, 2, 0, 4] ∧
    Undisturbed wiredPart (ofRequests wiredPart furtherPorts) insts insts' := by
  have hsources : ∀ w ∈ wiredPart.wires, w.source.block ∈ wiredPart.blocks.map Block.id := by
    decide
  obtain ⟨list, hlist⟩ : ∃ list,
      wiredPart.statements "main" [[("part", default)]] = .ok list := ⟨_, rfl⟩
  obtain ⟨insts, insts', hinsts, _, hkept⟩ := requests_leave_body furtherPorts hsources hlist
  exact ⟨list, insts, insts', hsources, hlist, hinsts, by decide +kernel, hkept⟩

end Kept

end Wiring

end Schematic
