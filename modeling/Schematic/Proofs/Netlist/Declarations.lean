import Schematic.Proofs.Netlist.Statements
import Schematic.Proofs.Text.Lines
import Mathlib.Data.List.Nodup

/-!
# Names declared in a module

The module of a graph declares parameters and ports in its clauses, and constants, wires and
instances in its body. The kind of a block decides the one place where its name is declared, and
every wire is declared under its position. Wires and blocks have names with different first letters,
so that names clash only where two blocks have the same identifier.
-/

namespace Schematic

section Letters

/-- The signal or the constant that a wire carries. -/
def Wire.net (w : Wire) (i : Nat) : Net := if w.isFeed then .feed i else .wire i

theorem Net.text_wire_inj {i j : Nat} : (Net.wire i).text = (Net.wire j).text ↔ i = j :=
  append_toString_inj "w"

theorem Net.text_feed_inj {i j : Nat} : (Net.feed i).text = (Net.feed j).text ↔ i = j :=
  append_toString_inj "p"

theorem Net.text_wire_ne_text_feed (i j : Nat) : (Net.wire i).text ≠ (Net.feed j).text := by
  intro h
  have hhead := congrArg (fun s : String => s.toList.head?) h
  simp [Net.text] at hhead

/-- The name of a wire tells its position. -/
theorem Wire.index_eq_of_text_net_eq {v w : Wire} {i j : Nat}
    (h : (v.net i).text = (w.net j).text) : i = j := by
  unfold Wire.net at h
  split at h
  · split at h
    · exact Net.text_feed_inj.mp h
    · exact absurd h.symm (Net.text_wire_ne_text_feed j i)
  · split at h
    · exact absurd h (Net.text_wire_ne_text_feed i j)
    · exact Net.text_wire_inj.mp h

/-- Identifiers begin with another letter than the names of wires. -/
theorem Net.exists_head?_text {n : Net} (hn : ∀ x, n ≠ .name x) :
    ∃ c, n.text.toList.head? = some c ∧ c ≠ 'v' := by
  cases n with
  | wire i => exact ⟨'w', by simp [Net.text], by decide⟩
  | feed i => exact ⟨'p', by simp [Net.text], by decide⟩
  | name x => exact absurd rfl (hn x)

/-- No identifier is the name of a wire. -/
theorem Identifier.ofId_ne_text (id : String) {n : Net} (hn : ∀ x, n ≠ .name x) :
    Identifier.ofId id ≠ n.text := by
  intro h
  obtain ⟨c, hc, hne⟩ := Net.exists_head?_text hn
  rw [← h, Identifier.head?_ofId] at hc
  exact hne (Option.some.inj hc).symm

theorem Wire.net_ne_name (w : Wire) (i : Nat) (x : String) : w.net i ≠ .name x := by
  unfold Wire.net
  split <;> simp

end Letters

section Declared

/-- The name that a statement declares. -/
def Statement.declaredName? : Statement → Option String
  | .constant name _ => some name
  | .feed i _ => some (Net.feed i).text
  | .wire i _ => some (Net.wire i).text
  | .use inst => some inst.name
  | .assign _ _ => none
  | .hold _ _ => none

/-- The names that a body of statements declares. -/
def Body.declaredNames : Body → List String
  | .statements list => list.filterMap Statement.declaredName?
  | .text _ => []

/-- The names that a module declares: parameters, inputs, outputs, and what its body declares. -/
def Module.declaredNames (m : Module) : List String :=
  m.parameters.map Parameter.name ++ m.inputs.map Port.name ++ m.outputs.map Port.name ++
    m.body.declaredNames

/-- Where a module declares the name of a block. -/
inductive Place where
  | parameter
  | input
  | output
  | constant
  | use
  | nowhere
deriving DecidableEq

def Block.place (b : Block) : Place :=
  match b.kind with
  | .input _ => .input
  | .output _ => .output
  | .constant c => if c.isLocal then .constant else .parameter
  | .code _ => .use
  | .info => .nowhere
  | .circuit _ => .use

/-- The places of declarations, in the order of a module. -/
def Place.all : List Place := [.parameter, .input, .output, .constant, .use]

theorem Place.mem_all_iff (p : Place) : p ∈ Place.all ↔ p ≠ .nowhere := by
  cases p <;> decide

end Declared

theorem pairwise_index_ne {α : Type} (l : List α) : l.zipIdx.Pairwise fun x y => x.2 ≠ y.2 := by
  have hindices : (l.zipIdx.map Prod.snd).Nodup := by
    rw [List.zipIdx_map_snd]
    exact List.nodup_range'
  exact List.pairwise_map.mp hindices

/-- Sorting a list into places keeps all that has one of them. -/
theorem flatMap_filter_perm {α β : Type} [DecidableEq β] (f : α → β) (l : List α) {places : List β}
    (h : places.Nodup) :
    (places.flatMap fun p => l.filter fun a => f a = p).Perm (l.filter fun a => f a ∈ places) := by
  induction places with
  | nil => simp
  | cons p rest ih =>
      obtain ⟨hp, hrest⟩ := List.nodup_cons.mp h
      rw [List.flatMap_cons]
      refine ((ih hrest).append_left _).trans ?_
      have hsplit := List.filter_append_perm (fun a => decide (f a = p))
        (l.filter fun a => f a ∈ p :: rest)
      rw [List.filter_filter, List.filter_filter] at hsplit
      have hfirst (a : α) : (decide (f a = p) && decide (f a ∈ p :: rest)) = decide (f a = p) := by
        by_cases ha : f a = p <;> simp [ha]
      have hlater (a : α) :
          (!decide (f a = p) && decide (f a ∈ p :: rest)) = decide (f a ∈ rest) := by
        by_cases ha : f a = p <;> simp [ha, hp]
      simpa only [hfirst, hlater] using hsplit

namespace Graph

section Families

variable (g : Graph)

/-- The blocks that are declared in a place, by their names. -/
def namesAt (p : Place) : List String :=
  (g.blocks.filter fun b => b.place = p).map fun b => Identifier.ofId b.id

/-- What is read off the blocks of one place, one after another. -/
theorem filterMap_eq_namesAt {f : Block → Option String} {p : Place}
    (h : ∀ b, f b = if b.place = p then some (Identifier.ofId b.id) else none) :
    g.blocks.filterMap f = g.namesAt p := by
  rw [namesAt, ← List.filterMap_eq_map', List.filterMap_filter]
  exact List.filterMap_congr fun b _ => by simp [h b]

theorem names_parameters : g.parameters.map Parameter.name = g.namesAt .parameter := by
  rw [parameters, List.map_filterMap]
  apply filterMap_eq_namesAt
  intro b
  cases hkind : b.kind with
  | constant c => by_cases hc : c.isLocal <;> simp [Block.place, hkind, hc]
  | _ => simp [Block.place, hkind]

theorem names_inputPorts : g.inputPorts.map Port.name = g.namesAt .input := by
  rw [inputPorts, List.map_filterMap]
  apply filterMap_eq_namesAt
  intro b
  cases hkind : b.kind with
  | constant c => by_cases hc : c.isLocal <;> simp [Block.place, Block.input?, hkind, hc]
  | _ => simp [Block.place, Block.input?, hkind]

theorem names_outputPorts : g.outputPorts.map Port.name = g.namesAt .output := by
  rw [outputPorts, List.map_filterMap]
  apply filterMap_eq_namesAt
  intro b
  cases hkind : b.kind with
  | constant c => by_cases hc : c.isLocal <;> simp [Block.place, Block.output?, hkind, hc]
  | _ => simp [Block.place, Block.output?, hkind]

theorem names_localConstants :
    g.localConstants.filterMap Statement.declaredName? = g.namesAt .constant := by
  rw [localConstants, List.filterMap_filterMap]
  apply filterMap_eq_namesAt
  intro b
  cases hkind : b.kind with
  | constant c => by_cases hc : c.isLocal <;> simp [Block.place, Statement.declaredName?, hkind, hc]
  | _ => simp [Block.place, hkind]

theorem names_instances (name : String) :
    ((g.blocks.filter Block.isInstance).map fun b =>
      Statement.use (g.instanceOf name b)).filterMap Statement.declaredName? = g.namesAt .use := by
  rw [List.filterMap_map, List.filterMap_filter]
  apply filterMap_eq_namesAt
  intro b
  cases hkind : b.kind with
  | constant c => by_cases hc : c.isLocal <;> simp [Block.place, Block.isInstance, hkind, hc]
  | _ =>
      simp [Block.place, Block.isInstance, Statement.declaredName?, instanceOf, instanceFor, hkind]

/-- The wires by their names. -/
def wireNames : List String := g.indexedWires.map fun x => (x.1.net x.2).text

theorem names_feedDeclarations : g.feedDeclarations.filterMap Statement.declaredName? =
    (g.indexedWires.filter fun x => x.1.isFeed).map fun x => (x.1.net x.2).text := by
  rw [feedDeclarations, List.filterMap_filterMap, ← List.filterMap_eq_map', List.filterMap_filter]
  refine List.filterMap_congr fun x _ => ?_
  by_cases hf : x.1.isFeed <;> simp [hf, Wire.net, Statement.declaredName?]

theorem names_wireDeclarations : g.wireDeclarations.filterMap Statement.declaredName? =
    (g.indexedWires.filter fun x => !x.1.isFeed).map fun x => (x.1.net x.2).text := by
  rw [wireDeclarations, List.filterMap_filterMap, ← List.filterMap_eq_map', List.filterMap_filter]
  refine List.filterMap_congr fun x _ => ?_
  by_cases hf : x.1.isFeed <;> simp [hf, Wire.net, Statement.declaredName?]

/-- Assignments declare nothing. -/
theorem names_terminalAssigns : g.terminalAssigns.filterMap Statement.declaredName? = [] := by
  apply List.filterMap_eq_nil_iff.mpr
  intro st hst
  obtain ⟨x, y, rfl⟩ := exists_assign_of_mem_terminalAssigns hst
  rfl

theorem names_followerAssigns : g.followerAssigns.filterMap Statement.declaredName? = [] := by
  apply List.filterMap_eq_nil_iff.mpr
  intro st hst
  obtain ⟨i, root, _, _, rfl⟩ := mem_followerAssigns_iff.mp hst
  rfl

end Families

section Module

variable {g : Graph} {name : String} {s : Scope} {list : List Statement} {m : Module}

/-- The names of the blocks that are declared anywhere. -/
def blockNames (g : Graph) : List String :=
  (g.blocks.filter fun b => b.place ≠ .nowhere).map fun b => Identifier.ofId b.id

theorem flatMap_namesAt_perm (g : Graph) : (Place.all.flatMap g.namesAt).Perm g.blockNames := by
  have hall : Place.all.Nodup := by decide
  have hperm := (flatMap_filter_perm Block.place g.blocks hall).map fun b => Identifier.ofId b.id
  simp only [List.map_flatMap, Place.mem_all_iff] at hperm
  exact hperm

theorem names_wires_perm (g : Graph) :
    ((g.feedDeclarations ++ g.wireDeclarations).filterMap Statement.declaredName?).Perm
      g.wireNames := by
  rw [List.filterMap_append, names_feedDeclarations, names_wireDeclarations, ← List.map_append]
  exact (List.filter_append_perm (fun x => x.1.isFeed) g.indexedWires).map _

/-- The names declared in a body, by the places they come from. -/
theorem names_statements (h : g.statements name s = .ok list) :
    list.filterMap Statement.declaredName? = g.namesAt .constant ++
      (g.feedDeclarations ++ g.wireDeclarations).filterMap Statement.declaredName? ++
        g.namesAt .use := by
  obtain ⟨_, rfl⟩ := (statements_eq_ok_iff g name s list).mp h
  simp only [wiring, List.filterMap_append, names_localConstants, names_terminalAssigns,
    names_followerAssigns, names_instances, List.nil_append, List.append_assoc]

/-- A module declares one name for each block, other than information blocks, and one for each
wire. -/
theorem declaredNames_perm (h : g.toModule name s = .ok m) :
    m.declaredNames.Perm (g.blockNames ++ g.wireNames) := by
  obtain ⟨list, hlist, rfl⟩ := map_eq_ok_iff.mp h
  have hnames : Module.declaredNames
      ⟨name, g.parameters, g.inputPorts, g.outputPorts, .statements list⟩ =
      g.namesAt .parameter ++ g.namesAt .input ++ g.namesAt .output ++ g.namesAt .constant ++
        ((g.feedDeclarations ++ g.wireDeclarations).filterMap Statement.declaredName? ++
          g.namesAt .use) := by
    simp only [Module.declaredNames, Body.declaredNames, names_statements hlist, names_parameters,
      names_inputPorts, names_outputPorts, List.append_assoc]
  have hplaces : g.namesAt .parameter ++ g.namesAt .input ++ g.namesAt .output ++
      g.namesAt .constant ++ g.namesAt .use = Place.all.flatMap g.namesAt := by
    simp [Place.all]
  rw [hnames]
  refine (List.perm_append_comm.append_left _).trans ?_
  rw [← List.append_assoc, hplaces]
  exact g.flatMap_namesAt_perm.append g.names_wires_perm

/-- Wires have names of their own. -/
theorem nodup_wireNames (g : Graph) : g.wireNames.Nodup := by
  apply List.pairwise_map.mpr
  refine (pairwise_index_ne g.wires).imp ?_
  intro x y hne heq
  exact hne (Wire.index_eq_of_text_net_eq heq)

/-- Names clash in a module exactly where two blocks have the same identifier. -/
theorem nodup_declaredNames_iff (h : g.toModule name s = .ok m) :
    m.declaredNames.Nodup ↔ g.blockNames.Nodup := by
  rw [(declaredNames_perm h).nodup_iff, List.nodup_append]
  constructor
  · exact fun hall => hall.1
  · intro hblocks
    refine ⟨hblocks, g.nodup_wireNames, ?_⟩
    intro a ha b hb
    obtain ⟨c, _, rfl⟩ := List.mem_map.mp ha
    obtain ⟨x, _, rfl⟩ := List.mem_map.mp hb
    exact Identifier.ofId_ne_text c.id (x.1.net_ne_name x.2)

/-- When the blocks of a graph have different identifiers, all names that its module declares are
different: one for each block that is declared anywhere, and one for each wire. -/
theorem declared_names_distinct (hids : (g.blocks.map fun b => Identifier.ofId b.id).Nodup)
    (h : g.toModule name s = .ok m) :
    m.declaredNames.Nodup ∧ m.declaredNames.Perm (g.blockNames ++ g.wireNames) := by
  refine ⟨(nodup_declaredNames_iff h).mpr ?_, declaredNames_perm h⟩
  exact hids.sublist (List.filter_sublist.map _)

end Module

/-- Blocks of all kinds with the names of wires for ids, and a wire of either kind. -/
def misleading : Graph where
  blocks := [⟨"w0", .input {}⟩, ⟨"p1", .output {}⟩, ⟨"w1", .constant {}⟩,
    ⟨"p0", .constant { isLocal := true }⟩, ⟨"a-b", .code {}⟩, ⟨"u", .circuit "t"⟩, ⟨"", .info⟩]
  wires := [{ source := ⟨"w0", "out"⟩, target := ⟨"p1", "in"⟩ },
    { source := ⟨"w1", "constant-out"⟩, target := ⟨"u", "N"⟩ }]

theorem declared_names_distinct_misleading : ∃ m,
    (misleading.blocks.map fun b => Identifier.ofId b.id).Nodup ∧
    misleading.toModule "main" [[("t", default)]] = .ok m ∧
    m.declaredNames = ["vw1", "vw0", "vp1", "vp0", "p1", "w0", Identifier.ofId "a-b", "vu"] ∧
    m.declaredNames.Nodup := by
  have hids : (misleading.blocks.map fun b => Identifier.ofId b.id).Nodup := by decide +kernel
  obtain ⟨m, hm⟩ : ∃ m, misleading.toModule "main" [[("t", default)]] = .ok m := ⟨_, rfl⟩
  refine ⟨m, hids, hm, ?_, (declared_names_distinct hids hm).1⟩
  obtain rfl : _ = m := Except.ok.inj hm
  rfl

end Graph

end Schematic
