import Schematic.Proofs.Netlist.Lines
import Schematic.Proofs.Netlist.ModuleText
import Schematic.Proofs.Design.Ids

/-!
# Drivers of wires

Every wire is declared in one line, as a signal or as a constant. A signal wire takes its value from
where it starts: a wire that is not the root of its port is assigned the root, and a root is
assigned its input or bound to the port of the instance where it starts. The three passes that write
these never meet on one wire. A second driver comes only from the other end: an instance binds each
port to the first wire that touches it, and a port where wires start may be touched first by a wire
that ends there.
-/

namespace Schematic

/-- A list has one entry with a property when one thing has it and stands in the list once. -/
theorem filter_eq_singleton {α : Type} [BEq α] [LawfulBEq α] {p : α → Bool} {l : List α} {a : α}
    (hp : ∀ b ∈ l, p b = true ↔ b = a) (hcount : l.count a = 1) : l.filter p = [a] := by
  have hfilter : l.filter p = l.filter (· == a) := by
    refine List.filter_congr fun b hb => ?_
    rw [Bool.eq_iff_iff, hp b hb, beq_iff_eq]
  rw [hfilter, List.filter_beq, hcount, List.replicate_one]

section Spelling

/-- The name of the wire at a position. -/
def wireName (i : Nat) : String := "w" ++ toString i

/-- The declaration of the wire at a position, with a width or without. -/
def wireLine (i : Nat) : Option Nat → String
  | none => "wire " ++ wireName i ++ ";"
  | some width => "wire [0:" ++ toString (width - 1) ++ "] " ++ wireName i ++ ";"

/-- The declaration of the constant that the wire at a position carries. -/
def feedLine (i : Nat) (source : String) : String :=
  "localparam " ++ ("p" ++ toString i) ++ " = " ++ source ++ ";"

def assignLine (left right : String) : String := "assign " ++ left ++ " = " ++ right ++ ";"

theorem Statement.text_wire_eq_wireLine (i : Nat) (width : Option Nat) :
    (Statement.wire i width).text = wireLine i width := by
  cases width <;> rfl

end Spelling

/-- The instance of a block as a body shows it: what its parameters and ports are bound to. -/
structure Use where
  block : Block
  parameters : List (String × String)
  ports : List (String × String)
deriving DecidableEq

/-- The text of an instance inside the module `name`. -/
def Use.text (name : String) (u : Use) : String :=
  useText (u.block.moduleName name) u.parameters (Identifier.ofId u.block.id) u.ports

/-- What gives a wire its value: a line that assigns to it, or a port of the instance of a block
that is bound to it. -/
inductive Driver where
  | line (text : String)
  | port (block : String) (binding : String × String)
deriving DecidableEq

namespace Graph

section Once

variable {g : Graph} {name : String} {s : Scope} {list : List Statement}

/-- The declarations of wires are different from each other. -/
theorem nodup_wireDeclarations (g : Graph) : (g.feedDeclarations ++ g.wireDeclarations).Nodup := by
  have hnames := g.names_wires_perm.nodup_iff.mpr g.nodup_wireNames
  refine (List.pairwise_filterMap.mp hnames).imp_of_mem ?_
  rintro a b ha _ hne rfl
  obtain ⟨x, hx⟩ : ∃ x, a.declaredName? = some x := by
    rcases List.mem_append.mp ha with ha | ha
    · obtain ⟨_, _, _, _, rfl⟩ := mem_feedDeclarations_iff.mp ha
      exact ⟨_, rfl⟩
    · obtain ⟨_, _, _, _, rfl⟩ := mem_wireDeclarations_iff.mp ha
      exact ⟨_, rfl⟩
  exact hne x hx x hx rfl

/-- One wire makes at most one assignment for its source and one for its target. -/
theorem nodup_flatMap_assignAt (hg : g.DistinctIds) (w : Wire) (root i : Nat) :
    (g.blocks.flatMap (assignAt w root i)).Nodup := by
  refine List.nodup_flatMap.mpr ⟨fun b _ => ?_, ?_⟩
  · unfold assignAt
    split
    · split <;> simp
    · split <;> simp
    · simp
  · refine (List.pairwise_map.mp hg).imp fun {b c} hne st hb hc => ?_
    rcases (mem_assignAt_iff w root i b st).mp hb with
      ⟨_, _, hsource, _, rfl⟩ | ⟨_, _, htarget, rfl⟩ <;>
    rcases (mem_assignAt_iff w root i c _).mp hc with
      ⟨_, _, hsource', _, heq⟩ | ⟨_, _, htarget', heq⟩
    · exact hne (hsource.symm.trans hsource')
    · cases heq
    · cases heq
    · exact hne (htarget.symm.trans htarget')

theorem nodup_terminalAssigns (hg : g.DistinctIds) : g.terminalAssigns.Nodup := by
  refine List.nodup_flatMap.mpr ⟨fun x _ => nodup_flatMap_assignAt hg _ _ _, ?_⟩
  refine (pairwise_index_ne (g.wires.zip g.roots)).imp fun {x y} hne st hx hy => ?_
  obtain ⟨b, _, hb⟩ := List.mem_flatMap.mp hx
  obtain ⟨c, _, hc⟩ := List.mem_flatMap.mp hy
  rcases (mem_assignAt_iff _ _ _ b st).mp hb with ⟨_, _, _, _, rfl⟩ | ⟨_, _, _, rfl⟩ <;>
  rcases (mem_assignAt_iff _ _ _ c _).mp hc with ⟨_, _, _, _, heq⟩ | ⟨_, _, _, heq⟩
  · exact hne (Net.wire.inj (Statement.assign.inj heq).1)
  · cases heq
  · cases heq
  · obtain ⟨_, hnet⟩ := Statement.assign.inj heq
    exact hne (Wire.index_eq_of_text_net_eq (congrArg Net.text hnet))

theorem nodup_followerAssigns (g : Graph) : g.followerAssigns.Nodup := by
  refine List.pairwise_filterMap.mpr ((pairwise_index_ne g.roots).imp ?_)
  rintro ⟨r, i⟩ ⟨r', j⟩ hne st hst st' hst' rfl
  obtain ⟨_, hi⟩ := Option.ite_none_left_eq_some.mp hst
  obtain ⟨_, hj⟩ := Option.ite_none_left_eq_some.mp hst'
  cases Option.some.inj hi
  cases Option.some.inj hj
  exact hne rfl

theorem nodup_assigns (hg : g.DistinctIds) : (g.terminalAssigns ++ g.followerAssigns).Nodup := by
  refine List.nodup_append.mpr ⟨nodup_terminalAssigns hg, g.nodup_followerAssigns, ?_⟩
  rintro st hterminal _ hfollower rfl
  obtain ⟨i, w, root, _, _, b, _, hb⟩ := (mem_terminalAssigns_iff g st).mp hterminal
  obtain ⟨_, _, _, _, rfl⟩ := mem_followerAssigns_iff.mp hfollower
  rcases (mem_assignAt_iff w root i b _).mp hb with ⟨_, _, _, _, heq⟩ | ⟨_, _, _, heq⟩ <;> cases heq

/-- The declaration of a wire stands in a body once. -/
theorem count_declaration (h : g.statements name s = .ok list) {st : Statement}
    (hst : st ∈ g.feedDeclarations ++ g.wireDeclarations) : list.count st = 1 := by
  obtain ⟨_, rfl⟩ := (statements_eq_ok_iff g name s list).mp h
  have hshape : (∃ i source, st = .feed i source) ∨ ∃ i width, st = .wire i width := by
    rcases List.mem_append.mp hst with hst | hst
    · obtain ⟨i, w, _, _, rfl⟩ := mem_feedDeclarations_iff.mp hst
      exact Or.inl ⟨i, _, rfl⟩
    · obtain ⟨i, w, _, _, rfl⟩ := mem_wireDeclarations_iff.mp hst
      exact Or.inr ⟨i, _, rfl⟩
  have hconstant : st ∉ g.localConstants := by
    intro hmem
    obtain ⟨_, _, rfl⟩ := exists_constant_of_mem hmem
    simp at hshape
  have hterminal : st ∉ g.terminalAssigns := by
    intro hmem
    obtain ⟨_, _, rfl⟩ := exists_assign_of_mem_terminalAssigns hmem
    simp at hshape
  have hfollower : st ∉ g.followerAssigns := by
    intro hmem
    obtain ⟨_, _, _, _, rfl⟩ := mem_followerAssigns_iff.mp hmem
    simp at hshape
  have huse : st ∉ (g.blocks.filter Block.isInstance).map fun b =>
      Statement.use (g.instanceOf name b) := by
    intro hmem
    obtain ⟨_, _, rfl⟩ := List.mem_map.mp hmem
    simp at hshape
  rw [wiring, List.append_assoc g.localConstants, List.count_append, List.count_append,
    List.count_append, List.count_append, List.count_eq_zero.mpr hconstant,
    List.count_eq_zero.mpr hterminal, List.count_eq_zero.mpr hfollower,
    List.count_eq_zero.mpr huse, List.count_eq_one_of_mem g.nodup_wireDeclarations hst]

/-- An assignment stands in a body once. -/
theorem count_assign (hg : g.DistinctIds) (h : g.statements name s = .ok list) {x y : Net}
    (hst : .assign x y ∈ g.wiring) : list.count (.assign x y) = 1 := by
  obtain ⟨_, rfl⟩ := (statements_eq_ok_iff g name s list).mp h
  have hdeclared := g.assign_not_mem_declarations x y
  have hmem : .assign x y ∈ g.terminalAssigns ++ g.followerAssigns := by
    rw [wiring, List.append_assoc, List.mem_append] at hst
    exact hst.resolve_left hdeclared
  have huse : .assign x y ∉ (g.blocks.filter Block.isInstance).map fun b =>
      Statement.use (g.instanceOf name b) := by simp
  rw [wiring, List.append_assoc _ g.terminalAssigns, List.count_append, List.count_append,
    List.count_eq_zero.mpr hdeclared, List.count_eq_zero.mpr huse,
    List.count_eq_one_of_mem (nodup_assigns hg) hmem]

end Once

section Bindings

variable {g : Graph} {name : String} {s : Scope} {list : List Statement}

/-- The lines of a body show some instances: after declarations and assignments come those of the
blocks in order, and each binding is one of a port to a wire that touches it. -/
structure Shows (g : Graph) (name : String) (lines : List String) (uses : List Use) : Prop where
  blocks : uses.map Use.block = g.blocks.filter Block.isInstance
  lines : ∃ front, lines = front ++ uses.map (Use.text name) ∧
    ∀ line ∈ front, begins "localparam " line ∨ begins "wire " line ∨ begins "assign " line
  ports : ∀ u ∈ uses, ∀ x ∈ u.ports, ∃ (i : Nat) (w : Wire) (p : String),
    g.wires[i]? = some w ∧ (w.source = ⟨u.block.id, p⟩ ∨ w.target = ⟨u.block.id, p⟩) ∧
      x = (u.block.spell p, wireName i)

/-- The names that the instance of a block has for the ports where wires start. -/
def sourceNames (g : Graph) (b : Block) : List String :=
  (g.wires.filter fun w => w.source.block = b.id).map fun w => b.spell w.source.port

/-- The drivers of the wire at a position: the lines that assign to it, and the ports bound to it
where wires start. -/
def drivers (g : Graph) (lines : List String) (uses : List Use) (i : Nat) : List Driver :=
  (lines.filter (assignsWire i)).map .line ++
    uses.flatMap fun u =>
      (u.ports.filter fun x => x.2 = wireName i ∧ x.1 ∈ g.sourceNames u.block).map
        (.port u.block.id)

/-- A wire ends at a port where wires start, and is the first to touch it: the port has a name, and
the name that the instance has for it is that of a port where wires start. -/
structure EndsAtSource (g : Graph) (i : Nat) (w : Wire) (b : Block) : Prop where
  mem : b ∈ g.blocks
  isInstance : b.isInstance
  target : w.target.block = b.id
  named : w.target.port ≠ ""
  first : ∀ j v, j < i → g.wires[j]? = some v →
    v.source ≠ w.target ∧ (v.isFeed = false → v.target ≠ w.target)
  source : b.spell w.target.port ∈ g.sourceNames b

/-- A wire is driven from where it starts, and also from where it ends if it is the first to touch a
port where wires start. -/
def DrivenBy (g : Graph) (lines : List String) (uses : List Use) (i : Nat) (w : Wire)
    (start : Driver) : Prop :=
  ((∀ b, ¬ g.EndsAtSource i w b) → g.drivers lines uses i = [start]) ∧
  ∀ b, g.EndsAtSource i w b →
    (g.drivers lines uses i).Perm
      [start, .port b.id (b.spell w.target.port, wireName i)]

/-- The instance of a block, with its bindings spelled out. -/
def useOf (g : Graph) (b : Block) : Use where
  block := b
  parameters := (g.feedsOf b.id).map fun x => (b.spell x.1, "p" ++ toString x.2)
  ports := (g.connections b.id).map fun x => (b.spell x.1, wireName x.2)

/-- The instances of a body. -/
def usesOf (g : Graph) : List Use := (g.blocks.filter Block.isInstance).map g.useOf

theorem text_instanceOf (g : Graph) (name : String) (b : Block) :
    (Statement.use (g.instanceOf name b)).text = (g.useOf b).text name := by
  rw [Statement.text_use, Instance.text_eq]
  simp only [Use.text, useOf, instanceOf, instanceFor, List.map_map]
  rfl

theorem shows_usesOf (h : g.statements name s = .ok list) :
    g.Shows name (list.map Statement.text) g.usesOf := by
  obtain ⟨_, rfl⟩ := (statements_eq_ok_iff g name s list).mp h
  have hblocks : g.usesOf.map Use.block = g.blocks.filter Block.isInstance := by
    rw [usesOf, List.map_map]
    exact List.map_id _
  refine ⟨hblocks, ⟨g.wiring.map Statement.text, ?_, ?_⟩, ?_⟩
  · rw [List.map_append, usesOf, List.map_map, List.map_map]
    exact congrArg _ (List.map_congr_left fun b _ => g.text_instanceOf name b)
  · intro line hline
    obtain ⟨st, hst, rfl⟩ := List.mem_map.mp hline
    rcases mem_statements_cases h (List.mem_append_left _ hst) with
      ⟨_, _, rfl⟩ | ⟨i, w, _, _, rfl⟩ | ⟨i, w, _, _, rfl⟩ | ⟨_, _, _, rfl⟩ | ⟨b, _, _, rfl⟩
    · exact Or.inl (by simp [begins, Statement.text_constant])
    · exact Or.inl (by simp [begins, Statement.text_feed])
    · exact Or.inr (Or.inl (begins_text_wire i w.width))
    · exact Or.inr (Or.inr (by simp [begins, Statement.text_assign]))
    · exact absurd hst (g.use_not_mem_wiring _)
  · intro u hu x hx
    obtain ⟨b, _, rfl⟩ := List.mem_map.mp hu
    obtain ⟨⟨p, i⟩, hp, rfl⟩ := List.mem_map.mp hx
    obtain ⟨_, w, hw, hmeet⟩ := exists_wire_of_mem_connections hp
    exact ⟨i, w, p, hw, ((w.mem_portsAt b.id p).mp hmeet).imp_right And.right, rfl⟩

/-- The ports where wires start that are bound to the wire at a position, each with the block of its
instance. -/
def boundSources (g : Graph) (i : Nat) : List (Block × String) :=
  (g.blocks.filter Block.isInstance).flatMap fun b =>
    ((g.connections b.id).filter fun x => x.2 = i ∧ b.spell x.1 ∈ g.sourceNames b).map
      fun x => (b, x.1)

theorem mem_boundSources_iff (g : Graph) (i : Nat) (b : Block) (p : String) :
    (b, p) ∈ g.boundSources i ↔ b ∈ g.blocks ∧ b.isInstance ∧ (p, i) ∈ g.connections b.id ∧
      b.spell p ∈ g.sourceNames b := by
  simp only [boundSources, List.mem_flatMap, List.mem_filter, List.mem_map, Prod.mk.injEq,
    decide_eq_true_eq, Prod.exists]
  constructor
  · rintro ⟨_, ⟨hb, hi⟩, _, _, ⟨hport, rfl, hsource⟩, rfl, rfl⟩
    exact ⟨hb, hi, hport, hsource⟩
  · rintro ⟨hb, hi, hport, hsource⟩
    exact ⟨b, ⟨hb, hi⟩, p, i, ⟨hport, rfl, hsource⟩, rfl, rfl⟩

/-- No port is bound twice. -/
theorem nodup_boundSources (hg : g.DistinctIds) (i : Nat) : (g.boundSources i).Nodup := by
  refine List.nodup_flatMap.mpr ⟨fun b _ => ?_, ?_⟩
  · have hports := List.Nodup.filter
      (fun x => decide (x.2 = i ∧ b.spell x.1 ∈ g.sourceNames b)) (g.nodup_connections b.id).of_map
    refine hports.map_on fun x hx y hy heq => ?_
    have hi := (of_decide_eq_true (List.mem_filter.mp hx).2).1
    have hj := (of_decide_eq_true (List.mem_filter.mp hy).2).1
    exact Prod.ext (Prod.mk.inj heq).2 (hi.trans hj.symm)
  · refine ((List.pairwise_map.mp hg).filter _).imp fun {b c} hne x hb hc => ?_
    obtain ⟨_, _, rfl⟩ := List.mem_map.mp hb
    obtain ⟨_, _, heq⟩ := List.mem_map.mp hc
    exact hne (congrArg Block.id (Prod.mk.inj heq).1.symm)

/-- The ports among the drivers of a wire. -/
theorem ports_of_drivers (g : Graph) (i : Nat) :
    (g.usesOf.flatMap fun u =>
      (u.ports.filter fun x => x.2 = wireName i ∧ x.1 ∈ g.sourceNames u.block).map
        (Driver.port u.block.id)) =
      (g.boundSources i).map fun x => .port x.1.id (x.1.spell x.2, wireName i) := by
  rw [usesOf, List.flatMap_map, boundSources, List.map_flatMap]
  refine List.flatMap_congr fun b _ => ?_
  have hfilter : (g.connections b.id).filter ((fun x : String × String =>
      decide (x.2 = wireName i ∧ x.1 ∈ g.sourceNames b)) ∘
        fun x => (b.spell x.1, wireName x.2)) =
      (g.connections b.id).filter fun x => x.2 = i ∧ b.spell x.1 ∈ g.sourceNames b :=
    List.filter_congr fun x _ => by
      simp only [Function.comp, wireName, append_toString_inj]
  rw [useOf, List.filter_map, hfilter, List.map_map, List.map_map]
  refine List.map_congr_left fun x hx => ?_
  obtain ⟨rfl, _⟩ := of_decide_eq_true (List.mem_filter.mp hx).2
  rfl

end Bindings

section Driven

variable {g : Graph} {name : String} {s : Scope} {list : List Statement}
  {i : Nat} {w : Wire}

/-- A wire is assigned to by its root, or if it is a root by an input where it starts. -/
theorem assign_wire_mem_wiring_iff (hw : g.wires[i]? = some w) (hs : w.isFeed = false) (y : Net) :
    .assign (.wire i) y ∈ g.wiring ↔
      (g.firstFrom w.source = i ∧ ∃ b ∈ g.blocks, b.input?.isSome ∧ w.source.block = b.id ∧
        y = .name (Identifier.ofId b.id)) ∨
      g.firstFrom w.source ≠ i ∧ y = .wire (g.firstFrom w.source) := by
  have hroot := getElem?_roots_signal hw hs
  rw [assign_mem_wiring_iff]
  constructor
  · rintro (⟨j, v, b, t, hv, hb, hkind, hsource, hj, hij, rfl⟩ | ⟨_, _, _, _, _, _, _, _, hij, _⟩ |
      ⟨j, root, hj, hne, hij, rfl⟩)
    · obtain rfl := Net.wire.inj hij
      obtain rfl := Option.some.inj (hv.symm.trans hw)
      have hinput : b.input?.isSome := by simp [Block.input?, hkind]
      exact Or.inl ⟨Option.some.inj (hroot.symm.trans hj), b, hb, hinput, hsource, rfl⟩
    · cases hij
    · obtain rfl := Net.wire.inj hij
      obtain rfl := Option.some.inj (hroot.symm.trans hj)
      exact Or.inr ⟨hne, rfl⟩
  · rintro (⟨hi, b, hb, hinput, hsource, rfl⟩ | ⟨hne, rfl⟩)
    · obtain ⟨t, ht⟩ := Option.isSome_iff_exists.mp hinput
      exact Or.inl ⟨i, w, b, t, hw, hb, (b.input?_eq_some_iff t).mp ht, hsource, by rw [hroot, hi],
        rfl, rfl⟩
    · exact Or.inr (Or.inr ⟨i, _, hroot, hne, rfl, rfl⟩)

/-- Only the root of a port is bound to it where it starts. -/
theorem root_of_mem_boundSources (hw : g.wires[i]? = some w) (hs : w.isFeed = false) {b : Block}
    {p : String} (hsource : w.source = ⟨b.id, p⟩) (hmem : (b, p) ∈ g.boundSources i) :
    g.firstFrom w.source = i := by
  obtain ⟨_, _, hport, _⟩ := (g.mem_boundSources_iff i b p).mp hmem
  by_contra hne
  obtain ⟨v, hv, _, hv'⟩ := getElem?_firstFrom (List.mem_of_getElem? hw) hs
  have hlt : g.firstFrom w.source < i := Nat.lt_of_le_of_ne (firstFrom_le hw hs) hne
  exact not_meet_of_lt hport hlt hv ((v.mem_portsAt b.id p).mpr (Or.inl (hv'.trans hsource)))

/-- The root of a port with a name, to which no signal goes, is bound to it. -/
theorem mem_boundSources_of_root (hw : g.wires[i]? = some w) (hs : w.isFeed = false) {b : Block}
    (hb : b ∈ g.blocks) (hi : b.isInstance) (hid : w.source.block = b.id)
    (hport : w.source.port ≠ "") (hin : ∀ v ∈ g.wires, v.isFeed = false → v.target ≠ w.source)
    (hroot : g.firstFrom w.source = i) : (b, w.source.port) ∈ g.boundSources i := by
  have hend : w.source = ⟨b.id, w.source.port⟩ := by rw [← hid]
  have hname : b.spell w.source.port ∈ g.sourceNames b :=
    List.mem_map.mpr ⟨w, List.mem_filter.mpr ⟨List.mem_of_getElem? hw, decide_eq_true hid⟩, rfl⟩
  refine (g.mem_boundSources_iff i b _).mpr ⟨hb, hi, ?_, hname⟩
  refine mem_connections_of_first hport hw ((w.mem_portsAt _ _).mpr (Or.inl hend)) ?_
  intro j v hj hv hmeet
  rcases (v.mem_portsAt _ _).mp hmeet with hvsource | ⟨hvs, hvtarget⟩
  · -- an earlier wire from the port would be its root
    rw [← hend] at hvsource
    have hvs : v.isFeed = false := by rwa [Wire.isFeed, hvsource]
    have hle := firstFrom_le hv hvs
    rw [hvsource] at hle
    omega
  · exact hin v (List.mem_of_getElem? hv) hvs (hvtarget.trans hend.symm)

/-- A wire that is bound where it starts is bound to its own port of its own block. -/
theorem eq_source_of_mem_boundSources (hg : g.DistinctIds) {b : Block} (hb : b ∈ g.blocks)
    (hid : w.source.block = b.id) {x : Block × String} (hx : x ∈ g.boundSources i)
    (hsource : w.source = ⟨x.1.id, x.2⟩) : x = (b, w.source.port) := by
  obtain ⟨hc, _⟩ := (g.mem_boundSources_iff i x.1 x.2).mp hx
  have hcid : x.1.id = b.id := (congrArg Endpoint.block hsource).symm.trans hid
  exact Prod.ext (hg.eq_of_id_eq hc hb hcid) (congrArg Endpoint.port hsource).symm

/-- A wire bound to a port where it does not start ends there. -/
theorem endsAtSource_of_mem_boundSources (hw : g.wires[i]? = some w) {b : Block} {p : String}
    (hsource : w.source ≠ ⟨b.id, p⟩) (hmem : (b, p) ∈ g.boundSources i) :
    w.target.port = p ∧ g.EndsAtSource i w b := by
  obtain ⟨hb, hi, hport, hname⟩ := (g.mem_boundSources_iff i b p).mp hmem
  obtain ⟨hp, v, hv, hmeet⟩ := exists_wire_of_mem_connections hport
  obtain rfl := Option.some.inj (hv.symm.trans hw)
  obtain ⟨_, htarget⟩ := ((v.mem_portsAt b.id p).mp hmeet).resolve_left hsource
  have htarget' : v.target.port = p := congrArg Endpoint.port htarget
  refine ⟨htarget', hb, hi, congrArg Endpoint.block htarget, by rwa [htarget'], ?_,
    by rwa [htarget']⟩
  intro j u hj hu
  have hnot := not_meet_of_lt hport hj hu
  rw [u.mem_portsAt, ← htarget, not_or, not_and] at hnot
  exact hnot

/-- A wire that is the first to touch a port where wires start is bound to it. -/
theorem EndsAtSource.mem_boundSources (hw : g.wires[i]? = some w) (hs : w.isFeed = false)
    {b : Block} (hb : g.EndsAtSource i w b) : (b, w.target.port) ∈ g.boundSources i := by
  have htarget : w.target = ⟨b.id, w.target.port⟩ := by rw [← hb.target]
  refine (g.mem_boundSources_iff i b _).mpr ⟨hb.mem, hb.isInstance, ?_, hb.source⟩
  refine mem_connections_of_first hb.named hw ((w.mem_portsAt _ _).mpr (Or.inr ⟨hs, htarget⟩)) ?_
  intro j v hj hv
  rw [v.mem_portsAt, ← htarget, not_or, not_and]
  exact hb.first j v hj hv

/-- The ports bound to a wire, from those where it starts: the other is where it ends. -/
theorem boundSources_perm (hg : g.DistinctIds) (hw : g.wires[i]? = some w) (hs : w.isFeed = false)
    {starts : List (Block × String)} (hnodup : starts.Nodup)
    (hstarts : ∀ x, x ∈ starts ↔ x ∈ g.boundSources i ∧ w.source = ⟨x.1.id, x.2⟩) :
    ((∀ c, ¬ g.EndsAtSource i w c) → (g.boundSources i).Perm starts) ∧
    ∀ c, g.EndsAtSource i w c → w.source ≠ w.target →
      (g.boundSources i).Perm (starts ++ [(c, w.target.port)]) := by
  refine ⟨fun hend => ?_, fun c hc hne => ?_⟩
  · refine (List.perm_ext_iff_of_nodup (nodup_boundSources hg i) hnodup).mpr fun x => ?_
    rw [hstarts, iff_self_and]
    intro hx
    by_contra hsource
    exact hend x.1 (endsAtSource_of_mem_boundSources hw hsource hx).2
  · have hnew : (c, w.target.port) ∉ starts := fun hmem => by
      have hsource := ((hstarts _).mp hmem).2
      rw [← hc.target] at hsource
      exact hne hsource
    have hall : (starts ++ [(c, w.target.port)]).Nodup := by
      rw [List.nodup_append]
      refine ⟨hnodup, List.nodup_singleton _, ?_⟩
      rintro x hx _ hy rfl
      exact hnew (List.mem_singleton.mp hy ▸ hx)
    refine (List.perm_ext_iff_of_nodup (nodup_boundSources hg i) hall).mpr fun x => ?_
    rw [List.mem_append, List.mem_singleton, hstarts]
    constructor
    · intro hx
      by_cases hsource : w.source = ⟨x.1.id, x.2⟩
      · exact Or.inl ⟨hx, hsource⟩
      · obtain ⟨hport, hx⟩ := endsAtSource_of_mem_boundSources hw hsource hx
        have hblock := hg.eq_of_id_eq hx.mem hc.mem (hx.target.symm.trans hc.target)
        exact Or.inr (Prod.ext hblock hport.symm)
    · rintro (⟨hx, _⟩ | rfl)
      · exact hx
      · exact hc.mem_boundSources hw hs

/-- The drivers of a wire, from the lines that assign to it and the ports where it starts. -/
theorem drivenBy_of_starts (hg : g.DistinctIds) (hw : g.wires[i]? = some w)
    (hs : w.isFeed = false) {start : Driver} {assigned : List String}
    {starts : List (Block × String)}
    (hassigned : (list.map Statement.text).filter (assignsWire i) = assigned)
    (hnodup : starts.Nodup)
    (hstarts : ∀ x, x ∈ starts ↔ x ∈ g.boundSources i ∧ w.source = ⟨x.1.id, x.2⟩)
    (hstart : assigned.map Driver.line ++
      starts.map (fun x => .port x.1.id (x.1.spell x.2, wireName i)) = [start])
    (hne : ∀ b, g.EndsAtSource i w b → w.source ≠ w.target) :
    g.DrivenBy (list.map Statement.text) g.usesOf i w start := by
  obtain ⟨hnone, hend⟩ := boundSources_perm hg hw hs hnodup hstarts
  refine ⟨fun hb => ?_, fun b hb => ?_⟩
  · have hperm := ((hnone hb).map fun x =>
      Driver.port x.1.id (x.1.spell x.2, wireName i)).append_left
        (assigned.map Driver.line)
    rw [hstart, List.perm_singleton] at hperm
    rw [drivers, hassigned, ports_of_drivers, hperm]
  · have hperm := ((hend b hb (hne b hb)).map fun x =>
      Driver.port x.1.id (x.1.spell x.2, wireName i)).append_left
        (assigned.map Driver.line)
    rw [List.map_append, ← List.append_assoc, hstart] at hperm
    rw [drivers, hassigned, ports_of_drivers]
    exact hperm

/-- The lines of a body with a property, when one statement has it and stands in the body once. -/
theorem filter_lines_eq_singleton {p : String → Bool} {st : Statement}
    (hp : ∀ st' ∈ list, p st'.text = true ↔ st' = st) (hcount : list.count st = 1) :
    (list.map Statement.text).filter p = [st.text] := by
  rw [List.filter_map]
  exact congrArg (List.map Statement.text) (filter_eq_singleton hp hcount)

theorem filter_lines_eq_nil {p : String → Bool} (hp : ∀ st ∈ list, p st.text = false) :
    (list.map Statement.text).filter p = [] := by
  refine List.filter_eq_nil_iff.mpr fun line hline => ?_
  obtain ⟨st, hst, rfl⟩ := List.mem_map.mp hline
  simp [hp st hst]

variable (hname : NamesGraph name)
  (h : g.statements name s = .ok list)

include hname h

/-- The lines that assign to a wire, when there is one value it is assigned. -/
theorem lines_assigning (hg : g.DistinctIds) {y : Net}
    (hy : ∀ z, .assign (.wire i) z ∈ g.wiring ↔ z = y) :
    (list.map Statement.text).filter (assignsWire i) = [(Statement.assign (.wire i) y).text] := by
  have hcount := count_assign hg h ((hy y).mpr rfl)
  refine filter_lines_eq_singleton (fun st hst => ?_) hcount
  rw [assignsWire_iff hname h hst]
  constructor
  · rintro ⟨z, rfl⟩
    rw [(hy z).mp ((assign_mem_statements_iff h _ _).mp hst)]
  · exact fun heq => ⟨y, heq⟩

theorem lines_assigning_eq_nil (hy : ∀ z, .assign (.wire i) z ∉ g.wiring) :
    (list.map Statement.text).filter (assignsWire i) = [] := by
  refine filter_lines_eq_nil fun st hst => Bool.eq_false_iff.mpr fun hline => ?_
  obtain ⟨z, rfl⟩ := (assignsWire_iff hname h hst i).mp hline
  exact hy z ((assign_mem_statements_iff h _ _).mp hst)

variable (hw : g.wires[i]? = some w)

include hw

theorem lines_declaring_wire (hs : w.isFeed = false) :
    (list.map Statement.text).filter (declaresWire i) = [(Statement.wire i w.width).text] := by
  have hdecl : .wire i w.width ∈ g.feedDeclarations ++ g.wireDeclarations :=
    List.mem_append_right _ (mem_wireDeclarations_iff.mpr ⟨i, w, hw, hs, rfl⟩)
  refine filter_lines_eq_singleton (fun st hst => ?_) (count_declaration h hdecl)
  rw [declaresWire_iff hname h hst]
  constructor
  · rintro ⟨width, rfl⟩
    obtain ⟨v, hv, _, rfl⟩ := (wire_mem_statements_iff h i width).mp hst
    rw [Option.some.inj (hv.symm.trans hw)]
  · exact fun heq => ⟨_, heq⟩

theorem lines_declaring_wire_of_isFeed (hf : w.isFeed = true) :
    (list.map Statement.text).filter (declaresWire i) = [] := by
  refine filter_lines_eq_nil fun st hst => Bool.eq_false_iff.mpr fun hline => ?_
  obtain ⟨width, rfl⟩ := (declaresWire_iff hname h hst i).mp hline
  obtain ⟨v, hv, hs, _⟩ := (wire_mem_statements_iff h i width).mp hst
  obtain rfl := Option.some.inj (hv.symm.trans hw)
  simp [hf] at hs

theorem lines_declaring_feed (hf : w.isFeed = true) :
    (list.map Statement.text).filter (declaresFeed i) =
      [(Statement.feed i (Identifier.ofId w.source.block)).text] := by
  have hdecl : .feed i (Identifier.ofId w.source.block) ∈
      g.feedDeclarations ++ g.wireDeclarations :=
    List.mem_append_left _ (mem_feedDeclarations_iff.mpr ⟨i, w, hw, hf, rfl⟩)
  refine filter_lines_eq_singleton (fun st hst => ?_) (count_declaration h hdecl)
  rw [declaresFeed_iff hname h hst]
  constructor
  · rintro ⟨source, rfl⟩
    obtain ⟨v, hv, _, rfl⟩ := (feed_mem_statements_iff h i source).mp hst
    rw [Option.some.inj (hv.symm.trans hw)]
  · exact fun heq => ⟨_, heq⟩

/-- A wire that is not a root is driven by its root. -/
theorem drivenBy_of_follower (hg : g.DistinctIds) (hs : w.isFeed = false)
    (hne : ∀ b, g.EndsAtSource i w b → w.source ≠ w.target)
    (hroot : g.firstFrom w.source ≠ i) :
    g.DrivenBy (list.map Statement.text) g.usesOf i w
      (.line (assignLine (wireName i) (wireName (g.firstFrom w.source)))) := by
  have hassign (z : Net) :
      .assign (.wire i) z ∈ g.wiring ↔ z = .wire (g.firstFrom w.source) := by
    simp [assign_wire_mem_wiring_iff hw hs, hroot]
  refine drivenBy_of_starts hg hw hs (lines_assigning hname h hg hassign) List.nodup_nil
    (fun x => iff_of_false List.not_mem_nil ?_) rfl hne
  rintro ⟨hx, hsource⟩
  exact hroot (root_of_mem_boundSources hw hs hsource hx)

/-- The root of the wires of an input is driven by the input. -/
theorem drivenBy_of_input (hg : g.DistinctIds) (hs : w.isFeed = false)
    (hne : ∀ b, g.EndsAtSource i w b → w.source ≠ w.target) {b : Block}
    (hb : b ∈ g.blocks) (hinput : b.input?.isSome) (hid : w.source.block = b.id)
    (hroot : g.firstFrom w.source = i) :
    g.DrivenBy (list.map Statement.text) g.usesOf i w
      (.line (assignLine (wireName i) (Identifier.ofId b.id))) := by
  have hassign (z : Net) :
      .assign (.wire i) z ∈ g.wiring ↔ z = .name (Identifier.ofId b.id) := by
    rw [assign_wire_mem_wiring_iff hw hs]
    constructor
    · rintro (⟨_, c, hc, _, hcid, rfl⟩ | ⟨hnot, _⟩)
      · rw [hg.eq_of_id_eq hc hb (hcid.symm.trans hid)]
      · exact absurd hroot hnot
    · rintro rfl
      exact Or.inl ⟨hroot, b, hb, hinput, hid, rfl⟩
  refine drivenBy_of_starts hg hw hs (lines_assigning hname h hg hassign) List.nodup_nil
    (fun x => iff_of_false List.not_mem_nil ?_) rfl hne
  rintro ⟨hx, hsource⟩
  obtain rfl := eq_source_of_mem_boundSources hg hb hid hx hsource
  obtain ⟨_, hi, _⟩ := (g.mem_boundSources_iff i _ _).mp hx
  simp [Block.input?_eq_none_of_isInstance hi] at hinput

/-- The root of the wires from a port of an instance is driven by the port. -/
theorem drivenBy_of_instance (hg : g.DistinctIds) (hs : w.isFeed = false)
    (hne : ∀ b, g.EndsAtSource i w b → w.source ≠ w.target) {b : Block}
    (hb : b ∈ g.blocks) (hi : b.isInstance) (hid : w.source.block = b.id)
    (hport : w.source.port ≠ "")
    (hin : ∀ v ∈ g.wires, v.isFeed = false → v.target ≠ w.source)
    (hroot : g.firstFrom w.source = i) :
    g.DrivenBy (list.map Statement.text) g.usesOf i w
      (.port b.id (b.spell w.source.port, wireName i)) := by
  have hassign (z : Net) : .assign (.wire i) z ∉ g.wiring := by
    intro hz
    rcases (assign_wire_mem_wiring_iff hw hs z).mp hz with ⟨_, c, hc, hinput, hcid, _⟩ | ⟨hnot, _⟩
    · obtain rfl := hg.eq_of_id_eq hc hb (hcid.symm.trans hid)
      simp [Block.input?_eq_none_of_isInstance hi] at hinput
    · exact hnot hroot
  have hbound := mem_boundSources_of_root hw hs hb hi hid hport hin hroot
  refine drivenBy_of_starts hg hw hs (lines_assigning_eq_nil hname h hassign)
    (List.nodup_singleton (b, w.source.port)) (fun x => ?_) rfl hne
  rw [List.mem_singleton]
  constructor
  · rintro rfl
    exact ⟨hbound, by rw [← hid]⟩
  · rintro ⟨hx, hsource⟩
    exact eq_source_of_mem_boundSources hg hb hid hx hsource

end Driven

/-- Every signal wire is declared once. If it starts at an input or at a named port that no signal
goes to, it is driven from there: by its root, or if it is a root by the input or the port. It has
another driver only if it is the first wire to touch a port where wires start. Every wire that feeds
a constant is declared once, as a constant. -/
theorem declared_once_and_driven {g : Graph} {name : String} {s : Scope} {list : List Statement}
    (hg : g.DistinctIds) (hname : NamesGraph name) (h : g.statements name s = .ok list) :
    ∃ uses, g.Shows name (list.map Statement.text) uses ∧ ∀ i w, g.wires[i]? = some w →
      (w.isFeed = false →
        (list.map Statement.text).filter (declaresWire i) = [wireLine i w.width] ∧
        ∀ b ∈ g.blocks, w.source.block = b.id →
          b.input?.isSome ∨ b.isInstance ∧ w.source.port ≠ "" ∧
            (∀ v ∈ g.wires, v.isFeed = false → v.target ≠ w.source) →
          g.DrivenBy (list.map Statement.text) uses i w (
            if g.firstFrom w.source ≠ i then
              .line (assignLine (wireName i) (wireName (g.firstFrom w.source)))
            else if b.isInstance then .port b.id (b.spell w.source.port, wireName i)
            else .line (assignLine (wireName i) (Identifier.ofId b.id)))) ∧
      (w.isFeed = true →
        (list.map Statement.text).filter (declaresWire i) = [] ∧
        (list.map Statement.text).filter (declaresFeed i) =
          [feedLine i (Identifier.ofId w.source.block)]) := by
  refine ⟨g.usesOf, shows_usesOf h, fun i w hw => ⟨fun hs => ⟨?_, ?_⟩, fun hf => ⟨?_, ?_⟩⟩⟩
  · rw [lines_declaring_wire hname h hw hs, Statement.text_wire_eq_wireLine]
  · intro b hb hid hstart
    -- a wire that starts where the hypothesis says does not end there
    have hne (c : Block) (hc : g.EndsAtSource i w c) : w.source ≠ w.target := by
      intro heq
      rcases hstart with hinput | ⟨_, _, hin⟩
      · have hcid : c.id = b.id := by rw [← hc.target, ← heq, hid]
        have hi := hc.isInstance
        rw [hg.eq_of_id_eq hc.mem hb hcid] at hi
        simp [Block.input?_eq_none_of_isInstance hi] at hinput
      · exact hin w (List.mem_of_getElem? hw) hs heq.symm
    by_cases hroot : g.firstFrom w.source = i
    · rw [if_neg (not_not.mpr hroot)]
      rcases hstart with hinput | ⟨hi, hport, hin⟩
      · have hnot : ¬ b.isInstance := fun hi => by
          simp [Block.input?_eq_none_of_isInstance hi] at hinput
        rw [if_neg hnot]
        exact drivenBy_of_input hname h hw hg hs hne hb hinput hid hroot
      · rw [if_pos hi]
        exact drivenBy_of_instance hname h hw hg hs hne hb hi hid hport hin hroot
    · rw [if_pos hroot]
      exact drivenBy_of_follower hname h hw hg hs hne hroot
  · exact lines_declaring_wire_of_isFeed hname h hw hf
  · exact lines_declaring_feed hname h hw hf

/-- An input and a port of an instance that both fan out, and a constant for the instance. -/
def branching : Graph where
  blocks := [⟨"a", .input {}⟩, ⟨"k", .constant {}⟩, ⟨"u", .circuit "t"⟩, ⟨"x", .output {}⟩,
    ⟨"y", .output {}⟩]
  wires := [{ source := ⟨"a", "out"⟩, target := ⟨"u", "d"⟩, size := some 8 },
    { source := ⟨"a", "out"⟩, target := ⟨"x", "in"⟩ },
    { source := ⟨"u", "q"⟩, target := ⟨"y", "in"⟩ },
    { source := ⟨"k", "constant-out"⟩, target := ⟨"u", "N"⟩ }]

/-- The four wires of the graph: a root at the input, its follower, a root at the port, and the
constant. -/
theorem declared_once_and_driven_branching : ∃ list uses,
    branching.DistinctIds ∧ NamesGraph "main" ∧
    branching.statements "main" [[("t", default)]] = .ok list ∧
    list.map Statement.text = ["localparam p3 = vk;", "wire [0:7] w0;", "wire w1;", "wire w2;",
      "assign w0 = va;", "assign vx = w1;", "assign vy = w2;", "assign w1 = w0;",
      "vt #(\n .vN(p3)\n) vu (\n .vd(w0),\n .vq(w2)\n);"] ∧
    branching.Shows "main" (list.map Statement.text) uses ∧
    branching.drivers (list.map Statement.text) uses 0 = [.line "assign w0 = va;"] ∧
    branching.drivers (list.map Statement.text) uses 1 = [.line "assign w1 = w0;"] ∧
    branching.drivers (list.map Statement.text) uses 2 = [.port "u" ("vq", "w2")] ∧
    (list.map Statement.text).filter (declaresWire 0) = ["wire [0:7] w0;"] ∧
    (list.map Statement.text).filter (declaresWire 3) = [] ∧
    (list.map Statement.text).filter (declaresFeed 3) = ["localparam p3 = vk;"] := by
  have hg : branching.DistinctIds := by unfold DistinctIds; decide
  have hname : NamesGraph "main" := Or.inl rfl
  obtain ⟨list, h, hlines⟩ : ∃ list, branching.statements "main" [[("t", default)]] = .ok list ∧
      list.map Statement.text = ["localparam p3 = vk;", "wire [0:7] w0;", "wire w1;", "wire w2;",
        "assign w0 = va;", "assign vx = w1;", "assign vy = w2;", "assign w1 = w0;",
        "vt #(\n .vN(p3)\n) vu (\n .vd(w0),\n .vq(w2)\n);"] :=
    ⟨_, rfl, by decide +kernel⟩
  obtain ⟨uses, hshows, hwires⟩ := declared_once_and_driven hg hname h
  -- no wire ends at the port of the instance where wires start
  have hends : ∀ w ∈ branching.wires, ∀ b ∈ branching.blocks, b.isInstance →
      w.target.block = b.id → b.spell w.target.port ∉ branching.sourceNames b := by
    decide +kernel
  have hnone {i : Nat} {w : Wire} (hw : w ∈ branching.wires) (b : Block) :
      ¬ branching.EndsAtSource i w b := fun hb =>
    hends w hw b hb.mem hb.isInstance hb.target hb.source
  have hinput : (⟨"a", .input {}⟩ : Block) ∈ branching.blocks := by decide
  have hpart : (⟨"u", .circuit "t"⟩ : Block) ∈ branching.blocks := by decide
  obtain ⟨hdecl, h₀⟩ := (hwires 0 _ rfl).1 (by decide)
  obtain ⟨_, h₁⟩ := (hwires 1 _ rfl).1 (by decide)
  obtain ⟨_, h₂⟩ := (hwires 2 _ rfl).1 (by decide)
  obtain ⟨hdecl₃, hfeed⟩ := (hwires 3 _ rfl).2 (by decide)
  exact ⟨list, uses, hg, hname, h, hlines, hshows,
    (h₀ _ hinput rfl (Or.inl rfl)).1 (hnone (by decide)),
    (h₁ _ hinput rfl (Or.inl rfl)).1 (hnone (by decide)),
    (h₂ _ hpart rfl (Or.inr ⟨rfl, by decide, by decide⟩)).1 (hnone (by decide)),
    hdecl, hdecl₃, hfeed⟩

/-- A code block with one port, where one wire ends and another starts. -/
def turned : Graph where
  blocks := [⟨"a", .input {}⟩, ⟨"u", .code {}⟩, ⟨"x", .output {}⟩]
  wires := [{ source := ⟨"a", "out"⟩, target := ⟨"u", "q"⟩ },
    { source := ⟨"u", "q"⟩, target := ⟨"x", "in"⟩ }]

/-- The wire from the input is bound to the port where the other one starts: the input assigns to
it, and the port drives it too. -/
theorem driven_twice_turned : ∃ list uses,
    turned.DistinctIds ∧ NamesGraph "main" ∧ turned.statements "main" [] = .ok list ∧
    (∀ w ∈ turned.wires, w.isFeed = false) ∧
    list.map Statement.text = ["wire w0;", "wire w1;", "assign w0 = va;", "assign vx = w1;",
      "main_vu vu (\n .q(w0)\n);"] ∧
    turned.Shows "main" (list.map Statement.text) uses ∧
    turned.drivers (list.map Statement.text) uses 0 =
      [.line "assign w0 = va;", .port "u" ("q", "w0")] := by
  obtain ⟨list, h, hlines⟩ : ∃ list, turned.statements "main" [] = .ok list ∧
      list.map Statement.text = ["wire w0;", "wire w1;", "assign w0 = va;", "assign vx = w1;",
        "main_vu vu (\n .q(w0)\n);"] := ⟨_, rfl, by decide +kernel⟩
  refine ⟨list, [⟨⟨"u", .code {}⟩, [], [("q", "w0")]⟩], ?_, Or.inl rfl, h, by decide, hlines,
    ?_, ?_⟩
  · unfold DistinctIds
    decide
  · rw [hlines]
    refine ⟨by decide, ⟨["wire w0;", "wire w1;", "assign w0 = va;", "assign vx = w1;"],
      by decide +kernel, by decide +kernel⟩, ?_⟩
    simp only [List.mem_singleton]
    rintro _ rfl _ hx
    obtain rfl := List.mem_singleton.mp hx
    exact ⟨0, _, "q", rfl, Or.inr rfl, rfl⟩
  · rw [hlines]
    decide +kernel

end Graph

end Schematic
