import Schematic.Netlist.Body
import Schematic.Proofs.Netlist.FanOut
import Schematic.Proofs.Netlist.Connections
import Schematic.Proofs.Outcome

/-!
# The statements of a graph

When a graph has a body at all, its instances are those of its code and circuit blocks in order,
and its assignments are of three kinds: an input drives a root, an output takes a wire, and a wire
takes its root. Proofs about bodies use these descriptions and do not look into the passes.
-/

namespace Schematic

/-- The type of a circuit block is known in the scope. Other blocks need nothing. -/
def Scope.Resolves (s : Scope) (b : Block) : Prop :=
  ∀ type, b.kind = .circuit type → ∃ p, s.find? type = some p

namespace Block

/-- The module that the instance of a block uses inside the module `parent`. -/
def moduleName (b : Block) (parent : String) : String :=
  match b.kind with
  | .code _ => Module.codeName parent b.id
  | .circuit type => Identifier.ofId type
  | _ => ""

/-- How the instance of a block spells a port: the ports of code blocks keep their names. -/
def spell (b : Block) (port : String) : String :=
  match b.kind with
  | .circuit _ => Identifier.ofId port
  | _ => port

theorem isInstance_iff (b : Block) :
    b.isInstance = true ↔ (∃ c, b.kind = .code c) ∨ ∃ type, b.kind = .circuit type := by
  unfold isInstance
  cases b.kind <;> simp

end Block

namespace Graph

/-- The instance of a block whose type is known. -/
def instanceOf (g : Graph) (parent : String) (b : Block) : Instance :=
  g.instanceFor b.id (b.moduleName parent) b.spell

theorem instance?_eq (g : Graph) (parent : String) {s : Scope} {b : Block} (h : s.Resolves b) :
    g.instance? parent s b =
      .ok (if b.isInstance then some (g.instanceOf parent b) else none) := by
  rcases b with ⟨id, kind⟩
  cases kind with
  | circuit type =>
      obtain ⟨p, hp⟩ := h type rfl
      simp only [instance?, Scope.get, hp]
      rfl
  | code c => rfl
  | input t => simp [instance?, Block.isInstance]
  | output t => simp [instance?, Block.isInstance]
  | constant c => simp [instance?, Block.isInstance]
  | info => simp [instance?, Block.isInstance]

theorem resolves_of_instance? {g : Graph} {parent : String} {s : Scope} {b : Block}
    {inst : Option Instance} (h : g.instance? parent s b = .ok inst) : s.Resolves b := by
  intro type hkind
  cases hp : s.find? type with
  | some p => exact ⟨p, rfl⟩
  | none => simp [instance?, hkind, Scope.get, hp] at h

theorem instancesOf_eq_ok_iff (g : Graph) (parent : String) (s : Scope) (bs : List Block)
    (insts : List Instance) :
    g.instancesOf parent s bs = .ok insts ↔
      (∀ b ∈ bs, s.Resolves b) ∧
        insts = (bs.filter Block.isInstance).map (g.instanceOf parent) := by
  induction bs generalizing insts with
  | nil => simp [instancesOf, eq_comm]
  | cons b rest ih =>
      cases hb : g.instance? parent s b with
      | error e =>
          have hnot : ¬ s.Resolves b := fun hr => by simp [instance?_eq g parent hr] at hb
          simp [instancesOf, hb, hnot]
      | ok inst =>
          have hr := resolves_of_instance? hb
          rw [instance?_eq g parent hr] at hb
          cases hi : b.isInstance with
          | false => simp [instancesOf, instance?_eq g parent hr, hi, ih, hr]
          | true =>
              simp only [instancesOf, instance?_eq g parent hr, hi, if_true, map_eq_ok_iff, ih,
                List.mem_cons, forall_eq_or_imp, hr, true_and, List.filter_cons_of_pos,
                List.map_cons]
              constructor
              · rintro ⟨tail, ⟨hrest, rfl⟩, rfl⟩
                exact ⟨hrest, rfl⟩
              · rintro ⟨hrest, rfl⟩
                exact ⟨_, ⟨hrest, rfl⟩, rfl⟩

/-- A graph has a body in a scope exactly when the types of its blocks are known there. -/
theorem statements_eq_ok_iff (g : Graph) (name : String) (s : Scope) (list : List Statement) :
    g.statements name s = .ok list ↔
      (∀ b ∈ g.blocks, s.Resolves b) ∧
        list = g.wiring ++
          (g.blocks.filter Block.isInstance).map fun b => .use (g.instanceOf name b) := by
  simp only [statements, instances, map_eq_ok_iff, instancesOf_eq_ok_iff]
  constructor
  · rintro ⟨insts, ⟨hr, rfl⟩, rfl⟩
    exact ⟨hr, by simp⟩
  · rintro ⟨hr, rfl⟩
    exact ⟨_, ⟨hr, rfl⟩, by simp⟩

/-- An input drives the root of its wires, and an output takes the value of the wire. -/
theorem mem_assignAt_iff (w : Wire) (root i : Nat) (b : Block) (st : Statement) :
    st ∈ assignAt w root i b ↔
      (∃ t, b.kind = .input t ∧ w.source.block = b.id ∧ root = i ∧
        st = .assign (.wire i) (.name (Identifier.ofId b.id))) ∨
      (∃ t, b.kind = .output t ∧ w.target.block = b.id ∧
        st = .assign (.name (Identifier.ofId b.id)) (if w.isFeed then .feed i else .wire i)) := by
  unfold assignAt
  cases b.kind with
  | input t => simp [and_assoc]
  | output t => simp
  | _ => simp

theorem mem_terminalAssigns_iff (g : Graph) (st : Statement) :
    st ∈ g.terminalAssigns ↔ ∃ i w root, g.wires[i]? = some w ∧ g.roots[i]? = some root ∧
      ∃ b ∈ g.blocks, st ∈ assignAt w root i b := by
  simp only [terminalAssigns, List.mem_flatMap, Prod.exists, List.mem_zipIdx_iff_getElem?,
    List.getElem?_zip_eq_some]
  constructor
  · rintro ⟨w, root, i, ⟨hw, hroot⟩, hb⟩
    exact ⟨i, w, root, hw, hroot, hb⟩
  · rintro ⟨i, w, root, hw, hroot, hb⟩
    exact ⟨w, root, i, ⟨hw, hroot⟩, hb⟩

section Parts

variable {g : Graph} {st : Statement}

theorem exists_constant_of_mem (h : st ∈ g.localConstants) :
    ∃ name value, st = .constant (Identifier.ofId name) value := by
  obtain ⟨b, _, hst⟩ := List.mem_filterMap.mp h
  split at hst
  · split at hst
    · exact ⟨_, _, (Option.some.inj hst).symm⟩
    · cases hst
  · cases hst

theorem mem_feedDeclarations_iff : st ∈ g.feedDeclarations ↔ ∃ i w, g.wires[i]? = some w ∧
    w.isFeed = true ∧ st = .feed i (Identifier.ofId w.source.block) := by
  simp only [feedDeclarations, indexedWires, List.mem_filterMap, Prod.exists,
    List.mem_zipIdx_iff_getElem?, Option.ite_none_right_eq_some, Option.some.injEq]
  constructor
  · rintro ⟨w, i, hw, hf, rfl⟩
    exact ⟨i, w, hw, hf, rfl⟩
  · rintro ⟨i, w, hw, hf, rfl⟩
    exact ⟨w, i, hw, hf, rfl⟩

theorem mem_wireDeclarations_iff : st ∈ g.wireDeclarations ↔ ∃ i w, g.wires[i]? = some w ∧
    w.isFeed = false ∧ st = .wire i w.width := by
  simp only [wireDeclarations, indexedWires, List.mem_filterMap, Prod.exists,
    List.mem_zipIdx_iff_getElem?, Option.ite_none_left_eq_some, Option.some.injEq,
    Bool.not_eq_true]
  constructor
  · rintro ⟨w, i, hw, hs, rfl⟩
    exact ⟨i, w, hw, hs, rfl⟩
  · rintro ⟨i, w, hw, hs, rfl⟩
    exact ⟨w, i, hw, hs, rfl⟩

theorem exists_assign_of_mem_terminalAssigns (h : st ∈ g.terminalAssigns) :
    ∃ x y, st = .assign x y := by
  obtain ⟨i, w, root, _, _, b, _, hst⟩ := (mem_terminalAssigns_iff g st).mp h
  rcases (mem_assignAt_iff w root i b st).mp hst with ⟨_, _, _, _, rfl⟩ | ⟨_, _, _, rfl⟩
  · exact ⟨_, _, rfl⟩
  · exact ⟨_, _, rfl⟩

theorem mem_followerAssigns_iff : st ∈ g.followerAssigns ↔ ∃ i root, g.roots[i]? = some root ∧
    root ≠ i ∧ st = .assign (.wire i) (.wire root) := by
  simp only [followerAssigns, List.mem_filterMap, Prod.exists, List.mem_zipIdx_iff_getElem?,
    Option.ite_none_left_eq_some, Option.some.injEq]
  constructor
  · rintro ⟨root, i, hroot, hne, rfl⟩
    exact ⟨i, root, hroot, hne, rfl⟩
  · rintro ⟨i, root, hroot, hne, rfl⟩
    exact ⟨root, i, hroot, hne, rfl⟩

end Parts

theorem assign_not_mem_declarations (g : Graph) (x y : Net) :
    Statement.assign x y ∉ g.localConstants ++ g.feedDeclarations ++ g.wireDeclarations := by
  simp only [List.mem_append, not_or]
  refine ⟨⟨?_, ?_⟩, ?_⟩ <;> intro h
  · obtain ⟨_, _, heq⟩ := exists_constant_of_mem h
    cases heq
  · obtain ⟨_, _, _, _, heq⟩ := mem_feedDeclarations_iff.mp h
    cases heq
  · obtain ⟨_, _, _, _, heq⟩ := mem_wireDeclarations_iff.mp h
    cases heq

/-- The assignments of a body: an input drives the root of its wires, an output takes the value
of a wire that ends at it, and any other wire takes the value of its root. -/
theorem assign_mem_wiring_iff (g : Graph) (x y : Net) :
    Statement.assign x y ∈ g.wiring ↔
      (∃ i w b t, g.wires[i]? = some w ∧ b ∈ g.blocks ∧ b.kind = .input t ∧
        w.source.block = b.id ∧ g.roots[i]? = some i ∧
        x = .wire i ∧ y = .name (Identifier.ofId b.id)) ∨
      (∃ i w b t, g.wires[i]? = some w ∧ b ∈ g.blocks ∧ b.kind = .output t ∧
        w.target.block = b.id ∧
        x = .name (Identifier.ofId b.id) ∧ y = if w.isFeed then .feed i else .wire i) ∨
      (∃ i root, g.roots[i]? = some root ∧ root ≠ i ∧ x = .wire i ∧ y = .wire root) := by
  have hdeclared := g.assign_not_mem_declarations x y
  rw [wiring, List.mem_append, List.mem_append, or_iff_right hdeclared, mem_terminalAssigns_iff,
    mem_followerAssigns_iff, ← or_assoc]
  simp only [mem_assignAt_iff, Statement.assign.injEq]
  refine or_congr_left ?_
  constructor
  · rintro ⟨i, w, root, hw, hroot, b, hb, ⟨t, hkind, hsource, rfl, rfl, rfl⟩ |
      ⟨t, hkind, htarget, rfl, rfl⟩⟩
    · exact Or.inl ⟨root, w, b, t, hw, hb, hkind, hsource, hroot, rfl, rfl⟩
    · exact Or.inr ⟨i, w, b, t, hw, hb, hkind, htarget, rfl, rfl⟩
  · rintro (⟨i, w, b, t, hw, hb, hkind, hsource, hroot, rfl, rfl⟩ |
      ⟨i, w, b, t, hw, hb, hkind, htarget, rfl, rfl⟩)
    · exact ⟨i, w, i, hw, hroot, b, hb, Or.inl ⟨t, hkind, hsource, rfl, rfl, rfl⟩⟩
    · have hlt : i < g.roots.length := by
        rw [length_roots]
        exact (List.getElem?_eq_some_iff.mp hw).1
      exact ⟨i, w, g.roots[i], hw, List.getElem?_eq_getElem hlt, b, hb,
        Or.inr ⟨t, hkind, htarget, rfl, rfl⟩⟩

theorem use_not_mem_wiring (g : Graph) (inst : Instance) : Statement.use inst ∉ g.wiring := by
  simp only [wiring, List.mem_append, not_or]
  refine ⟨⟨⟨⟨?_, ?_⟩, ?_⟩, ?_⟩, ?_⟩ <;> intro h
  · obtain ⟨_, _, heq⟩ := exists_constant_of_mem h
    cases heq
  · obtain ⟨_, _, _, _, heq⟩ := mem_feedDeclarations_iff.mp h
    cases heq
  · obtain ⟨_, _, _, _, heq⟩ := mem_wireDeclarations_iff.mp h
    cases heq
  · obtain ⟨_, _, heq⟩ := exists_assign_of_mem_terminalAssigns h
    cases heq
  · obtain ⟨_, _, _, _, heq⟩ := mem_followerAssigns_iff.mp h
    cases heq

section Body

variable {g : Graph} {name : String} {s : Scope} {list : List Statement}

/-- The instances used in a body are those of the code and circuit blocks. -/
theorem use_mem_statements_iff (h : g.statements name s = .ok list) (inst : Instance) :
    .use inst ∈ list ↔ ∃ b ∈ g.blocks, b.isInstance ∧ inst = g.instanceOf name b := by
  obtain ⟨_, rfl⟩ := (statements_eq_ok_iff g name s list).mp h
  simp only [List.mem_append, use_not_mem_wiring, false_or, List.mem_map, List.mem_filter,
    Statement.use.injEq]
  constructor
  · rintro ⟨b, ⟨hb, hi⟩, rfl⟩
    exact ⟨b, hb, hi, rfl⟩
  · rintro ⟨b, hb, hi, rfl⟩
    exact ⟨b, ⟨hb, hi⟩, rfl⟩

theorem assign_mem_statements_iff (h : g.statements name s = .ok list) (x y : Net) :
    .assign x y ∈ list ↔ .assign x y ∈ g.wiring := by
  obtain ⟨_, rfl⟩ := (statements_eq_ok_iff g name s list).mp h
  simp

/-- All that stands in a body. -/
theorem mem_statements_cases (h : g.statements name s = .ok list) {st : Statement}
    (hst : st ∈ list) :
    (∃ id value, st = .constant (Identifier.ofId id) value) ∨
    (∃ i w, g.wires[i]? = some w ∧ w.isFeed = true ∧
      st = .feed i (Identifier.ofId w.source.block)) ∨
    (∃ i w, g.wires[i]? = some w ∧ w.isFeed = false ∧ st = .wire i w.width) ∨
    (∃ x y, .assign x y ∈ g.wiring ∧ st = .assign x y) ∨
    ∃ b ∈ g.blocks, b.isInstance ∧ st = .use (g.instanceOf name b) := by
  cases st with
  | assign x y =>
      have hwiring := (assign_mem_statements_iff h x y).mp hst
      exact Or.inr (Or.inr (Or.inr (Or.inl ⟨x, y, hwiring, rfl⟩)))
  | use inst =>
      obtain ⟨b, hb, hi, rfl⟩ := (use_mem_statements_iff h inst).mp hst
      exact Or.inr (Or.inr (Or.inr (Or.inr ⟨b, hb, hi, rfl⟩)))
  | _ =>
      obtain ⟨_, rfl⟩ := (statements_eq_ok_iff g name s list).mp h
      simp only [wiring, List.mem_append, List.mem_map, reduceCtorEq, and_false, exists_false,
        or_false] at hst
      rcases hst with (((hst | hst) | hst) | hst) | hst
      · exact Or.inl (exists_constant_of_mem hst)
      · exact Or.inr (Or.inl (mem_feedDeclarations_iff.mp hst))
      · exact Or.inr (Or.inr (Or.inl (mem_wireDeclarations_iff.mp hst)))
      · obtain ⟨_, _, heq⟩ := exists_assign_of_mem_terminalAssigns hst
        cases heq
      · obtain ⟨_, _, _, _, heq⟩ := mem_followerAssigns_iff.mp hst
        cases heq

theorem wire_mem_statements_iff (h : g.statements name s = .ok list) (i : Nat)
    (width : Option Nat) : .wire i width ∈ list ↔
      ∃ w, g.wires[i]? = some w ∧ w.isFeed = false ∧ width = w.width := by
  constructor
  · intro hst
    rcases mem_statements_cases h hst with ⟨_, _, heq⟩ | ⟨_, _, _, _, heq⟩ |
      ⟨_, w, hw, hs, heq⟩ | ⟨_, _, _, heq⟩ | ⟨_, _, _, heq⟩ <;> cases heq
    exact ⟨w, hw, hs, rfl⟩
  · rintro ⟨w, hw, hs, rfl⟩
    obtain ⟨_, rfl⟩ := (statements_eq_ok_iff g name s list).mp h
    have hdecl : Statement.wire i w.width ∈ g.wireDeclarations :=
      mem_wireDeclarations_iff.mpr ⟨i, w, hw, hs, rfl⟩
    simp [wiring, hdecl]

theorem feed_mem_statements_iff (h : g.statements name s = .ok list) (i : Nat)
    (source : String) : .feed i source ∈ list ↔
      ∃ w, g.wires[i]? = some w ∧ w.isFeed = true ∧
        source = Identifier.ofId w.source.block := by
  constructor
  · intro hst
    rcases mem_statements_cases h hst with ⟨_, _, heq⟩ | ⟨_, w, hw, hf, heq⟩ |
      ⟨_, _, _, _, heq⟩ | ⟨_, _, _, heq⟩ | ⟨_, _, _, heq⟩ <;> cases heq
    exact ⟨w, hw, hf, rfl⟩
  · rintro ⟨w, hw, hf, rfl⟩
    obtain ⟨_, rfl⟩ := (statements_eq_ok_iff g name s list).mp h
    have hdecl : Statement.feed i (Identifier.ofId w.source.block) ∈ g.feedDeclarations :=
      mem_feedDeclarations_iff.mpr ⟨i, w, hw, hf, rfl⟩
    simp [wiring, hdecl]

/-- The ports of an instance are the connected ports of its block, spelled its way. -/
theorem mem_ports_instanceOf_iff (g : Graph) (name : String) (b : Block) (c : Connection) :
    c ∈ (g.instanceOf name b).ports ↔
      ∃ port i, (port, i) ∈ g.connections b.id ∧ c = ⟨b.spell port, .wire i⟩ := by
  simp only [instanceOf, instanceFor, List.mem_map, Prod.exists]
  constructor
  · rintro ⟨port, i, h, rfl⟩
    exact ⟨port, i, h, rfl⟩
  · rintro ⟨port, i, h, rfl⟩
    exact ⟨port, i, h, rfl⟩

/-- The parameters of an instance are the constants fed to its block, spelled its way. -/
theorem mem_parameters_instanceOf_iff (g : Graph) (name : String) (b : Block) (c : Connection) :
    c ∈ (g.instanceOf name b).parameters ↔
      ∃ i w, g.wires[i]? = some w ∧ w.isFeed = true ∧ w.target.block = b.id ∧
        c = ⟨b.spell w.target.port, .feed i⟩ := by
  simp only [instanceOf, instanceFor, feedsOf, indexedWires, List.mem_map, List.mem_filter,
    Prod.exists, List.mem_zipIdx_iff_getElem?, Bool.and_eq_true, beq_iff_eq, Prod.mk.injEq]
  constructor
  · rintro ⟨port, i, ⟨w, j, ⟨hw, hblock, hf⟩, rfl, rfl⟩, rfl⟩
    exact ⟨j, w, hw, hf, hblock, rfl⟩
  · rintro ⟨i, w, hw, hf, hblock, rfl⟩
    exact ⟨_, i, ⟨w, i, ⟨hw, hblock, hf⟩, rfl, rfl⟩, rfl⟩

/-- The root of the signal wires of an input takes its value from the input. -/
theorem assign_root_mem {w : Wire} {b : Block} {t : Terminal} (hw : w ∈ g.wires)
    (hs : w.isFeed = false) (hb : b ∈ g.blocks) (hkind : b.kind = .input t)
    (hsource : w.source.block = b.id) :
    .assign (.wire (g.firstFrom w.source)) (.name (Identifier.ofId b.id)) ∈ g.wiring := by
  obtain ⟨v, hv, _, hvs⟩ := getElem?_firstFrom hw hs
  exact (assign_mem_wiring_iff g _ _).mpr (Or.inl ⟨_, v, b, t, hv, hb, hkind,
    hvs ▸ hsource, getElem?_roots_firstFrom hw hs, rfl, rfl⟩)

/-- A signal wire that is not the root of its port takes the value of the root. -/
theorem assign_follower_mem {i : Nat} {w : Wire} (hw : g.wires[i]? = some w)
    (hs : w.isFeed = false) (hne : g.firstFrom w.source ≠ i) :
    .assign (.wire i) (.wire (g.firstFrom w.source)) ∈ g.wiring :=
  (assign_mem_wiring_iff g _ _).mpr
    (Or.inr (Or.inr ⟨i, _, getElem?_roots_signal hw hs, hne, rfl, rfl⟩))

end Body

end Graph

end Schematic
