import Schematic.Proofs.Netlist.Declarations
import Schematic.Proofs.Design.Ids

/-!
# Names that a body refers to

A body refers to wires in assignments and at instances. Constants are always referred to by a name
that is declared. A wire that feeds a constant is declared as a constant, but where it starts it is
taken for a signal: an input assigns to it and an instance is connected to it as if it were one. So
all names are declared exactly when no such wire starts at an input, and none starts at an instance
before a signal has been connected to the port.
-/

namespace Schematic

section Referring

/-- What a statement refers to: both sides of an assignment, or what an instance is connected to. -/
def Statement.references : Statement → List Net
  | .assign target source => [target, source]
  | .use inst => (inst.parameters ++ inst.ports).map Connection.net
  | _ => []

/-- The nets that a body refers to. -/
def references (list : List Statement) : List Net := list.flatMap Statement.references

/-- Each name of a signal that a body refers to is declared in it as a wire. -/
def WiresDeclared (list : List Statement) : Prop :=
  ∀ n ∈ references list, ∀ i, n.text = (Net.wire i).text → ∃ width, .wire i width ∈ list

/-- Each name of a constant wire that a body refers to is declared in it as a constant. -/
def FeedsDeclared (list : List Statement) : Prop :=
  ∀ n ∈ references list, ∀ i, n.text = (Net.feed i).text → ∃ source, .feed i source ∈ list

theorem assign_mem_references {list : List Statement} {x y n : Net} (h : .assign x y ∈ list)
    (hn : n = x ∨ n = y) : n ∈ references list :=
  List.mem_flatMap.mpr ⟨_, h, by simpa [Statement.references] using hn⟩

theorem use_mem_references {list : List Statement} {inst : Instance} {c : Connection}
    (h : .use inst ∈ list) (hc : c ∈ inst.parameters ++ inst.ports) :
    c.net ∈ references list :=
  List.mem_flatMap.mpr ⟨_, h, List.mem_map_of_mem hc⟩

/-- Whatever a body refers to stands in an assignment or at an instance. -/
theorem mem_references_cases {list : List Statement} {n : Net} (h : n ∈ references list) :
    (∃ x y, .assign x y ∈ list ∧ (n = x ∨ n = y)) ∨
    ∃ inst c, .use inst ∈ list ∧ c ∈ inst.parameters ++ inst.ports ∧ n = c.net := by
  obtain ⟨st, hst, hn⟩ := List.mem_flatMap.mp h
  cases st with
  | assign x y => exact Or.inl ⟨x, y, hst, by simpa [Statement.references] using hn⟩
  | use inst =>
      obtain ⟨c, hc, rfl⟩ := List.mem_map.mp hn
      exact Or.inr ⟨inst, c, hst, hc, rfl⟩
  | _ => cases hn

end Referring

namespace Graph

section Declaring

variable {g : Graph} {name : String} {s : Scope} {list : List Statement}

/-- A wire is taken for a signal where it starts: at an input, or at an instance that is connected
to it. -/
def TakenForSignal (g : Graph) (i : Nat) (w : Wire) : Prop :=
  (∃ b ∈ g.blocks, b.input?.isSome ∧ w.source.block = b.id) ∨
  ∃ b ∈ g.blocks, b.isInstance ∧ ∃ port, (port, i) ∈ g.connections b.id

/-- An assignment refers to terminals by their identifiers and to wires by what they carry, unless
an input takes a constant for a signal. -/
theorem reference_of_assign {x y n : Net} (h : .assign x y ∈ g.wiring) (hn : n = x ∨ n = y) :
    (∃ id, n = .name (Identifier.ofId id)) ∨
    ∃ i w, g.wires[i]? = some w ∧
      (n = w.net i ∨ n = .wire i ∧ w.isFeed = true ∧ g.TakenForSignal i w) := by
  have hsignal {i : Nat} {w : Wire} (hw : g.wires[i]? = some w) (hs : w.isFeed = false) :
      ∃ j v, g.wires[j]? = some v ∧
        (Net.wire i = v.net j ∨ Net.wire i = .wire j ∧ v.isFeed = true ∧ g.TakenForSignal j v) :=
    ⟨i, w, hw, Or.inl (by simp [Wire.net, hs])⟩
  rcases (assign_mem_wiring_iff g x y).mp h with
    ⟨i, w, b, t, hw, hb, hkind, hsource, _, rfl, rfl⟩ |
    ⟨i, w, b, t, hw, hb, hkind, htarget, rfl, rfl⟩ | ⟨i, root, hroot, hne, rfl, rfl⟩
  · rcases hn with rfl | rfl
    · cases hf : w.isFeed with
      | false => exact Or.inr (hsignal hw hf)
      | true =>
          have hinput : b.input?.isSome := by simp [Block.input?, hkind]
          exact Or.inr ⟨i, w, hw, Or.inr ⟨rfl, hf, Or.inl ⟨b, hb, hinput, hsource⟩⟩⟩
    · exact Or.inl ⟨b.id, rfl⟩
  · rcases hn with rfl | rfl
    · exact Or.inl ⟨b.id, rfl⟩
    · exact Or.inr ⟨i, w, hw, Or.inl rfl⟩
  · rw [getElem?_roots] at hroot
    obtain ⟨w, hw, hif⟩ := Option.map_eq_some_iff.mp hroot
    have hs : w.isFeed = false :=
      Bool.eq_false_iff.mpr fun hf => hne (by simpa [hf] using hif.symm)
    obtain rfl : g.firstFrom w.source = root := by simpa [hs] using hif
    obtain ⟨v, hv, hvs, _⟩ := getElem?_firstFrom (List.mem_of_getElem? hw) hs
    rcases hn with rfl | rfl
    · exact Or.inr (hsignal hw hs)
    · exact Or.inr (hsignal hv hvs)

/-- An instance refers to wires by what they carry, unless it takes a constant for a signal. -/
theorem reference_of_instance {b : Block} (hb : b ∈ g.blocks) (hi : b.isInstance)
    {c : Connection}
    (hc : c ∈ (g.instanceOf name b).parameters ++ (g.instanceOf name b).ports) :
    ∃ i w, g.wires[i]? = some w ∧
      (c.net = w.net i ∨ c.net = .wire i ∧ w.isFeed = true ∧ g.TakenForSignal i w) := by
  rcases List.mem_append.mp hc with hc | hc
  · obtain ⟨i, w, hw, hf, _, rfl⟩ := (mem_parameters_instanceOf_iff g name b c).mp hc
    exact ⟨i, w, hw, Or.inl (by simp [Wire.net, hf])⟩
  · obtain ⟨port, i, hport, rfl⟩ := (mem_ports_instanceOf_iff g name b c).mp hc
    obtain ⟨_, w, hw, _⟩ := exists_wire_of_mem_connections hport
    refine ⟨i, w, hw, ?_⟩
    cases hf : w.isFeed with
    | false => exact Or.inl (by simp [Wire.net, hf])
    | true => exact Or.inr ⟨rfl, rfl, Or.inr ⟨b, hb, hi, port, hport⟩⟩

/-- All that a body refers to. -/
theorem reference_cases (h : g.statements name s = .ok list) {n : Net}
    (hn : n ∈ references list) :
    (∃ id, n = .name (Identifier.ofId id)) ∨
    ∃ i w, g.wires[i]? = some w ∧
      (n = w.net i ∨ n = .wire i ∧ w.isFeed = true ∧ g.TakenForSignal i w) := by
  rcases mem_references_cases hn with ⟨x, y, hassign, hxy⟩ | ⟨inst, c, huse, hc, rfl⟩
  · exact reference_of_assign ((assign_mem_statements_iff h x y).mp hassign) hxy
  · obtain ⟨b, hb, hi, rfl⟩ := (use_mem_statements_iff h inst).mp huse
    exact Or.inr (reference_of_instance hb hi hc)

/-- A body refers to a constant as a signal where it is taken for one. -/
theorem wire_mem_references (h : g.statements name s = .ok list) {i : Nat} {w : Wire}
    (hw : g.wires[i]? = some w) (hf : w.isFeed = true) (htaken : g.TakenForSignal i w) :
    .wire i ∈ references list := by
  rcases htaken with ⟨b, hb, hinput, hsource⟩ | ⟨b, hb, hi, port, hport⟩
  · obtain ⟨t, ht⟩ := Option.isSome_iff_exists.mp hinput
    have hroot : g.roots[i]? = some i := by simp [getElem?_roots, hw, hf]
    have hassign : .assign (.wire i) (.name (Identifier.ofId b.id)) ∈ g.wiring :=
      (assign_mem_wiring_iff g _ _).mpr (Or.inl
        ⟨i, w, b, t, hw, hb, (b.input?_eq_some_iff t).mp ht, hsource, hroot, rfl, rfl⟩)
    exact assign_mem_references ((assign_mem_statements_iff h _ _).mpr hassign) (Or.inl rfl)
  · have huse : .use (g.instanceOf name b) ∈ list :=
      (use_mem_statements_iff h _).mpr ⟨b, hb, hi, rfl⟩
    have hc : ⟨b.spell port, .wire i⟩ ∈ (g.instanceOf name b).ports :=
      (mem_ports_instanceOf_iff g name b _).mpr ⟨port, i, hport, rfl⟩
    exact use_mem_references huse (List.mem_append_right _ hc)

/-- Constants are referred to by declared names. -/
theorem feedsDeclared (h : g.statements name s = .ok list) : FeedsDeclared list := by
  intro n hn i htext
  rcases reference_cases h hn with ⟨id, rfl⟩ | ⟨j, w, hw, rfl | ⟨rfl, _⟩⟩
  · exact absurd htext (Identifier.ofId_ne_text id (by simp))
  · cases hf : w.isFeed with
    | false =>
        rw [Wire.net, hf] at htext
        exact absurd htext (Net.text_wire_ne_text_feed j i)
    | true =>
        rw [Wire.net, hf] at htext
        obtain rfl := Net.text_feed_inj.mp htext
        exact ⟨_, (feed_mem_statements_iff h j _).mpr ⟨w, hw, hf, rfl⟩⟩
  · exact absurd htext (Net.text_wire_ne_text_feed j i)

/-- Signals are referred to by declared names when no constant is taken for one. -/
theorem wiresDeclared_iff (h : g.statements name s = .ok list) : WiresDeclared list ↔
    ∀ i w, g.wires[i]? = some w → w.isFeed = true → ¬ g.TakenForSignal i w := by
  constructor
  · intro hdeclared i w hw hf htaken
    obtain ⟨width, hwidth⟩ := hdeclared _ (wire_mem_references h hw hf htaken) i rfl
    obtain ⟨v, hv, hs, _⟩ := (wire_mem_statements_iff h i width).mp hwidth
    obtain rfl := Option.some.inj (hw.symm.trans hv)
    simp [hf] at hs
  · intro hnone n hn i htext
    rcases reference_cases h hn with ⟨id, rfl⟩ | ⟨j, w, hw, rfl | ⟨rfl, hf, htaken⟩⟩
    · exact absurd htext (Identifier.ofId_ne_text id (by simp))
    · cases hf : w.isFeed with
      | true =>
          rw [Wire.net, hf] at htext
          exact absurd htext.symm (Net.text_wire_ne_text_feed i j)
      | false =>
          rw [Wire.net, hf] at htext
          obtain rfl := Net.text_wire_inj.mp htext
          exact ⟨_, (wire_mem_statements_iff h j _).mpr ⟨w, hw, hf, rfl⟩⟩
    · exact absurd htaken (hnone j w hw hf)

end Declaring

section Separate

/-- Constants are kept apart from signals: none is fed from an input, and one that is fed from an
instance comes after a signal to the same port. -/
structure SeparateFeeds (g : Graph) : Prop where
  inputs : ∀ w ∈ g.wires, w.isFeed = true → ∀ b ∈ g.blocks, w.source.block = b.id →
    b.input? = none
  instances : ∀ (i : Nat) (w : Wire), g.wires[i]? = some w → w.isFeed = true →
    ∀ b ∈ g.blocks, b.isInstance → w.source.block = b.id →
      ∃ (j : Nat) (v : Wire), j < i ∧ g.wires[j]? = some v ∧ v.isFeed = false ∧
        v.target = w.source

variable {g : Graph}

/-- Constants start at a port with a name. -/
theorem port_ne_empty_of_isFeed {w : Wire} (hf : w.isFeed = true) : w.source.port ≠ "" := by
  intro hport
  simp [Wire.isFeed, Wire.feedPort, hport] at hf

/-- An instance from which a constant is fed is connected at that port to a wire that feeds a
constant, or to a signal that comes before. -/
theorem exists_connection_of_feed {i : Nat} {w : Wire} (hw : g.wires[i]? = some w)
    (hf : w.isFeed = true) {id : String} (hsource : w.source.block = id) :
    ∃ j v, g.wires[j]? = some v ∧ (w.source.port, j) ∈ g.connections id ∧
      (v.isFeed = true ∨ j < i ∧ v.isFeed = false ∧ v.target = w.source) := by
  have hend : w.source = ⟨id, w.source.port⟩ := by rw [← hsource]
  have hmeet := (w.mem_portsAt id w.source.port).mpr (Or.inl hend)
  obtain ⟨j, hle, hport⟩ := exists_mem_connections (port_ne_empty_of_isFeed hf) hw hmeet
  obtain ⟨_, v, hv, hvmeet⟩ := exists_wire_of_mem_connections hport
  refine ⟨j, v, hv, hport, ?_⟩
  rcases (v.mem_portsAt id w.source.port).mp hvmeet with hvsource | ⟨hs, hvtarget⟩
  · rw [← hend] at hvsource
    exact Or.inl (by rwa [Wire.isFeed, hvsource])
  · have hne : j ≠ i := by
      rintro rfl
      obtain rfl := Option.some.inj (hv.symm.trans hw)
      simp [hf] at hs
    exact Or.inr ⟨by omega, hs, hvtarget.trans hend.symm⟩

theorem not_takenForSignal_iff :
    (∀ i w, g.wires[i]? = some w → w.isFeed = true → ¬ g.TakenForSignal i w) ↔
      g.SeparateFeeds := by
  constructor
  · intro hnone
    refine ⟨?_, ?_⟩
    · intro w hmem hf b hb hsource
      obtain ⟨i, hw⟩ := List.mem_iff_getElem?.mp hmem
      refine Option.not_isSome_iff_eq_none.mp fun hinput => ?_
      exact hnone i w hw hf (Or.inl ⟨b, hb, hinput, hsource⟩)
    · intro i w hw hf b hb hi hsource
      obtain ⟨j, v, hv, hport, hfeed | ⟨hlt, hs, htarget⟩⟩ :=
        exists_connection_of_feed hw hf hsource
      · exact absurd (Or.inr ⟨b, hb, hi, _, hport⟩) (hnone j v hv hfeed)
      · exact ⟨j, v, hlt, hv, hs, htarget⟩
  · rintro hg i w hw hf (⟨b, hb, hinput, hsource⟩ | ⟨b, hb, hi, port, hport⟩)
    · simp [hg.inputs w (List.mem_of_getElem? hw) hf b hb hsource] at hinput
    · obtain ⟨_, v, hv, hmeet⟩ := exists_wire_of_mem_connections hport
      obtain rfl := Option.some.inj (hv.symm.trans hw)
      have hsource : v.source = ⟨b.id, port⟩ := by
        rcases (v.mem_portsAt b.id port).mp hmeet with hsource | ⟨hs, _⟩
        · exact hsource
        · simp [hf] at hs
      -- a signal that comes before would be connected to the port in its place
      obtain ⟨j, u, hlt, hu, hs, htarget⟩ := hg.instances i v hv hf b hb hi (by rw [hsource])
      refine not_meet_of_lt hport hlt hu ((u.mem_portsAt b.id port).mpr ?_)
      exact Or.inr ⟨hs, htarget.trans hsource⟩

/-- In every body the constants that it refers to are declared; its signals are all declared
exactly when constants are kept apart from signals in the graph. -/
theorem references_declared_iff {name : String} {s : Scope} {list : List Statement}
    (h : g.statements name s = .ok list) :
    FeedsDeclared list ∧ (WiresDeclared list ↔ g.SeparateFeeds) :=
  ⟨feedsDeclared h, (wiresDeclared_iff h).trans not_takenForSignal_iff⟩

end Separate

/-- A constant for a parameter, and a port of the instance that a signal goes to before a constant
is fed from it. -/
def portReused : Graph where
  blocks := [⟨"a", .input {}⟩, ⟨"k", .constant {}⟩, ⟨"u", .circuit "t"⟩, ⟨"x", .output {}⟩]
  wires := [{ source := ⟨"k", "constant-out"⟩, target := ⟨"u", "N"⟩ },
    { source := ⟨"a", "out"⟩, target := ⟨"u", "constant-out"⟩ },
    { source := ⟨"u", "constant-out"⟩, target := ⟨"x", "in"⟩ }]

theorem separateFeeds_portReused : portReused.SeparateFeeds where
  inputs := by decide
  instances := by
    have hall : ∀ x ∈ portReused.indexedWires, x.1.isFeed = true → ∀ b ∈ portReused.blocks,
        b.isInstance → x.1.source.block = b.id → ∃ y ∈ portReused.indexedWires, y.2 < x.2 ∧
          y.1.isFeed = false ∧ y.1.target = x.1.source := by decide
    intro i w hw hf b hb hi hsource
    obtain ⟨⟨v, j⟩, hv, hlt, hs, htarget⟩ :=
      hall (w, i) (List.mem_zipIdx_iff_getElem?.mpr hw) hf b hb hi hsource
    exact ⟨j, v, hlt, List.mem_zipIdx_iff_getElem?.mp hv, hs, htarget⟩

/-- All names are declared, although the last wire starts at the instance. -/
theorem references_declared_iff_portReused : ∃ list,
    portReused.statements "main" [[("t", default)]] = .ok list ∧
    references list = [.wire 1, .name "va", .name "vx", .feed 2, .feed 0, .wire 1] ∧
    portReused.SeparateFeeds ∧ FeedsDeclared list ∧ WiresDeclared list := by
  obtain ⟨list, hlist⟩ : ∃ list, portReused.statements "main" [[("t", default)]] = .ok list :=
    ⟨_, rfl⟩
  obtain ⟨hfeeds, hwires⟩ := references_declared_iff hlist
  refine ⟨list, hlist, ?_, separateFeeds_portReused, hfeeds, hwires.mpr separateFeeds_portReused⟩
  obtain rfl : _ = list := Except.ok.inj hlist
  rfl

/-- A constant that is fed from an input. -/
def fedByInput : Graph where
  blocks := [⟨"a", .input {}⟩, ⟨"x", .output {}⟩]
  wires := [{ source := ⟨"a", "constant-out"⟩, target := ⟨"x", "in"⟩ }]

/-- A signal is assigned to that is not declared: the wire stands in the body as a constant. -/
theorem not_wiresDeclared_fedByInput : ∃ list,
    fedByInput.statements "main" [] = .ok list ∧
    list.map Statement.text = ["localparam p0 = va;", "assign w0 = va;", "assign vx = p0;"] ∧
    ¬ WiresDeclared list := by
  obtain ⟨list, hlist⟩ : ∃ list, fedByInput.statements "main" [] = .ok list := ⟨_, rfl⟩
  refine ⟨list, hlist, ?_, ?_⟩
  · obtain rfl : _ = list := Except.ok.inj hlist
    rfl
  · intro hdeclared
    have hg := ((wiresDeclared_iff hlist).trans not_takenForSignal_iff).mp hdeclared
    have hnone := hg.inputs _ List.mem_cons_self (by decide) _ List.mem_cons_self rfl
    cases hnone

end Graph

end Schematic
