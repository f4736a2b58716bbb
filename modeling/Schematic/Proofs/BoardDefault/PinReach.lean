import Schematic.Proofs.Artifact.PlaceLines
import Schematic.Proofs.Hierarchy.Compiled

/-!
# From a request to its pin

A port that asks for a board pin and is connected to nothing else is followed through a whole
compilation: one wire reaches it, the wire comes from an input on the pin, the main module carries
the input to the instance of the block, and the constraints place the input on the pin. The one
thing that ids can spoil is the name of the port in the instance, which another port may share.
-/

namespace Schematic

/-- A supplier is placed on its pin by a single constraint. -/
theorem Block.constraints_of_suppliesPin {b : Block} {pin : String}
    (h : b.suppliesPin pin = true) : b.constraints = [⟨Identifier.ofId b.id, none, pin⟩] := by
  obtain ⟨t, hkind, _, hvirtual, hsole⟩ := (b.suppliesPin_iff pin).mp h
  unfold Terminal.solePin at hsole
  split at hsole
  case h_1 place hpins =>
    obtain rfl := Option.some.inj hsole
    simp [Block.constraints, Terminal.constraints, hkind, hpins, hvirtual]
  case h_2 => cases hsole

/-- The constraints of a top circuit have a line for each input that supplies a pin. -/
theorem Top.exists_line_of_suppliesPin {t : Top} {b : Block} (hb : b ∈ t.graph.blocks)
    {pin : String} (h : b.suppliesPin pin = true) :
    ∃ before after, Constraint.concat t.constraints =
      Constraint.concat before ++ ("set_io " ++ Identifier.ofId b.id ++ " " ++ pin ++ "\n") ++
        Constraint.concat after := by
  obtain ⟨bs, cs, hsplit⟩ := List.append_of_mem hb
  refine ⟨bs.flatMap Block.constraints,
    cs.flatMap Block.constraints ++ t.holdConstraints, ?_⟩
  have hline : Constraint.concat b.constraints =
      "set_io " ++ Identifier.ofId b.id ++ " " ++ pin ++ "\n" := by
    simp [Block.constraints_of_suppliesPin h, Constraint.concat, Constraint.text]
  rw [← hline, ← Constraint.concat_append, ← Constraint.concat_append]
  simp [Top.constraints, hsplit]

theorem Preset.block_of_request? {block port : String} {preset : Option Preset} {r : Request}
    (h : Preset.request? block port preset = some r) : r.block = block := by
  cases preset with
  | none => cases h
  | some preset =>
      simp only [request?, Option.ite_none_right_eq_some, Option.some.injEq] at h
      rw [← h.2]

/-- The requests of a block are its own, and only code and circuit blocks have any. -/
theorem Block.of_mem_requests {b : Block} {s : Scope} {found : List Request}
    (h : b.requests s = .ok found) {r : Request} (hr : r ∈ found) :
    r.block = b.id ∧ b.isInstance = true := by
  unfold Block.requests at h
  split at h
  case h_1 c hkind =>
    obtain rfl := Except.ok.inj h
    obtain ⟨port, _, hport⟩ := List.mem_filterMap.mp hr
    exact ⟨Preset.block_of_request? hport, by simp [isInstance, hkind]⟩
  case h_2 type hkind =>
    split at h
    case h_1 => cases h
    case h_2 p _ =>
      obtain rfl := Except.ok.inj h
      obtain ⟨inner, _, hinner⟩ := List.mem_filterMap.mp hr
      refine ⟨?_, by simp [isInstance, hkind]⟩
      cases ht : inner.input? with
      | none => simp [ht] at hinner
      | some t =>
          rw [ht] at hinner
          exact Preset.block_of_request? hinner
  case h_3 =>
    obtain rfl := Except.ok.inj h
    cases hr

namespace Graph

theorem exists_block_of_mem_requestsOf {s : Scope} {bs : List Block} {rs : List Request}
    (h : requestsOf s bs = .ok rs) {r : Request} (hr : r ∈ rs) :
    ∃ b ∈ bs, r.block = b.id ∧ b.isInstance = true := by
  induction bs generalizing rs with
  | nil =>
      obtain rfl := Except.ok.inj h
      cases hr
  | cons b rest ih =>
      cases hb : b.requests s with
      | error e => simp [requestsOf, hb] at h
      | ok found =>
          simp only [requestsOf, hb] at h
          obtain ⟨later, hlater, rfl⟩ := map_eq_ok_iff.mp h
          rcases List.mem_append.mp hr with hr | hr
          · exact ⟨b, List.mem_cons_self, Block.of_mem_requests hb hr⟩
          · obtain ⟨c, hc, hcr⟩ := ih hlater hr
            exact ⟨c, List.mem_cons_of_mem b hc, hcr⟩

/-- A connected port has one entry among the connections of its block. -/
theorem filter_connections {g : Graph} {id port : String} {k : Nat}
    (h : (port, k) ∈ g.connections id) :
    (g.connections id).filter (fun c => c.1 = port) = [(port, k)] := by
  have hnodup := nodup_connections g id
  generalize g.connections id = bound at h hnodup
  induction bound with
  | nil => cases h
  | cons c rest ih =>
      rw [List.map_cons, List.nodup_cons] at hnodup
      rcases List.mem_cons.mp h with rfl | h
      · have hrest : rest.filter (fun c => c.1 = port) = [] := by
          refine List.filter_eq_nil_iff.mpr fun d hd hport => hnodup.1 ?_
          exact List.mem_map.mpr ⟨d, hd, of_decide_eq_true hport⟩
        simp [hrest]
      · have hne : c.1 ≠ port := by
          intro heq
          exact hnodup.1 (heq ▸ List.mem_map.mpr ⟨_, h, rfl⟩)
        simp [hne, ih h hnodup.2]

/-- An instance binds the name of a connected port once, and then to its wire, exactly when no
other connected port of the block is spelled the same. -/
theorem filter_ports_instanceOf_iff {g : Graph} {name : String} {b : Block} {port : String}
    {k : Nat} (h : (port, k) ∈ g.connections b.id) :
    (g.instanceOf name b).ports.filter (fun c => c.port = b.spell port) =
        [⟨b.spell port, .wire k⟩] ↔
      ∀ q i, (q, i) ∈ g.connections b.id → b.spell q = b.spell port → q = port := by
  have hports : (g.instanceOf name b).ports.filter (fun c => c.port = b.spell port) =
      ((g.connections b.id).filter fun c => b.spell c.1 = b.spell port).map
        fun c => ⟨b.spell c.1, .wire c.2⟩ := by
    rw [instanceOf, instanceFor, List.filter_map]
    rfl
  rw [hports]
  constructor
  · intro hone q i hq hspell
    obtain ⟨c, hc, _⟩ := List.map_eq_singleton_iff.mp hone
    have hmem {d : String × Nat} (hd : d ∈ g.connections b.id)
        (hdspell : b.spell d.1 = b.spell port) : d = c := by
      have hdc : d ∈ (g.connections b.id).filter fun c => b.spell c.1 = b.spell port :=
        List.mem_filter.mpr ⟨hd, decide_eq_true hdspell⟩
      rw [hc] at hdc
      exact List.mem_singleton.mp hdc
    have hsame : (q, i) = (port, k) := (hmem hq hspell).trans (hmem h rfl).symm
    exact congrArg Prod.fst hsame
  · intro hinj
    have hfilter : (g.connections b.id).filter (fun c => b.spell c.1 = b.spell port) =
        (g.connections b.id).filter fun c => c.1 = port := by
      refine List.filter_congr fun c hc => ?_
      have hiff : b.spell c.1 = b.spell port ↔ c.1 = port :=
        ⟨hinj c.1 c.2 hc, fun heq => by rw [heq]⟩
      simp [hiff]
    rw [hfilter, filter_connections h]
    rfl

end Graph

namespace Request

/-- The port of a request has one driver: an input on the pin that it asks for. -/
structure Supplied (r : Request) (g : Graph) (k : Nat) (source : String) : Prop where
  wire : g.wires[k]? = some (r.wire source)
  only : ∀ (j : Nat) (w : Wire), g.wires[j]? = some w → w.target = r.endpoint → j = k
  input : ∃ t, g.block? source = some ⟨source, .input t⟩ ∧ t.range = none ∧
    t.isVirtual = false ∧ t.solePin = some r.pin

/-- A body carries an input to the port of a request: over the root of the wire, and over the
wire itself to the instance of the block. The port is bound to that wire alone; its name is bound
once exactly when no other bound port of the block is spelled the same. -/
structure Delivered (r : Request) (g : Graph) (parent : String) (list : List Statement) (k : Nat)
    (source : String) : Prop where
  carried : ∃ root, g.roots[k]? = some root ∧
    .assign (.wire root) (.name (Identifier.ofId source)) ∈ list ∧
    (root ≠ k → .assign (.wire k) (.wire root) ∈ list)
  bound : ∃ b, g.block? r.block = some b ∧ .use (g.instanceOf parent b) ∈ list ∧
    (g.connections b.id).filter (fun c => c.1 = r.port) = [(r.port, k)] ∧
    ⟨b.spell r.port, .wire k⟩ ∈ (g.instanceOf parent b).ports ∧
    ((g.instanceOf parent b).ports.filter (fun c => c.port = b.spell r.port) =
        [⟨b.spell r.port, .wire k⟩] ↔
      ∀ q i, (q, i) ∈ g.connections b.id → b.spell q = b.spell r.port → q = r.port)

theorem isFeed_wire (r : Request) (source : String) : (r.wire source).isFeed = false := by
  simp [Request.wire, Wire.isFeed, Wire.feedPort, Terminal.outPort]

theorem supplied_of_suppliesPin {r : Request} {g : Graph} {k : Nat} {b : Block}
    (hids : g.DistinctIds) (hb : b ∈ g.blocks) (hpin : b.suppliesPin r.pin = true)
    (hwire : g.wires[k]? = some (r.wire b.id))
    (honly : ∀ (j : Nat) (w : Wire), g.wires[j]? = some w → w.target = r.endpoint → j = k) :
    r.Supplied g k b.id where
  wire := hwire
  only := honly
  input := by
    obtain ⟨t, hkind, hrest⟩ := (b.suppliesPin_iff r.pin).mp hpin
    have hblock := hids.block?_eq_some hb
    rcases b with ⟨id, kind⟩
    obtain rfl : kind = .input t := hkind
    exact ⟨t, hblock, hrest⟩

/-- A supplied port that no wire starts from is delivered by every module of the graph. -/
theorem Supplied.delivered {r : Request} {g : Graph} {k : Nat} {source : String}
    (h : r.Supplied g k source) (hport : r.port ≠ "") {b : Block} (hids : g.DistinctIds)
    (hb : b ∈ g.blocks) (hid : r.block = b.id) (hinst : b.isInstance = true)
    (hsource : ∀ w ∈ g.wires, w.source ≠ r.endpoint) {m : Module} (hm : m.Realizes g) :
    ∃ list, m.body = .statements list ∧ r.Delivered g m.name list k source := by
  obtain ⟨list, hbody, huse, hassign⟩ := hm
  obtain ⟨t, hblock, _⟩ := h.input
  have hmem := List.mem_of_getElem? h.wire
  have hsignal := r.isFeed_wire source
  have hinput : (⟨source, .input t⟩ : Block) ∈ g.blocks := (Graph.mem_of_block?_eq_some hblock).1
  -- no earlier wire meets the port: none ends there and none starts there
  have hbound : (r.port, k) ∈ g.connections b.id := by
    refine Graph.mem_connections_of_first hport h.wire ?_ ?_
    · exact (Wire.mem_portsAt _ _ _).mpr (Or.inr ⟨hsignal, hid ▸ rfl⟩)
    · intro j w hj hw hmeet
      rcases (Wire.mem_portsAt w b.id r.port).mp hmeet with heq | ⟨_, heq⟩
      · exact hsource w (List.mem_of_getElem? hw) (heq.trans (hid ▸ rfl))
      · exact Nat.ne_of_lt hj (h.only j w hw (heq.trans (hid ▸ rfl)))
  have hroot := Graph.assign_root_mem hmem hsignal hinput rfl rfl
  refine ⟨list, hbody, ⟨g.firstFrom (r.wire source).source, ?_, ?_, ?_⟩, b, ?_, ?_, ?_, ?_, ?_⟩
  · exact Graph.getElem?_roots_signal h.wire hsignal
  · exact (hassign _ _).mpr hroot
  · intro hne
    exact (hassign _ _).mpr (Graph.assign_follower_mem h.wire hsignal hne)
  · rw [hid]
    exact hids.block?_eq_some hb
  · exact (huse _).mpr ⟨b, hb, hinst, rfl⟩
  · exact Graph.filter_connections hbound
  · exact (g.mem_ports_instanceOf_iff m.name b _).mpr ⟨r.port, k, hbound, rfl⟩
  · exact Graph.filter_ports_instanceOf_iff hbound

end Request

namespace Project

open Hierarchy

/-- A port that asks for a pin and is otherwise unconnected is driven from that pin in everything
that is compiled: in the top graph, in the main module and in the constraints. -/
theorem request_reaches_pin {p : Project} {o : Options} {rules : BoardRules}
    {ms : List Module} {text : String} {requests : List Request} {r : Request}
    (hids : p.graph.DistinctIds) (hrules : o.boardRules = true) (hnone : o.requests = none)
    (hmodules : p.modules o rules = .ok ms) (htext : p.constraints o rules = .ok text)
    (hrequests : p.graph.requests (Scope.root p) = .ok requests)
    (hfirst : requests.find? (fun q => q.endpoint = r.endpoint) = some r) (hport : r.port ≠ "")
    (htarget : ∀ w ∈ p.graph.wires, w.target ≠ r.endpoint)
    (hsource : ∀ w ∈ p.graph.wires, w.source ≠ r.endpoint) :
    ∃ top main visits k source, Compiled p o rules top main visits ms ∧ main ∈ ms ∧
      r.Supplied top.graph k source ∧
      (∃ list, main.body = .statements list ∧
        r.Delivered top.graph main.name list k source) ∧
      ∃ before after, text = Constraint.concat before ++
        ("set_io " ++ Identifier.ofId source ++ " " ++ r.pin ++ "\n") ++
          Constraint.concat after := by
  obtain ⟨top, main, visits, hcompiled⟩ := (modules_eq_ok_iff p o rules ms).mp hmodules
  obtain ⟨rs, hrs, hgraph⟩ := Top.exists_requests hcompiled.top_eq
  obtain rfl : requests = rs := by
    simp only [Graph.topRequests, hrules, hnone, if_true, hrequests] at hrs
    exact Except.ok.inj hrs
  have hdistinct : top.graph.DistinctIds :=
    hgraph ▸ Wiring.distinctIds_foldl_step hids requests
  have hgrows : Wiring.Grows requests p.graph top.graph :=
    hgraph ▸ Wiring.grows_foldl_step p.graph requests
  have hfree : p.graph.isDriven r.endpoint = false := by
    refine Bool.eq_false_iff.mpr fun hdriven => ?_
    obtain ⟨w, hw, heq⟩ := (p.graph.isDriven_iff r.endpoint).mp hdriven
    exact htarget w hw heq
  obtain ⟨k, b, hwire, hb, hpin, honly⟩ := Wiring.exists_unique_wire hfirst hfree
  rw [← hgraph] at hwire hb honly
  have hsupplied := Request.supplied_of_suppliesPin hdistinct hb hpin hwire honly
  obtain ⟨c, hc, hid, hinst⟩ :=
    Graph.exists_block_of_mem_requestsOf hrequests (List.mem_of_find?_eq_some hfirst)
  obtain ⟨bs, hbs, _⟩ := hgrows.blocks
  have hctop : c ∈ top.graph.blocks := hbs ▸ List.mem_append_left bs hc
  -- the wires that were added start at inputs, and the port belongs to an instance
  have hstart : ∀ w ∈ top.graph.wires, w.source ≠ r.endpoint := by
    obtain ⟨ws, hws, hnew⟩ := hgrows.wires
    intro w hw heq
    rw [hws] at hw
    rcases List.mem_append.mp hw with hw | hw
    · exact hsource w hw heq
    · obtain ⟨_, _, d, hd, hinput, hdsource⟩ := hnew w hw
      have hdid : d.id = c.id := by
        rw [← hid]
        exact congrArg Endpoint.block (hdsource.symm.trans heq)
      obtain rfl := hdistinct.eq_of_id_eq hd hctop hdid
      obtain ⟨t, ht⟩ := Option.isSome_iff_exists.mp hinput
      simp [Block.isInstance, (d.input?_eq_some_iff t).mp ht] at hinst
  have hrealizes := (Top.toModule_eq_ok hcompiled.main_eq).2.1
  refine ⟨top, main, visits, k, b.id, hcompiled, hcompiled.main_mem, hsupplied, ?_, ?_⟩
  · exact hsupplied.delivered hport hdistinct hctop hid hinst hstart hrealizes
  · obtain ⟨top', htop', rfl⟩ := map_eq_ok_iff.mp htext
    obtain rfl := Except.ok.inj (hcompiled.top_eq.symm.trans htop')
    exact Top.exists_line_of_suppliesPin hb hpin

/-- An input on a pin that feeds one block, and another block with two ports that ask for the
pin. -/
def sharedClock : Project where
  design := { graph := {
    blocks := [⟨"clk", .input (.onPin "CLK" "21")⟩, ⟨"a", .code {}⟩,
      ⟨"b", .code { inputs := [⟨"c", none, some ⟨"CLK", "21", true⟩⟩,
        ⟨"d", none, some ⟨"CLK", "21", true⟩⟩] }⟩]
    wires := [{ source := ⟨"clk", "out"⟩, target := ⟨"a", "c"⟩ }] } }
  library := []

/-- The second port that asks for the pin is reached over the wire of the block that had it. -/
theorem request_reaches_pin_sharedClock : ∃ ms text,
    sharedClock.modules { boardRules := true } {} = .ok ms ∧
    sharedClock.constraints { boardRules := true } {} = .ok text ∧
    ∃ top main visits k source,
      Compiled sharedClock { boardRules := true } {} top main visits ms ∧ main ∈ ms ∧
      (⟨"b", "d", "CLK", "21"⟩ : Request).Supplied top.graph k source ∧
      (∃ list, main.body = .statements list ∧
        (⟨"b", "d", "CLK", "21"⟩ : Request).Delivered top.graph main.name list k source) ∧
      ∃ before after, text = Constraint.concat before ++
        ("set_io " ++ Identifier.ofId source ++ " " ++ "21" ++ "\n") ++
          Constraint.concat after := by
  obtain ⟨ms, hms⟩ : ∃ ms, sharedClock.modules { boardRules := true } {} = .ok ms := ⟨_, rfl⟩
  obtain ⟨text, htext⟩ : ∃ text,
      sharedClock.constraints { boardRules := true } {} = .ok text := ⟨_, rfl⟩
  have hids : sharedClock.graph.DistinctIds := by
    unfold Graph.DistinctIds
    decide
  have hrequests : sharedClock.graph.requests (Scope.root sharedClock) =
      .ok [⟨"b", "c", "CLK", "21"⟩, ⟨"b", "d", "CLK", "21"⟩] := rfl
  refine ⟨ms, text, hms, htext, ?_⟩
  exact request_reaches_pin hids rfl rfl hms htext hrequests (r := ⟨"b", "d", "CLK", "21"⟩)
    (by decide) (by decide) (by decide) (by decide)

/-- A circuit block with two inputs that ask for different pins and have the same identifier. -/
def shortenedPorts : Project where
  design := { graph := { blocks := [⟨"g", .circuit "t"⟩] } }
  library := [("t", {
    design := { graph := { blocks := [
      ⟨"port-4", .input { preset := some ⟨"A", "1", true⟩ }⟩,
      ⟨"port-8134", .input { preset := some ⟨"B", "2", true⟩ }⟩] } }
    library := [] })]

/-- Both requests are met, but the instance binds one name to the wires of both. -/
theorem bound_twice_shortenedPorts :
    shortenedPorts.graph.DistinctIds ∧ shortenedPorts.graph.wires = [] ∧
    shortenedPorts.graph.requests (Scope.root shortenedPorts) =
      .ok [⟨"g", "port-4", "A", "1"⟩, ⟨"g", "port-8134", "B", "2"⟩] ∧
    ∃ ms top main visits list,
      shortenedPorts.modules { boardRules := true } {} = .ok ms ∧
      Compiled shortenedPorts { boardRules := true } {} top main visits ms ∧
      main.body = .statements list ∧
      .use (top.graph.instanceOf main.name ⟨"g", .circuit "t"⟩) ∈ list ∧
      (top.graph.instanceOf main.name ⟨"g", .circuit "t"⟩).ports =
        [⟨Identifier.ofId "port-4", .wire 0⟩, ⟨Identifier.ofId "port-4", .wire 1⟩] := by
  have hrequests : shortenedPorts.graph.requests (Scope.root shortenedPorts) =
      .ok [⟨"g", "port-4", "A", "1"⟩, ⟨"g", "port-8134", "B", "2"⟩] := rfl
  refine ⟨by unfold Graph.DistinctIds; decide, rfl, hrequests, ?_⟩
  obtain ⟨ms, hms⟩ : ∃ ms, shortenedPorts.modules { boardRules := true } {} = .ok ms := ⟨_, rfl⟩
  obtain ⟨top, main, visits, hcompiled⟩ := (modules_eq_ok_iff _ _ _ ms).mp hms
  obtain ⟨rs, hrs, hgraph⟩ := Top.exists_requests hcompiled.top_eq
  obtain rfl := Except.ok.inj (hrequests.symm.trans hrs)
  obtain ⟨hname, ⟨list, hbody, huse, _⟩, _⟩ := Top.toModule_eq_ok hcompiled.main_eq
  refine ⟨ms, top, main, visits, list, hms, hcompiled, hbody, ?_, ?_⟩
  · refine (huse _).mpr ⟨⟨"g", .circuit "t"⟩, ?_, rfl, rfl⟩
    rw [hgraph]
    decide +kernel
  · rw [hgraph, hname]
    decide +kernel

end Project

end Schematic
