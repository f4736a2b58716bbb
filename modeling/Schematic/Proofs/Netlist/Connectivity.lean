import Schematic.Proofs.Netlist.Statements
import Schematic.Proofs.Design.Ids
import Mathlib.Logic.Relation

/-!
# Connectivity of a body

A graph connects stations by wires, and its body connects contacts by statements. On a graph whose
signals are wired properly the two agree up to the names of contacts: identifiers are shortened,
so different stations may end up under one name, and nothing else is ever joined or cut.
-/

namespace Schematic

open Relation

/-- A place between which signals run: an input or output block, or a port of an instance. -/
inductive Station where
  | terminal (id : String)
  | port (id port : String)
deriving DecidableEq

/-- Something that statements connect: a net, or a port of an instance by its name. -/
inductive Contact where
  | net (net : Net)
  | pin (inst port : String)
deriving DecidableEq

/-- A statement joins two contacts. The assignment of a constant joins nothing. -/
inductive Joins (list : List Statement) : Contact → Contact → Prop
  | assign {x y : Net} (h : .assign x y ∈ list) (hy : ∀ i, y ≠ .feed i) :
      Joins list (.net x) (.net y)
  | port {inst : Instance} {c : Connection} (h : .use inst ∈ list) (hc : c ∈ inst.ports) :
      Joins list (.pin inst.name c.port) (.net c.net)

namespace Graph

/-- The station at an end of a wire. -/
def station (g : Graph) (e : Endpoint) : Station :=
  match g.block? e.block with
  | some b => if b.isInstance then .port e.block e.port else .terminal e.block
  | none => .terminal e.block

/-- A signal wire runs from one station to another. -/
def Wired (g : Graph) (t u : Station) : Prop :=
  ∃ w ∈ g.wires, w.isFeed = false ∧ g.station w.source = t ∧ g.station w.target = u

/-- The stations of a graph: input blocks, output blocks, and the ports of instances that signal
wires meet. -/
inductive HasStation (g : Graph) : Station → Prop
  | input {b : Block} (hb : b ∈ g.blocks) (h : b.input?.isSome) : HasStation g (.terminal b.id)
  | output {b : Block} (hb : b ∈ g.blocks) (h : b.output?.isSome) : HasStation g (.terminal b.id)
  | port {b : Block} {w : Wire} {p : String} (hb : b ∈ g.blocks) (h : b.isInstance)
      (hw : w ∈ g.wires) (hs : w.isFeed = false)
      (he : w.source = ⟨b.id, p⟩ ∨ w.target = ⟨b.id, p⟩) : HasStation g (.port b.id p)

/-- The contact that stands for a station in the body. -/
def contact (g : Graph) : Station → Contact
  | .terminal id => .net (.name (Identifier.ofId id))
  | .port id port =>
    .pin (Identifier.ofId id) (match g.block? id with
      | some b => b.spell port
      | none => port)

/-- Two stations stand under one name in the body. -/
def SharesContact (g : Graph) (t u : Station) : Prop :=
  g.HasStation t ∧ g.HasStation u ∧ g.contact t = g.contact u

/-- The signals of a graph are wired properly: wires run from inputs and instances to outputs and
instances, no port is used both ways, nothing is driven twice, and only constants are fed to
parameters. -/
structure WellWired (g : Graph) : Prop where
  ids : g.DistinctIds
  sources : ∀ w ∈ g.wires, w.isFeed = false → ∃ b ∈ g.blocks, b.id = w.source.block ∧
    (b.input?.isSome ∨ b.isInstance ∧ w.source.port ≠ "")
  targets : ∀ w ∈ g.wires, w.isFeed = false → ∃ b ∈ g.blocks, b.id = w.target.block ∧
    (b.output?.isSome ∨ b.isInstance ∧ w.target.port ≠ "")
  oneWay : ∀ b ∈ g.blocks, b.isInstance → ∀ v ∈ g.wires, ∀ w ∈ g.wires,
    v.isFeed = false → w.isFeed = false → v.source.block = b.id → v.source ≠ w.target
  oneDriver : g.wires.Pairwise fun v w =>
    v.isFeed = false → w.isFeed = false → g.station v.target ≠ g.station w.target
  feeds : ∀ w ∈ g.wires, w.isFeed → ∃ b ∈ g.blocks, b.id = w.source.block ∧
    ∃ c, b.kind = .constant c

theorem station_instance {g : Graph} (hg : g.DistinctIds) {b : Block} (hb : b ∈ g.blocks)
    (h : b.isInstance) (p : String) : g.station ⟨b.id, p⟩ = .port b.id p := by
  simp [station, hg.block?_eq_some hb, h]

theorem station_terminal {g : Graph} (hg : g.DistinctIds) {b : Block} (hb : b ∈ g.blocks)
    (h : b.input?.isSome ∨ b.output?.isSome) {e : Endpoint} (he : e.block = b.id) :
    g.station e = .terminal b.id := by
  have hnot : b.isInstance = false := by
    rcases b with ⟨id, kind⟩
    cases kind <;> simp [Block.input?, Block.output?, Block.isInstance] at h ⊢
  simp [station, he, hg.block?_eq_some hb, hnot]

theorem contact_port {g : Graph} (hg : g.DistinctIds) {b : Block} (hb : b ∈ g.blocks)
    (p : String) :
    g.contact (.port b.id p) = .pin (Identifier.ofId b.id) (b.spell p) := by
  simp [contact, hg.block?_eq_some hb]

namespace WellWired

variable {g : Graph}

/-- Wires that start at an input or at an instance carry a signal. -/
theorem isFeed_eq_false (hg : g.WellWired) {w : Wire} (hw : w ∈ g.wires) {b : Block}
    (hb : b ∈ g.blocks) (h : b.input?.isSome ∨ b.isInstance) (hsource : w.source.block = b.id) :
    w.isFeed = false := by
  refine Bool.eq_false_iff.mpr fun hf => ?_
  obtain ⟨c, hc, hid, k, hk⟩ := hg.feeds w hw hf
  obtain rfl := hg.ids.eq_of_id_eq hc hb (hid.trans hsource)
  simp [Block.input?, Block.isInstance, hk] at h

/-- No two signal wires end at one station. -/
theorem index_eq (hg : g.WellWired) {i j : Nat} {v w : Wire} (hv : g.wires[i]? = some v)
    (hw : g.wires[j]? = some w) (hvs : v.isFeed = false) (hws : w.isFeed = false)
    (h : g.station v.target = g.station w.target) : i = j := by
  obtain ⟨hi, rfl⟩ := List.getElem?_eq_some_iff.mp hv
  obtain ⟨hj, rfl⟩ := List.getElem?_eq_some_iff.mp hw
  have hpair := List.pairwise_iff_getElem.mp hg.oneDriver
  rcases Nat.lt_trichotomy i j with hlt | heq | hlt
  · exact absurd h (hpair i j hi hj hlt hvs hws)
  · exact heq
  · exact absurd h.symm (hpair j i hj hi hlt hws hvs)

/-- A port of an instance from which a signal starts is connected to the root of its wires. -/
theorem source_mem_connections (hg : g.WellWired) {w : Wire} (hw : w ∈ g.wires)
    (hs : w.isFeed = false) {b : Block} (hb : b ∈ g.blocks) (hi : b.isInstance)
    (hid : b.id = w.source.block) (hp : w.source.port ≠ "") :
    (w.source.port, g.firstFrom w.source) ∈ g.connections b.id := by
  obtain ⟨v, hv, hvs, hsource⟩ := getElem?_firstFrom hw hs
  have hend : w.source = ⟨b.id, w.source.port⟩ := by rw [hid]
  refine mem_connections_of_first hp hv ((Wire.mem_portsAt _ _ _).mpr ?_) ?_
  · exact Or.inl (hsource.trans hend)
  · intro j u hj hu hmeet
    have hmem := List.mem_of_getElem? hu
    -- an earlier wire at the port would be an earlier root, or use the port the other way
    rcases (Wire.mem_portsAt _ _ _).mp hmeet with hus | ⟨hsig, hut⟩
    · have hsig := hg.isFeed_eq_false hmem hb (Or.inr hi) (by rw [hus])
      have hle := firstFrom_le hu hsig
      rw [hus, ← hend] at hle
      omega
    · exact hg.oneWay b hb hi w hw u hmem hs hsig hid.symm (hend.trans hut.symm)

/-- A port of an instance at which a signal ends is connected to its only wire. -/
theorem target_mem_connections (hg : g.WellWired) {i : Nat} {w : Wire}
    (hw : g.wires[i]? = some w) (hs : w.isFeed = false) {b : Block} (hb : b ∈ g.blocks)
    (hi : b.isInstance) (hid : b.id = w.target.block) (hp : w.target.port ≠ "") :
    (w.target.port, i) ∈ g.connections b.id := by
  have hend : w.target = ⟨b.id, w.target.port⟩ := by rw [hid]
  refine mem_connections_of_first hp hw ((Wire.mem_portsAt _ _ _).mpr (Or.inr ⟨hs, hend⟩)) ?_
  intro j u hj hu hmeet
  have hmem := List.mem_of_getElem? hu
  rcases (Wire.mem_portsAt _ _ _).mp hmeet with hus | ⟨hsig, hut⟩
  · have hsig := hg.isFeed_eq_false hmem hb (Or.inr hi) (by rw [hus])
    exact hg.oneWay b hb hi u hmem w (List.mem_of_getElem? hw) hsig hs (by rw [hus])
      (hus.trans hend.symm)
  · have := hg.index_eq hu hw hsig hs (by rw [hut, ← hend])
    omega

end WellWired

section Body

variable {g : Graph} {name : String} {s : Scope} {list : List Statement}

/-- The instance of a block joins each connected port to its wire. -/
theorem joins_port (h : g.statements name s = .ok list) {b : Block} (hb : b ∈ g.blocks)
    (hi : b.isInstance) {p : String} {i : Nat} (hc : (p, i) ∈ g.connections b.id) :
    Joins list (.pin (Identifier.ofId b.id) (b.spell p)) (.net (.wire i)) := by
  have huse : Statement.use (g.instanceOf name b) ∈ list :=
    (use_mem_statements_iff h _).mpr ⟨b, hb, hi, rfl⟩
  have hport : (⟨b.spell p, .wire i⟩ : Connection) ∈ (g.instanceOf name b).ports :=
    (mem_ports_instanceOf_iff g name b _).mpr ⟨p, i, hc, rfl⟩
  exact .port huse hport

/-- The source of a signal wire is connected to the wire, through the root of its fan-out. -/
theorem source_joined (hg : g.WellWired) (h : g.statements name s = .ok list) {i : Nat} {w : Wire}
    (hw : g.wires[i]? = some w) (hs : w.isFeed = false) :
    EqvGen (Joins list) (g.contact (g.station w.source)) (.net (.wire i)) := by
  have hmem := List.mem_of_getElem? hw
  have hroot : EqvGen (Joins list) (.net (.wire (g.firstFrom w.source))) (.net (.wire i)) := by
    by_cases heq : g.firstFrom w.source = i
    · rw [heq]
      exact .refl _
    · refine .symm _ _ (.rel _ _ (.assign ?_ (by simp)))
      exact (assign_mem_statements_iff h _ _).mpr (assign_follower_mem hw hs heq)
  refine .trans _ _ _ ?_ hroot
  obtain ⟨b, hb, hid, hinput | ⟨hi, hp⟩⟩ := hg.sources w hmem hs
  · rw [station_terminal hg.ids hb (Or.inl hinput) hid.symm]
    obtain ⟨t, ht⟩ := Option.isSome_iff_exists.mp hinput
    refine .symm _ _ (.rel _ _ (.assign ?_ (by simp)))
    exact (assign_mem_statements_iff h _ _).mpr
      (assign_root_mem hmem hs hb ((b.input?_eq_some_iff t).mp ht) hid.symm)
  · have hend : w.source = ⟨b.id, w.source.port⟩ := by rw [hid]
    rw [hend, station_instance hg.ids hb hi, contact_port hg.ids hb, ← hend]
    exact .rel _ _ (joins_port h hb hi (hg.source_mem_connections hmem hs hb hi hid hp))

/-- The target of a signal wire is connected to the wire. -/
theorem target_joined (hg : g.WellWired) (h : g.statements name s = .ok list) {i : Nat} {w : Wire}
    (hw : g.wires[i]? = some w) (hs : w.isFeed = false) :
    EqvGen (Joins list) (.net (.wire i)) (g.contact (g.station w.target)) := by
  have hmem := List.mem_of_getElem? hw
  refine .symm _ _ (.rel _ _ ?_)
  obtain ⟨b, hb, hid, houtput | ⟨hi, hp⟩⟩ := hg.targets w hmem hs
  · rw [station_terminal hg.ids hb (Or.inr houtput) hid.symm]
    obtain ⟨t, ht⟩ := Option.isSome_iff_exists.mp houtput
    refine .assign ?_ (by simp)
    refine (assign_mem_statements_iff h _ _).mpr ((assign_mem_wiring_iff g _ _).mpr ?_)
    exact Or.inr (Or.inl ⟨i, w, b, t, hw, hb, (b.output?_eq_some_iff t).mp ht, hid.symm, rfl,
      by simp [hs]⟩)
  · have hend : w.target = ⟨b.id, w.target.port⟩ := by rw [hid]
    rw [hend, station_instance hg.ids hb hi, contact_port hg.ids hb]
    exact joins_port h hb hi (hg.target_mem_connections hw hs hb hi hid hp)

/-- The stations whose signal a contact carries: a wire carries the signal of its source, and the
contact of a station that of the station. -/
inductive Carries (g : Graph) : Contact → Station → Prop
  | wire {i : Nat} {w : Wire} (hw : g.wires[i]? = some w) (hs : w.isFeed = false) :
      Carries g (.net (.wire i)) (g.station w.source)
  | contact {t : Station} (ht : g.HasStation t) : Carries g (g.contact t) t

/-- Stations are connected in the graph by wires and by shared names. -/
def Connected (g : Graph) : Station → Station → Prop :=
  EqvGen fun t u => g.Wired t u ∨ g.SharesContact t u

theorem contact_ne_wire (g : Graph) (t : Station) (i : Nat) : g.contact t ≠ .net (.wire i) := by
  cases t <;> simp [contact]

/-- What one contact carries is connected in the graph. -/
theorem Carries.connected {x : Contact} {t u : Station} (ht : g.Carries x t)
    (hu : g.Carries x u) : g.Connected t u := by
  cases ht with
  | wire hw _ =>
      generalize hx : Contact.net (.wire _) = x at hu
      cases hu with
      | wire hw' _ =>
          obtain rfl : _ = _ := by simpa using hx
          obtain rfl : _ = _ := Option.some.inj (hw.symm.trans hw')
          exact .refl _
      | contact => exact absurd hx.symm (contact_ne_wire g _ _)
  | contact ht =>
      generalize hx : g.contact t = x at hu
      cases hu with
      | wire => exact absurd hx (contact_ne_wire g _ _)
      | contact hu => exact .rel _ _ (Or.inr ⟨ht, hu, hx⟩)

/-- A signal wire connects what it carries to its target. -/
theorem connected_target {w : Wire} (hw : w ∈ g.wires) (hs : w.isFeed = false) :
    g.Connected (g.station w.source) (g.station w.target) :=
  .rel _ _ (Or.inl ⟨w, hw, hs, rfl, rfl⟩)

/-- A statement joins contacts that carry connected stations. -/
theorem joins_connected (hg : g.WellWired) (h : g.statements name s = .ok list) {x y : Contact}
    (hxy : Joins list x y) : ∃ t u, g.Carries x t ∧ g.Carries y u ∧ g.Connected t u := by
  cases hxy with
  | assign hmem hy =>
      rcases (assign_mem_wiring_iff g _ _).mp ((assign_mem_statements_iff h _ _).mp hmem) with
        ⟨i, w, b, t, hw, hb, hkind, hsource, _, rfl, rfl⟩ |
        ⟨i, w, b, t, hw, hb, hkind, htarget, rfl, rfl⟩ | ⟨i, root, hroot, hne, rfl, rfl⟩
      · have hinput : b.input?.isSome := by simp [Block.input?, hkind]
        have hs := hg.isFeed_eq_false (List.mem_of_getElem? hw) hb (Or.inl hinput) hsource
        have hstation := station_terminal hg.ids hb (Or.inl hinput) hsource
        exact ⟨_, _, .wire hw hs, .contact (.input hb hinput), hstation ▸ .refl _⟩
      · have houtput : b.output?.isSome := by simp [Block.output?, hkind]
        have hs : w.isFeed = false := by
          refine Bool.eq_false_iff.mpr fun hf => hy i ?_
          simp [hf]
        have hstation := station_terminal hg.ids hb (Or.inr houtput) htarget
        have hwire := connected_target (List.mem_of_getElem? hw) hs
        simp only [hs, Bool.false_eq_true, if_false]
        exact ⟨_, _, .contact (.output hb houtput), .wire hw hs, .symm _ _ (hstation ▸ hwire)⟩
      · rw [getElem?_roots] at hroot
        obtain ⟨w, hw, hif⟩ := Option.map_eq_some_iff.mp hroot
        have hs : w.isFeed = false :=
          Bool.eq_false_iff.mpr fun hf => hne (by simpa [hf] using hif.symm)
        obtain rfl : g.firstFrom w.source = root := by simpa [hs] using hif
        obtain ⟨v, hv, hvs, hsource⟩ := getElem?_firstFrom (List.mem_of_getElem? hw) hs
        exact ⟨_, _, .wire hw hs, .wire hv hvs, hsource ▸ .refl _⟩
  | port huse hc =>
      obtain ⟨b, hb, hi, rfl⟩ := (use_mem_statements_iff h _).mp huse
      obtain ⟨p, i, hp, rfl⟩ := (mem_ports_instanceOf_iff g name b _).mp hc
      obtain ⟨_, w, hw, hmeet⟩ := exists_wire_of_mem_connections hp
      have hmem := List.mem_of_getElem? hw
      have hcontact := contact_port hg.ids hb p
      have hstation := station_instance hg.ids hb hi p
      rcases (Wire.mem_portsAt _ _ _).mp hmeet with hsource | ⟨hs, htarget⟩
      · have hs := hg.isFeed_eq_false hmem hb (Or.inr hi) (by rw [hsource])
        have hport := Carries.contact (.port hb hi hmem hs (Or.inl hsource))
        exact ⟨_, _, hcontact ▸ hport, .wire hw hs, by rw [hsource, hstation]; exact .refl _⟩
      · have hport := Carries.contact (.port hb hi hmem hs (Or.inr htarget))
        have hwire := connected_target hmem hs
        rw [htarget, hstation] at hwire
        exact ⟨_, _, hcontact ▸ hport, .wire hw hs, .symm _ _ hwire⟩

/-- Contacts connected by a body are the same, or carry connected stations. -/
theorem joined_connected (hg : g.WellWired) (h : g.statements name s = .ok list) {x y : Contact}
    (hxy : EqvGen (Joins list) x y) :
    x = y ∨ ∃ t u, g.Carries x t ∧ g.Carries y u ∧ g.Connected t u := by
  induction hxy with
  | rel x y hxy => exact Or.inr (joins_connected hg h hxy)
  | refl x => exact Or.inl rfl
  | symm x y _ ih =>
      rcases ih with rfl | ⟨t, u, ht, hu, htu⟩
      · exact Or.inl rfl
      · exact Or.inr ⟨u, t, hu, ht, .symm _ _ htu⟩
  | trans x y z _ _ ihxy ihyz =>
      rcases ihxy with rfl | ⟨t, u, ht, hu, htu⟩
      · exact ihyz
      · rcases ihyz with rfl | ⟨u', v, hu', hv, huv⟩
        · exact Or.inr ⟨t, u, ht, hu, htu⟩
        · exact Or.inr ⟨t, v, ht, hv, .trans _ _ _ htu (.trans _ _ _ (hu.connected hu') huv)⟩

/-- Connected stations have connected contacts. -/
theorem connected_joined (hg : g.WellWired) (h : g.statements name s = .ok list) {t u : Station}
    (htu : g.Connected t u) : EqvGen (Joins list) (g.contact t) (g.contact u) := by
  induction htu with
  | rel t u htu =>
      rcases htu with ⟨w, hw, hs, rfl, rfl⟩ | ⟨_, _, heq⟩
      · obtain ⟨i, hi⟩ := List.mem_iff_getElem?.mp hw
        exact .trans _ _ _ (source_joined hg h hi hs) (target_joined hg h hi hs)
      · rw [heq]
        exact .refl _
  | refl t => exact .refl _
  | symm t u _ ih => exact .symm _ _ ih
  | trans t u v _ _ ihtu ihuv => exact .trans _ _ _ ihtu ihuv

/-- The body of a properly wired graph connects two stations exactly when they are connected by
signal wires and shared names. Where no two stations share a name, it connects them exactly when
signal wires do. -/
theorem joined_iff_wired (hg : g.WellWired) (h : g.statements name s = .ok list) {t u : Station}
    (ht : g.HasStation t) (hu : g.HasStation u) :
    (EqvGen (Joins list) (g.contact t) (g.contact u) ↔
      EqvGen (fun a b => g.Wired a b ∨ g.SharesContact a b) t u) ∧
    ((∀ a b, g.SharesContact a b → a = b) →
      (EqvGen (Joins list) (g.contact t) (g.contact u) ↔ EqvGen g.Wired t u)) := by
  have hiff : EqvGen (Joins list) (g.contact t) (g.contact u) ↔ g.Connected t u := by
    constructor
    · intro hjoined
      rcases joined_connected hg h hjoined with heq | ⟨t', u', ht', hu', htu⟩
      · exact .rel _ _ (Or.inr ⟨ht, hu, heq⟩)
      · have htt := (Carries.contact ht).connected ht'
        have huu := hu'.connected (.contact hu)
        exact .trans _ _ _ htt (.trans _ _ _ htu huu)
    · exact connected_joined hg h
  refine ⟨hiff, fun hnames => hiff.trans ⟨fun htu => ?_, fun htu => ?_⟩⟩
  · have hle : (fun a b => g.Wired a b ∨ g.SharesContact a b) ≤ EqvGen g.Wired := by
      rintro a b (hab | hab)
      · exact .rel _ _ hab
      · rw [hnames a b hab]
        exact .refl _
    exact EqvGen.eqvGen_le hle _ _ htu
  · exact EqvGen.mono (fun _ _ => Or.inl) _ _ htu

end Body

/-- An input into an instance, and a port of the instance that fans out to two outputs. -/
def fannedOut : Graph where
  blocks := [⟨"a", .input {}⟩, ⟨"g", .circuit "t"⟩, ⟨"x", .output {}⟩, ⟨"y", .output {}⟩]
  wires := [{ source := ⟨"a", "out"⟩, target := ⟨"g", "d"⟩ },
    { source := ⟨"g", "q"⟩, target := ⟨"x", "in"⟩ },
    { source := ⟨"g", "q"⟩, target := ⟨"y", "in"⟩ }]

theorem wellWired_fannedOut : fannedOut.WellWired where
  ids := by unfold DistinctIds; decide
  sources := by decide
  targets := by decide
  oneWay := by decide
  oneDriver := by decide
  feeds := by simp [fannedOut, Wire.isFeed, Wire.feedPort]

/-- The five stations of the graph have five names. -/
theorem eq_of_sharesContact_fannedOut (t u : Station) (h : fannedOut.SharesContact t u) :
    t = u := by
  let stations : List Station :=
    [.terminal "a", .terminal "x", .terminal "y", .port "g" "d", .port "g" "q"]
  have hterminals : ∀ b ∈ fannedOut.blocks, b.input?.isSome ∨ b.output?.isSome →
      .terminal b.id ∈ stations := by decide
  have hports : ∀ b ∈ fannedOut.blocks, b.isInstance → ∀ w ∈ fannedOut.wires,
      ∀ e ∈ [w.source, w.target], e.block = b.id → .port b.id e.port ∈ stations := by decide
  have hmem (v : Station) (hv : fannedOut.HasStation v) : v ∈ stations := by
    cases hv with
    | input hb hi => exact hterminals _ hb (Or.inl hi)
    | output hb ho => exact hterminals _ hb (Or.inr ho)
    | port hb hi hw _ he =>
        rcases he with he | he
        · exact hports _ hb hi _ hw ⟨_, _⟩ (by simp [he]) rfl
        · exact hports _ hb hi _ hw ⟨_, _⟩ (by simp [he]) rfl
  have hnames : ∀ a ∈ stations, ∀ b ∈ stations,
      fannedOut.contact a = fannedOut.contact b → a = b := by decide +kernel
  exact hnames t (hmem t h.1) u (hmem u h.2.1) h.2.2

/-- The two outputs on the fan-out are connected by the body, since they are by the wires. -/
theorem joined_outputs_fannedOut : ∃ list,
    fannedOut.statements "main" [[("t", default)]] = .ok list ∧
      fannedOut.WellWired ∧ (∀ a b, fannedOut.SharesContact a b → a = b) ∧
      EqvGen (Joins list) (fannedOut.contact (.terminal "x"))
        (fannedOut.contact (.terminal "y")) := by
  obtain ⟨list, hlist⟩ : ∃ list,
      fannedOut.statements "main" [[("t", default)]] = .ok list := ⟨_, rfl⟩
  refine ⟨list, hlist, wellWired_fannedOut, eq_of_sharesContact_fannedOut, ?_⟩
  have hx : fannedOut.HasStation (.terminal "x") :=
    .output (b := ⟨"x", .output {}⟩) (by decide) (by decide)
  have hy : fannedOut.HasStation (.terminal "y") :=
    .output (b := ⟨"y", .output {}⟩) (by decide) (by decide)
  have hqx : fannedOut.Wired (.port "g" "q") (.terminal "x") :=
    ⟨{ source := ⟨"g", "q"⟩, target := ⟨"x", "in"⟩ }, by decide, by decide, by decide, by decide⟩
  have hqy : fannedOut.Wired (.port "g" "q") (.terminal "y") :=
    ⟨{ source := ⟨"g", "q"⟩, target := ⟨"y", "in"⟩ }, by decide, by decide, by decide, by decide⟩
  refine ((joined_iff_wired wellWired_fannedOut hlist hx hy).2
    eq_of_sharesContact_fannedOut).mpr ?_
  exact .trans _ _ _ (.symm _ _ (.rel _ _ hqx)) (.rel _ _ hqy)

/-- Two inputs whose ids have the same identifier, each with an output of its own. -/
def shortened : Graph where
  blocks := [⟨"in-1372", .input {}⟩, ⟨"in-3778", .input {}⟩, ⟨"x", .output {}⟩,
    ⟨"y", .output {}⟩]
  wires := [{ source := ⟨"in-1372", "out"⟩, target := ⟨"x", "in"⟩ },
    { source := ⟨"in-3778", "out"⟩, target := ⟨"y", "in"⟩ }]

theorem wellWired_shortened : shortened.WellWired where
  ids := by unfold DistinctIds; decide
  sources := by decide
  targets := by decide
  oneWay := by decide
  oneDriver := by decide
  feeds := by simp [shortened, Wire.isFeed, Wire.feedPort]

/-- Distinct ids do not keep signals apart: two outputs that no wires connect are connected by the
body, through the one name of their inputs. -/
theorem joined_not_wired_shortened : ∃ list,
    shortened.statements "main" [] = .ok list ∧ shortened.WellWired ∧
      shortened.HasStation (.terminal "x") ∧ shortened.HasStation (.terminal "y") ∧
      EqvGen (Joins list) (shortened.contact (.terminal "x"))
        (shortened.contact (.terminal "y")) ∧
      ¬ EqvGen shortened.Wired (.terminal "x") (.terminal "y") := by
  have hstation (id : String) (b : Block) (hb : b ∈ shortened.blocks) (hid : b.id = id)
      (h : b.input?.isSome ∨ b.output?.isSome) : shortened.HasStation (.terminal id) := by
    subst hid
    rcases h with h | h
    · exact .input hb h
    · exact .output hb h
  have hx := hstation "x" ⟨"x", .output {}⟩ (by decide) rfl (by decide)
  have hy := hstation "y" ⟨"y", .output {}⟩ (by decide) rfl (by decide)
  have ha := hstation "in-1372" ⟨"in-1372", .input {}⟩ (by decide) rfl (by decide)
  have hb := hstation "in-3778" ⟨"in-3778", .input {}⟩ (by decide) rfl (by decide)
  have hname :
      shortened.contact (.terminal "in-1372") = shortened.contact (.terminal "in-3778") := by
    decide +kernel
  have hax : shortened.Wired (.terminal "in-1372") (.terminal "x") :=
    ⟨_, List.mem_cons_self, by decide, by decide, by decide⟩
  have hby : shortened.Wired (.terminal "in-3778") (.terminal "y") :=
    ⟨_, List.mem_cons_of_mem _ List.mem_cons_self, by decide, by decide, by decide⟩
  obtain ⟨list, hlist⟩ : ∃ list, shortened.statements "main" [] = .ok list := ⟨_, rfl⟩
  refine ⟨list, hlist, wellWired_shortened, hx, hy, ?_, ?_⟩
  · refine connected_joined wellWired_shortened hlist (.trans _ (.terminal "in-1372") _ ?_ ?_)
    · exact .symm _ _ (.rel _ _ (Or.inl hax))
    · exact .trans _ _ _ (.rel _ _ (Or.inr ⟨ha, hb, hname⟩)) (.rel _ _ (Or.inl hby))
  · -- every wire stays on one side
    let left (t : Station) : Bool := t ∈ [.terminal "in-1372", .terminal "x"]
    have hside : ∀ w ∈ shortened.wires,
        left (shortened.station w.source) = left (shortened.station w.target) := by decide
    intro hxy
    have hle : shortened.Wired ≤ fun t u => left t = left u := by
      rintro _ _ ⟨w, hw, _, rfl, rfl⟩
      exact hside w hw
    have hequiv : Equivalence fun t u => left t = left u := ⟨fun _ => rfl, Eq.symm, Eq.trans⟩
    exact absurd (hequiv.eqvGen_iff.mp (EqvGen.mono hle _ _ hxy)) (by decide)

end Graph

end Schematic
