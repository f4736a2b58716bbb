import Schematic.Proofs.Artifact.ConstraintLines
import Schematic.Proofs.BoardDefault.Undisturbed
import Schematic.Proofs.Netlist.Declarations

/-!
# The name of the port that holds idle pins

Blocks are declared in a module under their identifiers, and so the ports of a graph have names of
their own as soon as its blocks have. The output that holds idle pins is declared beside them under
a fixed name, which is itself the identifier of an id. It clashes with a block that has this id, and
with an input that board defaults add under it.
-/

namespace Schematic

/-- The id whose identifier is the name of the output that holds idle pins. -/
def Top.holdId : String := "init"

/-- No other id has that identifier: a fingerprint has more digits than `init` has letters. -/
theorem Top.ofId_eq_holdPort_iff (id : String) : Identifier.ofId id = holdPort ↔ id = holdId := by
  constructor
  · intro h
    by_cases hhyphen : '-' ∈ id.toList
    · have hlength := congrArg String.length h
      have hdigits : ((Fingerprint.ofText id).short Identifier.digestWidth).length = 6 :=
        Fingerprint.length_short _ (by decide)
      rw [Identifier.ofId, if_pos hhyphen, String.length_append, hdigits] at hlength
      exact absurd hlength (by decide)
    · rw [Identifier.ofId_of_not_mem hhyphen] at h
      exact (String.append_right_inj "v").mp h
  · rintro rfl
    decide

namespace Module

variable (m : Module)

def portNames : List String := (m.inputs ++ m.outputs).map Port.name

/-- The names of the parameters, and of the constants, wires and instances in the body. -/
def innerNames : List String := m.parameters.map Parameter.name ++ m.body.declaredNames

/-- Each port of a module has a name that nothing else in the module has. -/
structure PortsApart : Prop where
  distinct : m.portNames.Nodup
  inner : ∀ name ∈ m.portNames, name ∉ m.innerNames

theorem declaredNames_perm_append : m.declaredNames.Perm (m.portNames ++ m.innerNames) := by
  have hports : m.declaredNames =
      m.parameters.map Parameter.name ++ (m.portNames ++ m.body.declaredNames) := by
    simp only [declaredNames, portNames, List.map_append, List.append_assoc]
  rw [hports, innerNames]
  exact List.perm_append_comm_assoc _ _ _

theorem nodup_declaredNames_iff_portsApart :
    m.declaredNames.Nodup ↔ m.PortsApart ∧ m.innerNames.Nodup := by
  rw [m.declaredNames_perm_append.nodup_iff, List.nodup_append']
  constructor
  · rintro ⟨hports, hinner, hdisjoint⟩
    exact ⟨⟨hports, fun name hname hmem => hdisjoint hname hmem⟩, hinner⟩
  · rintro ⟨hapart, hinner⟩
    exact ⟨hapart.distinct, hinner, fun name hname hmem => hapart.inner name hname hmem⟩

end Module

theorem Block.place_eq_nowhere_iff (b : Block) : b.place = .nowhere ↔ b.kind = .info := by
  cases hkind : b.kind with
  | constant c => by_cases hc : c.isLocal <;> simp [place, hkind, hc]
  | _ => simp [place, hkind]

/-- The name is declared in the module of a graph exactly where a block has the id. -/
theorem Graph.holdPort_mem_blockNames_iff (g : Graph) :
    Top.holdPort ∈ g.blockNames ↔ ∃ b ∈ g.blocks, b.id = Top.holdId ∧ b.kind ≠ .info := by
  simp only [blockNames, List.mem_map, List.mem_filter, decide_eq_true_eq, ne_eq,
    Block.place_eq_nowhere_iff, Top.ofId_eq_holdPort_iff]
  exact exists_congr fun b => and_right_comm.trans and_assoc

/-- No wire has the name. -/
theorem Graph.holdPort_not_mem_wireNames (g : Graph) : Top.holdPort ∉ g.wireNames := by
  intro h
  obtain ⟨x, _, hx⟩ := List.mem_map.mp h
  apply Identifier.ofId_ne_text Top.holdId (x.1.net_ne_name x.2)
  exact ((Top.ofId_eq_holdPort_iff _).mpr rfl).trans hx.symm

namespace Top

variable {t : Top} {s : Scope} {m : Module}

/-- What holds idle pins declares a port, and nothing in the body. -/
theorem innerNames_rendering (t : Top) :
    t.rendering.innerNames = (t.graph.rendering moduleName).innerNames := by
  have hhold : t.holdStatements.filterMap Statement.declaredName? = [] := by
    unfold holdStatements
    split <;> rfl
  simp only [Module.innerNames, rendering, Graph.rendering, Body.declaredNames,
    List.filterMap_append, hhold, List.append_nil]

theorem portNames_rendering (t : Top) : t.rendering.portNames =
    (t.graph.rendering moduleName).portNames ++ t.holdPorts.map Port.name := by
  simp only [Module.portNames, rendering, Graph.rendering, List.map_append, List.append_assoc]

theorem declaredNames_rendering_perm (t : Top) : t.rendering.declaredNames.Perm
    ((t.graph.rendering moduleName).declaredNames ++ t.holdPorts.map Port.name) := by
  refine t.rendering.declaredNames_perm_append.trans ?_
  rw [t.portNames_rendering, t.innerNames_rendering, List.append_assoc]
  refine (List.perm_append_comm.append_left _).trans ?_
  rw [← List.append_assoc]
  exact (Module.declaredNames_perm_append _).symm.append_right _

theorem map_name_holdPorts (t : Top) :
    t.holdPorts.map Port.name = if t.idlePins = [] then [] else [holdPort] := by
  rw [holdPorts]
  cases t.idlePins <;> rfl

/-- With blocks that have identifiers of their own, the ports of the main module have names of their
own unless pins are held while a block has the reserved id. -/
theorem portsApart_iff (hids : (t.graph.blocks.map fun b => Identifier.ofId b.id).Nodup)
    (h : t.toModule s = .ok m) :
    m.PortsApart ↔ t.idlePins = [] ∨ ∀ b ∈ t.graph.blocks, b.id = holdId → b.kind = .info := by
  obtain ⟨hresolves, rfl⟩ := (t.toModule_eq_ok_iff s m).mp h
  have hgraph := (t.graph.toModule_eq_ok_iff moduleName s _).mpr ⟨hresolves, rfl⟩
  have hnodup : (t.graph.rendering moduleName).declaredNames.Nodup :=
    (Graph.nodup_declaredNames_iff hgraph).mpr (hids.sublist (List.filter_sublist.map _))
  have hinner : t.rendering.innerNames.Nodup := by
    rw [t.innerNames_rendering]
    exact ((Module.nodup_declaredNames_iff_portsApart _).mp hnodup).2
  have hapart : t.rendering.PortsApart ↔ t.rendering.declaredNames.Nodup := by
    rw [Module.nodup_declaredNames_iff_portsApart, and_iff_left hinner]
  have hmem : holdPort ∈ (t.graph.rendering moduleName).declaredNames ↔
      ∃ b ∈ t.graph.blocks, b.id = holdId ∧ b.kind ≠ .info := by
    rw [(Graph.declaredNames_perm hgraph).mem_iff, List.mem_append,
      or_iff_left t.graph.holdPort_not_mem_wireNames, Graph.holdPort_mem_blockNames_iff]
  rw [hapart, t.declaredNames_rendering_perm.nodup_iff, t.map_name_holdPorts]
  split
  case isTrue hidle => simp [hidle, hnodup]
  case isFalse hidle =>
    rw [← List.concat_eq_append, List.nodup_concat, hmem, and_iff_left hnodup, or_iff_right hidle]
    push Not
    rfl

end Top

namespace Wiring

variable {g : Graph} {rs : List Request} {id : String}

/-- An id without an underscore is no numbered candidate. -/
theorem candidateId_eq_iff (hid : '_' ∉ id.toList) (name : String) (k : Nat) :
    Graph.candidateId name k = id ↔ name = id ∧ k = 0 := by
  cases k with
  | zero => simp [Graph.candidateId]
  | succ n =>
      simp only [Nat.succ_ne_zero, and_false, iff_false]
      rintro rfl
      exact hid (by simp [Graph.candidateId])

/-- An input is added under an id without an underscore exactly when no block has the id and an
input is added for a request with that name. -/
theorem exists_source_iff (hid : '_' ∉ id.toList) :
    (∃ c ∈ (ofRequests g rs).added, c.source = id) ↔
      id ∉ g.blocks.map Block.id ∧ ∃ c ∈ (ofRequests g rs).added, c.request.name = id := by
  constructor
  · rintro ⟨c, hc, rfl⟩
    obtain ⟨hmem, hadded⟩ := List.mem_filter.mp hc
    obtain ⟨g₁, hsource, _, _⟩ := exists_freeId_of_added hmem hadded
    obtain ⟨k, _, hk, _⟩ := g₁.freeId_eq_candidateId c.request.name
    have hname := ((candidateId_eq_iff hid _ k).mp (hk.symm.trans hsource.symm)).1
    exact ⟨source_not_mem_of_added hmem hadded, c, hc, hname⟩
  · rintro ⟨hfresh, c, hc, rfl⟩
    obtain ⟨hmem, hadded⟩ := List.mem_filter.mp hc
    obtain ⟨g₁, hsource, _, hafter⟩ := exists_freeId_of_added hmem hadded
    obtain ⟨k, _, hk, _, htaken⟩ := g₁.freeId_eq_candidateId c.request.name
    cases k with
    | zero => exact ⟨c, hc, hsource.trans hk⟩
    | succ n =>
        -- Some block had the name before this input, and it was not there at the start.
        obtain ⟨b, hb⟩ := Option.isSome_iff_exists.mp (htaken 0 n.succ_pos)
        obtain ⟨hb, hname⟩ := Graph.mem_of_block?_eq_some hb
        have hblock := hafter.subset hb
        rw [(extends_ofRequests g rs).blocks] at hblock
        rcases List.mem_append.mp hblock with hold | hnew
        · exact absurd (List.mem_map.mpr ⟨b, hold, hname⟩) hfresh
        · obtain ⟨d, hd, rfl⟩ := List.mem_map.mp hnew
          exact ⟨d, hd, hname⟩

/-- After requests, only information blocks have the id if that was so before them, and no input was
added under the id. -/
theorem forall_info_ofRequests_iff (hid : '_' ∉ id.toList) :
    (∀ b ∈ (ofRequests g rs).graph.blocks, b.id = id → b.kind = .info) ↔
      (∀ b ∈ g.blocks, b.id = id → b.kind = .info) ∧
        (id ∈ g.blocks.map Block.id ∨ ∀ c ∈ (ofRequests g rs).added, c.request.name ≠ id) := by
  have hinputs : (∀ b ∈ (ofRequests g rs).added.map DefaultBinding.input,
      b.id = id → b.kind = .info) ↔ ¬ ∃ c ∈ (ofRequests g rs).added, c.source = id := by
    simp [DefaultBinding.input]
  rw [(extends_ofRequests g rs).blocks, List.forall_mem_append]
  refine and_congr_right fun _ => hinputs.trans ?_
  rw [exists_source_iff hid, not_and_or, not_not]
  simp

end Wiring

namespace Project

/-- Where the blocks of the top circuit have identifiers of their own, the ports of the main module
have names of their own exactly when no pin is held, or nothing but information has the id `init`:
no block of the design, and no input that is added for a request. A request that asks for this name
gets it unless the design has an information block under it. -/
theorem hold_port_apart_iff {p : Project} {o : Options} {rules : BoardRules} {top : Top}
    {ms : List Module} (htop : Top.ofProject p o rules = .ok top)
    (hids : (top.graph.blocks.map fun b => Identifier.ofId b.id).Nodup)
    (h : p.modules o rules = .ok ms) :
    ∃ main rest rs, ms = main :: rest ∧ main.name = Top.moduleName ∧
      p.graph.topRequests o (Scope.root p) = .ok rs ∧
      (main.PortsApart ↔ p.graph.topIdlePins o rules = [] ∨
        (∀ b ∈ p.graph.blocks, b.id = "init" → b.kind = .info) ∧
          ("init" ∈ p.graph.blocks.map Block.id ∨
            ∀ c ∈ (Wiring.ofRequests p.graph rs).added, c.request.name ≠ "init")) := by
  obtain ⟨top₁, main, visits, hcompiled⟩ := (Hierarchy.modules_eq_ok_iff p o rules ms).mp h
  obtain ⟨top₂, rest, htop₂, hrest⟩ := exists_rendering h
  obtain rfl := Except.ok.inj (htop.symm.trans hcompiled.top_eq)
  obtain rfl := Except.ok.inj (htop.symm.trans htop₂)
  obtain ⟨_, rfl⟩ := (top.toModule_eq_ok_iff _ main).mp hcompiled.main_eq
  obtain ⟨rs, hrs, hgraph, hidle⟩ := Top.exists_ofRequests htop
  refine ⟨top.rendering, rest, rs, hrest, rfl, hrs, ?_⟩
  have hunderscore : '_' ∉ Top.holdId.toList := by decide
  rw [Top.portsApart_iff hids hcompiled.main_eq, hidle, hgraph,
    Wiring.forall_info_ofRequests_iff hunderscore]
  rfl

/-- An information block with the reserved id, and a code block that asks for an input of that
name. -/
def notedInit : Project where
  design := { graph := {
    blocks := [⟨"init", .info⟩, ⟨"o", .output (.onPin "led" "95")⟩,
      ⟨"c", .code { inputs := [⟨"a", none, some ⟨"init", "21", true⟩⟩] }⟩]
    wires := [{ source := ⟨"c", "q"⟩, target := ⟨"o", "in"⟩ }] } }
  library := []

/-- The input is added under another id, and two pins are held. -/
theorem hold_port_apart_iff_notedInit : ∃ top main rest,
    Top.ofProject notedInit { boardRules := true } threePins = .ok top ∧
    (top.graph.blocks.map fun b => Identifier.ofId b.id).Nodup ∧
    notedInit.modules { boardRules := true } threePins = .ok (main :: rest) ∧
    main.portNames = ["vinit_1", "vo", "vinit"] ∧ main.PortsApart := by
  obtain ⟨top, htop, hids⟩ : ∃ top,
      Top.ofProject notedInit { boardRules := true } threePins = .ok top ∧
      (top.graph.blocks.map fun b => Identifier.ofId b.id).Nodup := ⟨_, rfl, by decide +kernel⟩
  obtain ⟨main, rest, hms, hports⟩ : ∃ main rest,
      notedInit.modules { boardRules := true } threePins = .ok (main :: rest) ∧
      main.portNames = ["vinit_1", "vo", "vinit"] := ⟨_, _, rfl, by decide +kernel⟩
  obtain ⟨main, rest, rs, hmain, _, _, hapart⟩ := hold_port_apart_iff htop hids hms
  obtain ⟨rfl, rfl⟩ := List.cons.inj hmain
  exact ⟨top, _, _, htop, hids, hms, hports, hapart.mpr (Or.inr ⟨by decide, Or.inl (by decide)⟩)⟩

/-- An output with the reserved id. -/
def initOutput : Project where
  design := { graph := { blocks := [⟨"init", .output (.onPin "led" "95")⟩] } }
  library := []

/-- Two ports of the main module have one name, and so do two lines of the constraints. -/
theorem ports_clash_initOutput : ∃ top main rest,
    Top.ofProject initOutput { boardRules := true } { outputs := [⟨"96", "0"⟩] } = .ok top ∧
    (top.graph.blocks.map fun b => Identifier.ofId b.id).Nodup ∧
    initOutput.modules { boardRules := true } { outputs := [⟨"96", "0"⟩] } = .ok (main :: rest) ∧
    main.portNames = ["vinit", "vinit"] ∧ ¬ main.PortsApart ∧
    initOutput.constraints { boardRules := true } { outputs := [⟨"96", "0"⟩] } =
      .ok ("set_io vinit 95\n" ++ "set_io vinit 96\n") := by
  refine ⟨_, _, _, rfl, by decide +kernel, rfl, by decide +kernel, ?_, by decide +kernel⟩
  intro h
  exact absurd h.distinct (by decide +kernel)

end Project

end Schematic
