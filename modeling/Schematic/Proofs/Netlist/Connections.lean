import Schematic.Netlist.Connections

/-!
# Connected ports of an instance

Ports are connected on first contact. A port of a block is therefore connected exactly when it has
a name and some wire meets it, and it is connected to the first such wire.
-/

namespace Schematic

/-- A wire meets a port where it starts, and where its signal ends. -/
theorem Wire.mem_portsAt (w : Wire) (id port : String) :
    port ∈ w.portsAt id ↔
      w.source = ⟨id, port⟩ ∨ w.isFeed = false ∧ w.target = ⟨id, port⟩ := by
  rcases w with ⟨⟨sourceBlock, sourcePort⟩, ⟨targetBlock, targetPort⟩, size⟩
  simp only [Wire.portsAt, List.mem_append, List.mem_ite_nil_right, List.mem_singleton,
    Endpoint.mk.injEq]
  constructor
  · rintro (⟨hb, hp⟩ | ⟨⟨hb, hs⟩, hp⟩)
    · exact Or.inl ⟨hb, hp.symm⟩
    · exact Or.inr ⟨hs, hb, hp.symm⟩
  · rintro (⟨hb, hp⟩ | ⟨hs, hb, hp⟩)
    · exact Or.inl ⟨hb, hp.symm⟩
    · exact Or.inr ⟨⟨hb, hs⟩, hp.symm⟩

theorem mem_connect (i j : Nat) (bound : List (String × Nat)) (port p : String) :
    (p, j) ∈ connect i bound port ↔
      (p, j) ∈ bound ∨ p ≠ "" ∧ p ∉ bound.map (·.1) ∧ p = port ∧ j = i := by
  unfold connect
  split
  case isTrue h =>
    constructor
    · exact Or.inl
    · rintro (hm | ⟨hp, hbound, rfl, rfl⟩)
      · exact hm
      · exact absurd h (by simp only [not_or]; exact ⟨hp, hbound⟩)
  case isFalse h =>
    obtain ⟨hname, hbound⟩ := not_or.mp h
    simp only [List.mem_append, List.mem_singleton, Prod.mk.injEq]
    constructor
    · rintro (hm | ⟨rfl, rfl⟩)
      · exact Or.inl hm
      · exact Or.inr ⟨hname, hbound, rfl, rfl⟩
    · rintro (hm | ⟨_, _, hp, hj⟩)
      · exact Or.inl hm
      · exact Or.inr ⟨hp, hj⟩

theorem mem_map_fst_iff (bound : List (String × Nat)) (p : String) :
    p ∈ bound.map (·.1) ↔ ∃ j, (p, j) ∈ bound := by
  simp

/-- One wire: the ports it meets are connected to it unless they were connected before. -/
theorem mem_foldl_connect (i j : Nat) (ports : List String) (bound : List (String × Nat))
    (p : String) :
    (p, j) ∈ ports.foldl (connect i) bound ↔
      (p, j) ∈ bound ∨ p ≠ "" ∧ p ∉ bound.map (·.1) ∧ p ∈ ports ∧ j = i := by
  induction ports generalizing bound with
  | nil => simp
  | cons port rest ih =>
      rw [List.foldl_cons, ih, mem_connect, mem_map_fst_iff]
      simp only [mem_connect, List.mem_cons, mem_map_fst_iff]
      constructor
      · rintro ((hm | ⟨hp, hb, rfl, rfl⟩) | ⟨hp, hb, hrest, rfl⟩)
        · exact Or.inl hm
        · exact Or.inr ⟨hp, hb, Or.inl rfl, rfl⟩
        · exact Or.inr ⟨hp, fun ⟨k, hk⟩ => hb ⟨k, Or.inl hk⟩, Or.inr hrest, rfl⟩
      · rintro (hm | ⟨hp, hb, hport, rfl⟩)
        · exact Or.inl (Or.inl hm)
        · by_cases heq : p = port
          · exact Or.inl (Or.inr ⟨hp, hb, heq, rfl⟩)
          · refine Or.inr ⟨hp, ?_, hport.resolve_left heq, rfl⟩
            rintro ⟨k, hk | ⟨_, _, hk, _⟩⟩
            · exact hb ⟨k, hk⟩
            · exact heq hk

theorem nodup_connect (i : Nat) (bound : List (String × Nat)) (port : String)
    (h : (bound.map (·.1)).Nodup) : ((connect i bound port).map (·.1)).Nodup := by
  unfold connect
  split
  · exact h
  · rename_i hport
    rw [List.map_append, List.map_singleton]
    refine List.nodup_append.mpr ⟨h, by simp, ?_⟩
    intro a ha b hb hab
    have hb : b = port := List.mem_singleton.mp hb
    exact hport (Or.inr (hb ▸ hab ▸ ha))

namespace Graph

/-- The connections made by wires from position `n` on. -/
theorem mem_foldl_portsAt (id : String) (ws : List Wire) (n i : Nat)
    (bound : List (String × Nat)) (p : String) :
    (p, i) ∈ (ws.zipIdx n).foldl (fun b wi => (wi.1.portsAt id).foldl (connect wi.2) b) bound ↔
      (p, i) ∈ bound ∨ p ≠ "" ∧ p ∉ bound.map (·.1) ∧
        ∃ k, ws.findIdx? (fun w => decide (p ∈ w.portsAt id)) = some k ∧ i = n + k := by
  induction ws generalizing bound n with
  | nil => simp
  | cons w rest ih =>
      rw [List.zipIdx_cons, List.foldl_cons, ih, mem_foldl_connect, mem_map_fst_iff]
      simp only [mem_foldl_connect, mem_map_fst_iff, List.findIdx?_cons]
      by_cases hw : p ∈ w.portsAt id
      · simp only [hw, decide_true, if_true, true_and, Option.some.injEq]
        constructor
        · rintro ((hm | ⟨hp, hb, rfl⟩) | ⟨hp, hb, _⟩)
          · exact Or.inl hm
          · exact Or.inr ⟨hp, hb, 0, rfl, rfl⟩
          · have hbound : ¬ ∃ j, (p, j) ∈ bound := fun ⟨k, hk⟩ => hb ⟨k, Or.inl hk⟩
            exact absurd ⟨n, Or.inr ⟨hp, hbound, rfl⟩⟩ hb
        · rintro (hm | ⟨hp, hb, k, rfl, rfl⟩)
          · exact Or.inl (Or.inl hm)
          · exact Or.inl (Or.inr ⟨hp, hb, rfl⟩)
      · simp only [hw, decide_false, Bool.false_eq_true, if_false, false_and, and_false, or_false,
          Option.map_eq_some_iff]
        constructor
        · rintro (hm | ⟨hp, hb, k, hk, rfl⟩)
          · exact Or.inl hm
          · exact Or.inr ⟨hp, hb, k + 1, ⟨k, hk, rfl⟩, by omega⟩
        · rintro (hm | ⟨hp, hb, _, ⟨k, hk, rfl⟩, rfl⟩)
          · exact Or.inl hm
          · exact Or.inr ⟨hp, hb, k, hk, by omega⟩

/-- A port with a name is connected to the first wire that meets it. -/
theorem mem_connections_iff (g : Graph) (id p : String) (i : Nat) :
    (p, i) ∈ g.connections id ↔
      p ≠ "" ∧ g.wires.findIdx? (fun w => decide (p ∈ w.portsAt id)) = some i := by
  simp [connections, indexedWires, mem_foldl_portsAt, and_comm]

/-- The wire of a connection meets the port. -/
theorem exists_wire_of_mem_connections {g : Graph} {id p : String} {i : Nat}
    (h : (p, i) ∈ g.connections id) :
    p ≠ "" ∧ ∃ w, g.wires[i]? = some w ∧ p ∈ w.portsAt id := by
  obtain ⟨hp, hi⟩ := (mem_connections_iff g id p i).mp h
  obtain ⟨hlt, hw, _⟩ := List.findIdx?_eq_some_iff_getElem.mp hi
  exact ⟨hp, g.wires[i], List.getElem?_eq_getElem hlt, of_decide_eq_true hw⟩

/-- A wire that is the first to meet a port with a name is connected to it. -/
theorem mem_connections_of_first {g : Graph} {id p : String} {i : Nat} {w : Wire} (hp : p ≠ "")
    (hw : g.wires[i]? = some w) (hmeet : p ∈ w.portsAt id)
    (hfirst : ∀ j v, j < i → g.wires[j]? = some v → p ∉ v.portsAt id) :
    (p, i) ∈ g.connections id := by
  obtain ⟨hi, rfl⟩ := List.getElem?_eq_some_iff.mp hw
  refine (mem_connections_iff g id p i).mpr
    ⟨hp, List.findIdx?_eq_some_iff_getElem.mpr ⟨hi, decide_eq_true hmeet, ?_⟩⟩
  intro j hj
  have hv := hfirst j _ hj (List.getElem?_eq_getElem (Nat.lt_trans hj hi))
  simpa using hv

/-- A port with a name that a wire meets is connected, to that wire or to an earlier one. -/
theorem exists_mem_connections {g : Graph} {id p : String} {i : Nat} {w : Wire} (hp : p ≠ "")
    (hw : g.wires[i]? = some w) (hmeet : p ∈ w.portsAt id) :
    ∃ j ≤ i, (p, j) ∈ g.connections id := by
  obtain ⟨hi, rfl⟩ := List.getElem?_eq_some_iff.mp hw
  cases hfirst : g.wires.findIdx? fun w => decide (p ∈ w.portsAt id) with
  | none =>
      have hnot := List.findIdx?_eq_none_iff.mp hfirst _ (List.getElem_mem hi)
      simp [hmeet] at hnot
  | some j =>
      refine ⟨j, ?_, (mem_connections_iff g id p j).mpr ⟨hp, hfirst⟩⟩
      obtain ⟨_, _, hbefore⟩ := List.findIdx?_eq_some_iff_getElem.mp hfirst
      refine Nat.le_of_not_lt fun hlt => ?_
      have hnot := hbefore i hlt
      simp [hmeet] at hnot

/-- No wire before that of a connection meets the port. -/
theorem not_meet_of_lt {g : Graph} {id p : String} {i j : Nat} {v : Wire}
    (h : (p, i) ∈ g.connections id) (hj : j < i) (hv : g.wires[j]? = some v) :
    p ∉ v.portsAt id := by
  obtain ⟨_, hi⟩ := (mem_connections_iff g id p i).mp h
  obtain ⟨_, _, hbefore⟩ := List.findIdx?_eq_some_iff_getElem.mp hi
  obtain ⟨_, rfl⟩ := List.getElem?_eq_some_iff.mp hv
  simpa using hbefore j hj

/-- No port is connected twice. -/
theorem nodup_connections (g : Graph) (id : String) : ((g.connections id).map (·.1)).Nodup := by
  have hports (i : Nat) (ports : List String) (bound : List (String × Nat))
      (h : (bound.map (·.1)).Nodup) : ((ports.foldl (connect i) bound).map (·.1)).Nodup := by
    induction ports generalizing bound with
    | nil => exact h
    | cons port rest ih => exact ih _ (nodup_connect i bound port h)
  have hwires (wis : List (Wire × Nat)) (bound : List (String × Nat))
      (h : (bound.map (·.1)).Nodup) :
      ((wis.foldl (fun b wi => (wi.1.portsAt id).foldl (connect wi.2) b) bound).map
        (·.1)).Nodup := by
    induction wis generalizing bound with
    | nil => exact h
    | cons wi rest ih => exact ih _ (hports _ _ bound h)
  exact hwires g.indexedWires [] List.nodup_nil

end Graph

end Schematic
