import Schematic.Netlist.FanOut

/-!
# Roots of a fan-out

The table of first wires that is carried along the wires computes, for every signal wire, the
position of the earliest signal wire that leaves the same port. All later facts about roots are
read off this one equation.
-/

namespace Schematic

/-- The wire carries a signal that starts at the port. -/
def Wire.leaves (w : Wire) (e : Endpoint) : Bool := !w.isFeed && w.source == e

theorem Wire.leaves_iff (w : Wire) (e : Endpoint) :
    w.leaves e = true ↔ w.isFeed = false ∧ w.source = e := by
  simp [Wire.leaves]

namespace Graph

/-- The position of the first signal wire that leaves a port. -/
def firstFrom (g : Graph) (e : Endpoint) : Nat := g.wires.findIdx (·.leaves e)

theorem getElem?_rootsFrom (firsts : List (Endpoint × Nat)) (i k : Nat) (ws : List Wire) :
    (rootsFrom firsts i ws)[k]? = ws[k]?.map fun w =>
      if w.isFeed then i + k
      else (firsts.lookup w.source).getD (i + ws.findIdx (·.leaves w.source)) := by
  induction ws generalizing firsts i k with
  | nil => simp [rootsFrom]
  | cons w rest ih =>
      cases k with
      | zero =>
          cases hf : w.isFeed with
          | true => simp [rootsFrom, hf]
          | false =>
              cases hl : firsts.lookup w.source with
              | some root => simp [rootsFrom, hf, hl]
              | none => simp [rootsFrom, hf, hl, List.findIdx_cons, Wire.leaves]
      | succ k =>
          -- the head changes the table only for its own source, and only when it is a new one
          have hstep (firsts' : List (Endpoint × Nat))
              (hfirsts : ∀ v : Wire, v.isFeed = false →
                (firsts'.lookup v.source).getD (i + 1 + rest.findIdx (·.leaves v.source)) =
                  (firsts.lookup v.source).getD
                    (i + (w :: rest).findIdx (·.leaves v.source))) :
              (rootsFrom firsts' (i + 1) rest)[k]? = rest[k]?.map fun v =>
                if v.isFeed then i + (k + 1)
                else (firsts.lookup v.source).getD
                  (i + (w :: rest).findIdx (·.leaves v.source)) := by
            rw [ih]
            congr 1
            funext v
            cases hv : v.isFeed with
            | true => simp; omega
            | false => simpa [hv] using hfirsts v hv
          have hskip (v : Wire) (h : w.leaves v.source = false) :
              i + 1 + rest.findIdx (·.leaves v.source) =
                i + (w :: rest).findIdx (·.leaves v.source) := by
            rw [List.findIdx_cons, h]
            simp only [cond_false]
            omega
          cases hf : w.isFeed with
          | true =>
              simp only [rootsFrom, hf, if_true, List.getElem?_cons_succ]
              apply hstep
              intro v _
              rw [hskip v (by simp [Wire.leaves, hf])]
          | false =>
              cases hl : firsts.lookup w.source with
              | some root =>
                  simp only [rootsFrom, hf, hl, List.getElem?_cons_succ]
                  apply hstep
                  intro v _
                  by_cases hv : v.source = w.source
                  · simp [hv, hl]
                  · rw [hskip v (by simp [Wire.leaves, Ne.symm hv])]
              | none =>
                  simp only [rootsFrom, hf, hl, List.getElem?_cons_succ]
                  apply hstep
                  intro v _
                  by_cases hv : v.source = w.source
                  · simp [hv, hl, List.findIdx_cons, Wire.leaves, hf]
                  · have hne : (v.source == w.source) = false := by simpa using hv
                    rw [List.lookup_cons, hne, hskip v (by simp [Wire.leaves, Ne.symm hv])]

/-- A wire that feeds a constant is its own root; the root of a signal wire is the first signal
wire from the same port. -/
theorem getElem?_roots (g : Graph) (i : Nat) :
    g.roots[i]? = g.wires[i]?.map fun w => if w.isFeed then i else g.firstFrom w.source := by
  simp [roots, getElem?_rootsFrom, firstFrom]

theorem getElem?_roots_signal {g : Graph} {i : Nat} {w : Wire} (hw : g.wires[i]? = some w)
    (hs : w.isFeed = false) : g.roots[i]? = some (g.firstFrom w.source) := by
  simp [getElem?_roots, hw, hs]

/-- The first signal wire from the port of a signal wire exists, and leaves that port. -/
theorem getElem?_firstFrom {g : Graph} {w : Wire} (hw : w ∈ g.wires) (hs : w.isFeed = false) :
    ∃ v, g.wires[g.firstFrom w.source]? = some v ∧ v.isFeed = false ∧ v.source = w.source := by
  have hlt : g.firstFrom w.source < g.wires.length :=
    List.findIdx_lt_length_of_exists ⟨w, hw, by simp [Wire.leaves, hs]⟩
  have hleaves : (g.wires[g.firstFrom w.source]).leaves w.source = true :=
    List.findIdx_getElem (w := hlt)
  obtain ⟨hv, hsource⟩ := (Wire.leaves_iff _ _).mp hleaves
  exact ⟨_, List.getElem?_eq_getElem hlt, hv, hsource⟩

/-- No signal wire leaves a port before the first one. -/
theorem firstFrom_le {g : Graph} {i : Nat} {w : Wire} (hw : g.wires[i]? = some w)
    (hs : w.isFeed = false) : g.firstFrom w.source ≤ i := by
  obtain ⟨hi, rfl⟩ := List.getElem?_eq_some_iff.mp hw
  refine Nat.le_of_not_lt fun hlt => ?_
  have hnot := List.not_of_lt_findIdx hlt
  simp [Wire.leaves, hs] at hnot

/-- A root is its own root. -/
theorem getElem?_roots_firstFrom {g : Graph} {w : Wire} (hw : w ∈ g.wires)
    (hs : w.isFeed = false) : g.roots[g.firstFrom w.source]? = some (g.firstFrom w.source) := by
  obtain ⟨v, hv, hvs, hsource⟩ := getElem?_firstFrom hw hs
  rw [getElem?_roots_signal hv hvs, hsource]

end Graph

end Schematic
