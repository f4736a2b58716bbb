import Schematic.Proofs.Netlist.FanOut
import Mathlib.Data.Finset.Card
import Mathlib.Data.Finset.Image
import Mathlib.Order.Bounds.Basic

/-!
# Roots and sources

The single pass that finds the roots of all wires agrees with a search through all wires for each of
them. So roots stand for sources: wires share a root exactly when they leave the same port, and
there are as many roots of signals as there are ports that signals leave.
-/

namespace Schematic.Graph

/-- The positions of the signal wires that leave a port. -/
def positionsFrom (g : Graph) (e : Endpoint) : Set Nat :=
  {j | ∃ v, g.wires[j]? = some v ∧ v.isFeed = false ∧ v.source = e}

/-- The first signal wire from a port that signals leave is the least of them. -/
theorem isLeast_firstFrom {g : Graph} {w : Wire} (hw : w ∈ g.wires) (hs : w.isFeed = false) :
    IsLeast (g.positionsFrom w.source) (g.firstFrom w.source) := by
  refine ⟨getElem?_firstFrom hw hs, ?_⟩
  rintro j ⟨v, hv, hvs, hsource⟩
  rw [← hsource]
  exact firstFrom_le hv hvs

/-- Signal wires with one root leave one port: the root leaves it. -/
theorem source_eq_of_firstFrom_eq {g : Graph} {v w : Wire} (hv : v ∈ g.wires) (hw : w ∈ g.wires)
    (hvs : v.isFeed = false) (hws : w.isFeed = false)
    (h : g.firstFrom v.source = g.firstFrom w.source) : v.source = w.source := by
  obtain ⟨x, hx, _, hxv⟩ := getElem?_firstFrom hv hvs
  obtain ⟨y, hy, _, hyw⟩ := getElem?_firstFrom hw hws
  obtain rfl : x = y := Option.some.inj (hx.symm.trans (h ▸ hy))
  exact hxv.symm.trans hyw

section Counting

/-- The ports that the signal wires leave, one for each wire. -/
def signalSources (g : Graph) : List Endpoint :=
  (g.wires.filter fun w => !w.isFeed).map Wire.source

/-- The roots of the signal wires, one for each wire. -/
def signalRoots (g : Graph) : List Nat :=
  ((g.wires.zip g.roots).filter fun wr => !wr.1.isFeed).map Prod.snd

variable {g : Graph}

theorem mem_signalSources_iff {e : Endpoint} :
    e ∈ g.signalSources ↔ ∃ w ∈ g.wires, w.isFeed = false ∧ w.source = e := by
  simp [signalSources, and_assoc]

theorem mem_signalRoots_iff {r : Nat} : r ∈ g.signalRoots ↔ ∃ (i : Nat) (w : Wire),
    g.wires[i]? = some w ∧ w.isFeed = false ∧ g.roots[i]? = some r := by
  simp only [signalRoots, List.mem_map, List.mem_filter, Prod.exists, Bool.not_eq_true']
  constructor
  · rintro ⟨w, r, ⟨hmem, hs⟩, rfl⟩
    obtain ⟨i, hi⟩ := List.mem_iff_getElem?.mp hmem
    obtain ⟨hw, hr⟩ := List.getElem?_zip_eq_some.mp hi
    exact ⟨i, w, hw, hs, hr⟩
  · rintro ⟨i, w, hw, hs, hr⟩
    have hi : (g.wires.zip g.roots)[i]? = some (w, r) := List.getElem?_zip_eq_some.mpr ⟨hw, hr⟩
    exact ⟨w, r, ⟨List.mem_of_getElem? hi, hs⟩, rfl⟩

/-- The roots of the signal wires are the first wires from the ports that these leave. -/
theorem toFinset_signalRoots (g : Graph) :
    g.signalRoots.toFinset = g.signalSources.toFinset.image g.firstFrom := by
  ext r
  simp only [List.mem_toFinset, Finset.mem_image, mem_signalRoots_iff, mem_signalSources_iff]
  constructor
  · rintro ⟨i, w, hw, hs, hr⟩
    rw [getElem?_roots_signal hw hs] at hr
    exact ⟨w.source, ⟨w, List.mem_of_getElem? hw, hs, rfl⟩, Option.some.inj hr⟩
  · rintro ⟨_, ⟨w, hmem, hs, rfl⟩, rfl⟩
    obtain ⟨i, hw⟩ := List.mem_iff_getElem?.mp hmem
    exact ⟨i, w, hw, hs, getElem?_roots_signal hw hs⟩

/-- There are as many roots of signals as there are ports that signals leave. -/
theorem card_signalRoots (g : Graph) :
    g.signalRoots.toFinset.card = g.signalSources.toFinset.card := by
  rw [toFinset_signalRoots]
  apply Finset.card_image_of_injOn
  intro e he f hf hef
  obtain ⟨v, hv, hvs, rfl⟩ := mem_signalSources_iff.mp (List.mem_toFinset.mp he)
  obtain ⟨w, hw, hws, rfl⟩ := mem_signalSources_iff.mp (List.mem_toFinset.mp hf)
  exact source_eq_of_firstFrom_eq hv hw hvs hws hef

end Counting

/-- Every wire has a root, no later than itself, which is its own root: itself if it feeds a
constant, and otherwise the least position of a signal wire from the same port. Signal wires have
the same root exactly when they leave the same port, and there are as many different roots of signal
wires as different ports that they leave. -/
theorem roots_eq_least (g : Graph) :
    g.roots.length = g.wires.length ∧
    (∀ (i : Nat) (w : Wire), g.wires[i]? = some w → ∃ r, g.roots[i]? = some r ∧
      (if w.isFeed then r = i else IsLeast (g.positionsFrom w.source) r) ∧
      r ≤ i ∧ g.roots[r]? = some r) ∧
    (∀ (i j : Nat) (v w : Wire), g.wires[i]? = some v → g.wires[j]? = some w →
      v.isFeed = false → w.isFeed = false → (g.roots[i]? = g.roots[j]? ↔ v.source = w.source)) ∧
    g.signalRoots.toFinset.card = g.signalSources.toFinset.card := by
  refine ⟨g.length_roots, ?_, ?_, g.card_signalRoots⟩
  · intro i w hw
    cases hf : w.isFeed with
    | true =>
        have hroot : g.roots[i]? = some i := by simp [getElem?_roots, hw, hf]
        exact ⟨i, hroot, by simp, le_rfl, hroot⟩
    | false =>
        have hmem : w ∈ g.wires := List.mem_of_getElem? hw
        refine ⟨g.firstFrom w.source, getElem?_roots_signal hw hf, ?_, firstFrom_le hw hf,
          getElem?_roots_firstFrom hmem hf⟩
        simpa using isLeast_firstFrom hmem hf
  · intro i j v w hv hw hvs hws
    rw [getElem?_roots_signal hv hvs, getElem?_roots_signal hw hws, Option.some.injEq]
    constructor
    · exact source_eq_of_firstFrom_eq (List.mem_of_getElem? hv) (List.mem_of_getElem? hw) hvs hws
    · intro hsource
      rw [hsource]

/-- Signals that leave two ports, with constants fed from one of the blocks in between. -/
def interleaved : Graph where
  wires := [{ source := ⟨"a", "out"⟩, target := ⟨"x", "in"⟩ },
    { source := ⟨"a", "constant-out"⟩, target := ⟨"u", "N"⟩ },
    { source := ⟨"b", "out"⟩, target := ⟨"y", "in"⟩ },
    { source := ⟨"a", "out"⟩, target := ⟨"z", "in"⟩ },
    { source := ⟨"a", "constant-out"⟩, target := ⟨"u", "M"⟩ }]

theorem roots_eq_least_interleaved :
    interleaved.roots = [0, 1, 2, 0, 4] ∧
    IsLeast (interleaved.positionsFrom ⟨"a", "out"⟩) 0 ∧
    (interleaved.roots[0]? = interleaved.roots[3]?) ∧
    interleaved.signalRoots.toFinset.card = 2 := by
  obtain ⟨_, hroot, hsame, hcard⟩ := roots_eq_least interleaved
  obtain ⟨r, hr, hleast, _⟩ := hroot 3 _ rfl
  obtain rfl : 0 = r := Option.some.inj hr
  refine ⟨rfl, hleast, (hsame 0 3 _ _ rfl rfl rfl rfl).mpr rfl, ?_⟩
  rw [hcard]
  decide

end Schematic.Graph
