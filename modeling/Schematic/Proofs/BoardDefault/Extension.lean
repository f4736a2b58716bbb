import Schematic.Proofs.BoardDefault.Settled
import Mathlib.Data.Finset.Card
import Mathlib.Data.List.Induction

/-!
# What a run of requests adds

A run of requests leaves the graph as it was and appends to it. For each request that is the first
for its port, and whose port had no driver, there is one wire; and for each pin that no input of the
graph supplies there is one input, added for the first of these requests that asks for the pin. All
requests for a pin share one source.
-/

namespace Schematic

/-- Requests for the same port. -/
def Request.samePort (q r : Request) : Bool := q.endpoint == r.endpoint

/-- The first request for each port that has no driver. -/
def Graph.firstRequests (g : Graph) (rs : List Request) : List Request :=
  (rs.filter fun r => !g.isDriven r.endpoint).eraseDupsBy Request.samePort

namespace DefaultBinding

def pin (b : DefaultBinding) : String := b.request.pin

/-- The wire from the source of a binding to its port. -/
def wire (b : DefaultBinding) : Wire where
  source := ⟨b.source, "out"⟩
  target := ⟨b.request.block, b.request.port⟩

/-- An input on the single pin that a binding asks for. -/
def input (b : DefaultBinding) : Block where
  id := b.source
  kind := .input {
    name := some b.request.name
    range := none
    pins := [⟨"0", b.request.pin⟩]
    isVirtual := false
    preset := none }

theorem suppliesPin_input (b : DefaultBinding) (pin : String) :
    b.input.suppliesPin pin = true ↔ b.pin = pin := by
  simp [Block.suppliesPin, Block.input?, input, Terminal.solePin, DefaultBinding.pin]

end DefaultBinding

section FirstOnes

/-- Keeping the first of alike things, the last one of a list stays when nothing that was kept is
alike. -/
theorem eraseDupsBy_concat {α : Type} (alike : α → α → Bool) (l : List α) (a : α) :
    (l ++ [a]).eraseDupsBy alike =
      if (l.eraseDupsBy alike).any (alike a) then l.eraseDupsBy alike
      else l.eraseDupsBy alike ++ [a] := by
  have hloop (kept : List α) : List.eraseDupsBy.loop alike (l ++ [a]) kept =
      if (List.eraseDupsBy.loop alike l kept).any (alike a) then List.eraseDupsBy.loop alike l kept
      else List.eraseDupsBy.loop alike l kept ++ [a] := by
    induction l generalizing kept with
    | nil =>
        simp only [List.nil_append, List.eraseDupsBy.loop, List.any_reverse]
        cases kept.any (alike a) <;> simp
    | cons b rest ih =>
        rw [List.cons_append, List.eraseDupsBy.loop, List.eraseDupsBy.loop]
        split
        · exact ih kept
        · exact ih (b :: kept)
  exact hloop []

end FirstOnes

namespace Wiring

theorem ofRequests_concat (g : Graph) (rs : List Request) (r : Request) :
    ofRequests g (rs ++ [r]) = (ofRequests g rs).meet r := by
  rw [ofRequests, List.foldl_append]
  rfl

/-- The bindings for which an input was added, in order. -/
def added (w : Wiring) : List DefaultBinding := w.bindings.filter DefaultBinding.added

/-- All that meeting a request can do to a wiring. -/
theorem meet_cases (w : Wiring) (r : Request) :
    (w.graph.isDriven r.endpoint = true ∧ (w.meet r).graph = w.graph ∧
      (w.meet r).bindings = w.bindings) ∨
    (w.graph.isDriven r.endpoint = false ∧ ∃ b : DefaultBinding, b.request = r ∧
      (w.meet r).bindings = w.bindings ++ [b] ∧
      (w.meet r).graph.wires = w.graph.wires ++ [b.wire] ∧
      ((b.added = false ∧ (w.meet r).graph.blocks = w.graph.blocks ∧
          ∃ s others, w.graph.suppliers r.pin = s :: others ∧ b.source = s.id) ∨
        (b.added = true ∧ (w.meet r).graph.blocks = w.graph.blocks ++ [b.input] ∧
          w.graph.suppliers r.pin = [] ∧ b.source = w.graph.freeId r.name))) := by
  have hbindings : (w.meet r).bindings = w.bindings ++ (plan w.graph r).binding?.toList := by
    cases h : (plan w.graph r).binding? <;> simp [meet, bindings, h]
  rw [hbindings, meet]
  rcases plan_cases w.graph r with ⟨hd, hplan⟩ | ⟨hd, s, others, hs, hplan⟩ | ⟨hd, hs, hplan⟩
  · rw [hplan]
    exact Or.inl ⟨hd, rfl, List.append_nil _⟩
  · rw [hplan]
    exact Or.inr ⟨hd, ⟨r, s.id, false⟩, rfl, rfl, rfl, Or.inl ⟨rfl, rfl, s, others, hs, rfl⟩⟩
  · rw [hplan]
    exact Or.inr ⟨hd, ⟨r, w.graph.freeId r.name, true⟩, rfl, rfl, rfl, Or.inr ⟨rfl, rfl, hs, rfl⟩⟩

/-- A wiring extends a graph by what requests ask for, and by nothing else. -/
structure Extends (g : Graph) (rs : List Request) (w : Wiring) : Prop where
  /-- The blocks of the graph come first, then one input for each binding that added one. -/
  blocks : w.graph.blocks = g.blocks ++ w.added.map DefaultBinding.input
  /-- The wires of the graph come first, then one for each binding. -/
  wires : w.graph.wires = g.wires ++ w.bindings.map DefaultBinding.wire
  requests : w.bindings.map DefaultBinding.request = g.firstRequests rs
  /-- An input is added for the first binding on a pin that the graph does not supply. -/
  added_iff : ∀ i b, w.bindings[i]? = some b →
    (b.added = true ↔ g.suppliers b.pin = [] ∧ ∀ c ∈ w.bindings.take i, c.pin ≠ b.pin)
  /-- Bindings on one pin have one source. -/
  source : ∀ b ∈ w.bindings, ∀ c ∈ w.bindings, b.pin = c.pin → b.source = c.source
  /-- The first input of the graph on a pin is the source of all bindings on it. -/
  supplier : ∀ b ∈ w.bindings, ∀ s ∈ (g.suppliers b.pin).head?, b.source = s.id

namespace Extends

variable {g : Graph} {rs : List Request} {w : Wiring}

theorem isDriven_iff (h : Extends g rs w) (e : Endpoint) : w.graph.isDriven e = true ↔
    g.isDriven e = true ∨ ∃ b ∈ w.bindings, b.request.endpoint = e := by
  rw [Graph.isDriven, h.wires, List.any_append, Bool.or_eq_true, ← Graph.isDriven]
  simp [DefaultBinding.wire, Request.endpoint]

theorem suppliers_eq (h : Extends g rs w) (pin : String) : w.graph.suppliers pin =
    g.suppliers pin ++ (w.added.filter (·.pin = pin)).map DefaultBinding.input := by
  have hinput : (fun b : Block => b.suppliesPin pin) ∘ DefaultBinding.input =
      fun b => decide (b.pin = pin) := by
    funext b
    exact Bool.eq_iff_iff.mpr ((b.suppliesPin_input pin).trans decide_eq_true_iff.symm)
  rw [Graph.suppliers, h.blocks, List.filter_append, ← Graph.suppliers, List.filter_map, hinput]

/-- For a pin that is bound and that the graph does not supply, an input has been added. -/
theorem exists_added (h : Extends g rs w) {b : DefaultBinding} (hb : b ∈ w.bindings)
    (hnone : g.suppliers b.pin = []) : ∃ c ∈ w.bindings, c.added = true ∧ c.pin = b.pin := by
  let found := fun c : DefaultBinding => decide (c.pin = b.pin)
  have hlt : w.bindings.findIdx found < w.bindings.length :=
    List.findIdx_lt_length_of_exists ⟨b, hb, decide_eq_true rfl⟩
  have hfound : found w.bindings[w.bindings.findIdx found] = true := List.findIdx_getElem
  have hpin : w.bindings[w.bindings.findIdx found].pin = b.pin := of_decide_eq_true hfound
  refine ⟨_, List.getElem_mem hlt, ?_, hpin⟩
  apply (h.added_iff _ _ (List.getElem?_eq_getElem hlt)).mpr
  rw [hpin]
  refine ⟨hnone, fun c hc => ?_⟩
  obtain ⟨j, hj, rfl⟩ := List.mem_take_iff_getElem.mp hc
  exact of_decide_eq_false (List.not_of_lt_findIdx (Nat.lt_of_lt_of_le hj (Nat.min_le_left _ _)))

theorem suppliers_eq_nil_iff (h : Extends g rs w) (pin : String) : w.graph.suppliers pin = [] ↔
    g.suppliers pin = [] ∧ ∀ c ∈ w.bindings, c.pin ≠ pin := by
  rw [h.suppliers_eq, List.append_eq_nil_iff, List.map_eq_nil_iff, List.filter_eq_nil_iff]
  apply and_congr_right
  intro hnone
  constructor
  · rintro hadded c hc rfl
    obtain ⟨d, hd, hnew, hpin⟩ := h.exists_added hc hnone
    exact hadded d (List.mem_filter.mpr ⟨hd, hnew⟩) (decide_eq_true hpin)
  · intro hbound c hc hpin
    exact hbound c (List.mem_of_mem_filter hc) (of_decide_eq_true hpin)

/-- The first supplier of a pin is that of the graph, or else the source of every binding on the
pin. -/
theorem supplier_id (h : Extends g rs w) {pin : String} {s : Block} {others : List Block}
    (hs : w.graph.suppliers pin = s :: others) : (g.suppliers pin).head? = some s ∨
      g.suppliers pin = [] ∧ ∃ c ∈ w.bindings, c.pin = pin ∧ c.source = s.id := by
  rw [h.suppliers_eq] at hs
  cases hg : g.suppliers pin with
  | cons t rest =>
      rw [hg, List.cons_append] at hs
      exact Or.inl (congrArg some (List.cons.inj hs).1)
  | nil =>
      rw [hg, List.nil_append] at hs
      obtain ⟨c, _, hc, rfl, _⟩ := List.map_eq_cons_iff.mp hs
      have hmem := List.mem_filter.mp (hc ▸ List.mem_cons_self : c ∈ List.filter _ _)
      exact Or.inr ⟨rfl, c, List.mem_of_mem_filter hmem.1, of_decide_eq_true hmem.2, rfl⟩

theorem firstRequests_concat (h : Extends g rs w) (r : Request) : g.firstRequests (rs ++ [r]) =
    if w.graph.isDriven r.endpoint then g.firstRequests rs else g.firstRequests rs ++ [r] := by
  have hdriven : w.graph.isDriven r.endpoint =
      (g.isDriven r.endpoint || (g.firstRequests rs).any (Request.samePort r)) := by
    rw [Bool.eq_iff_iff, h.isDriven_iff, ← h.requests, List.any_map]
    simp [Request.samePort, @eq_comm _ r.endpoint]
  rw [hdriven, Graph.firstRequests, List.filter_append]
  cases hg : g.isDriven r.endpoint with
  | true => simp [hg, Graph.firstRequests]
  | false =>
      rw [List.filter_singleton, hg]
      exact eraseDupsBy_concat _ _ r

/-- What the next binding has to be, given those before it. -/
structure Next (g : Graph) (w : Wiring) (b : DefaultBinding) : Prop where
  added_iff : b.added = true ↔ g.suppliers b.pin = [] ∧ ∀ c ∈ w.bindings, c.pin ≠ b.pin
  source : ∀ c ∈ w.bindings, c.pin = b.pin → c.source = b.source
  supplier : ∀ s ∈ (g.suppliers b.pin).head?, b.source = s.id

/-- A binding to the first supplier of its pin, when the graph has come to have one. -/
theorem next_of_supplier (h : Extends g rs w) {b : DefaultBinding} {s : Block}
    {others : List Block} (hs : w.graph.suppliers b.pin = s :: others) (hid : b.source = s.id)
    (hadded : b.added = false) : Next g w b := by
  have hsome : ¬ (g.suppliers b.pin = [] ∧ ∀ c ∈ w.bindings, c.pin ≠ b.pin) := by
    rw [← h.suppliers_eq_nil_iff, hs]
    exact List.cons_ne_nil s others
  refine ⟨by simp [hadded, hsome], ?_, ?_⟩
  · intro c hc hpin
    rw [hid]
    obtain hhead | ⟨_, d, hd, hdpin, hdsource⟩ := h.supplier_id hs
    · exact h.supplier c hc s (hpin ▸ hhead)
    · rw [← hdsource]
      exact h.source c hc d hd (hpin.trans hdpin.symm)
  · intro t ht
    obtain hhead | ⟨hnone, _⟩ := h.supplier_id hs
    · rw [hid, Option.some.inj (hhead.symm.trans ht)]
    · rw [hnone] at ht
      cases ht

/-- A binding to an input of its own, when its pin has no supplier. -/
theorem next_of_none (h : Extends g rs w) {b : DefaultBinding}
    (hs : w.graph.suppliers b.pin = []) (hadded : b.added = true) : Next g w b := by
  obtain ⟨hnone, hpins⟩ := (h.suppliers_eq_nil_iff b.pin).mp hs
  refine ⟨⟨fun _ => ⟨hnone, hpins⟩, fun _ => hadded⟩, ?_, ?_⟩
  · intro c hc hpin
    exact absurd hpin (hpins c hc)
  · intro t ht
    rw [hnone] at ht
    cases ht

theorem added_iff_concat (h : Extends g rs w) {b : DefaultBinding} (hb : Next g w b) (i : Nat)
    (c : DefaultBinding) (hc : (w.bindings ++ [b])[i]? = some c) :
    c.added = true ↔
      g.suppliers c.pin = [] ∧ ∀ d ∈ (w.bindings ++ [b]).take i, d.pin ≠ c.pin := by
  rcases Nat.lt_or_ge i w.bindings.length with hlt | hge
  · rw [List.getElem?_append_left hlt] at hc
    rw [List.take_append_of_le_length (Nat.le_of_lt hlt)]
    exact h.added_iff i c hc
  · rw [List.getElem?_append_right hge, List.getElem?_singleton] at hc
    split at hc
    case isFalse => cases hc
    case isTrue hi =>
      obtain rfl : i = w.bindings.length := by omega
      rw [List.take_left, ← Option.some.inj hc]
      exact hb.added_iff

theorem source_concat (h : Extends g rs w) {b : DefaultBinding} (hb : Next g w b) :
    ∀ c ∈ w.bindings ++ [b], ∀ d ∈ w.bindings ++ [b], c.pin = d.pin → c.source = d.source := by
  intro c hc d hd hpin
  rw [List.mem_append, List.mem_singleton] at hc hd
  rcases hc with hc | rfl
  · rcases hd with hd | rfl
    · exact h.source c hc d hd hpin
    · exact hb.source c hc hpin
  · rcases hd with hd | rfl
    · exact (hb.source d hd hpin.symm).symm
    · rfl

/-- Meeting one more request. -/
theorem meet (h : Extends g rs w) (r : Request) : Extends g (rs ++ [r]) (w.meet r) := by
  have hfirst := h.firstRequests_concat r
  obtain ⟨hd, hgraph, hsame⟩ | ⟨hd, b, rfl, hbindings, hwires, hcases⟩ := meet_cases w r
  · rw [hd, if_pos rfl] at hfirst
    constructor
    · rw [hgraph, added, hsame]
      exact h.blocks
    all_goals rw [hsame]
    · rw [hgraph]
      exact h.wires
    · rw [hfirst]
      exact h.requests
    · exact h.added_iff
    · exact h.source
    · exact h.supplier
  · rw [hd, if_neg Bool.false_ne_true] at hfirst
    have hnext : Next g w b := by
      obtain ⟨hadded, _, s, others, hs, hid⟩ | ⟨hadded, _, hs, _⟩ := hcases
      · exact h.next_of_supplier hs hid hadded
      · exact h.next_of_none hs hadded
    constructor
    · rw [added, hbindings]
      obtain ⟨hadded, hblocks, _⟩ | ⟨hadded, hblocks, _⟩ := hcases
      · rw [hblocks, h.blocks]
        simp [added, hadded]
      · rw [hblocks, h.blocks]
        simp [added, hadded]
    all_goals rw [hbindings]
    · rw [hwires, h.wires]
      simp
    · rw [hfirst, ← h.requests]
      simp
    · exact h.added_iff_concat hnext
    · exact h.source_concat hnext
    · exact List.forall_mem_append.mpr ⟨h.supplier, List.forall_mem_singleton.mpr hnext.supplier⟩

end Extends

/-- A run of requests extends the graph by what they ask for. -/
theorem extends_ofRequests (g : Graph) (rs : List Request) : Extends g rs (ofRequests g rs) := by
  induction rs using List.reverseRecOn with
  | nil => constructor <;> simp [ofRequests, added, bindings, Graph.firstRequests, List.eraseDupsBy,
      List.eraseDupsBy.loop]
  | append_singleton rs r ih =>
      rw [ofRequests_concat]
      exact ih.meet r

section Count

variable {g : Graph} {rs : List Request} {w : Wiring}

/-- No pin has been given two inputs. -/
theorem Extends.nodup_addedPins (h : Extends g rs w) :
    (w.added.map DefaultBinding.pin).Nodup := by
  rw [List.Nodup, List.pairwise_map, added, List.pairwise_filter]
  apply List.pairwise_iff_getElem.mpr
  intro i j hi hj hij _ hadded
  have hfirst := ((h.added_iff j _ (List.getElem?_eq_getElem hj)).mp hadded).2
  exact hfirst _ (List.mem_take_iff_getElem.mpr ⟨i, by omega, rfl⟩)

/-- The pins that inputs were added for are those that are bound and that the graph does not
supply. -/
theorem Extends.mem_addedPins_iff (h : Extends g rs w) (pin : String) :
    pin ∈ w.added.map DefaultBinding.pin ↔
      pin ∈ w.bindings.map DefaultBinding.pin ∧ g.suppliers pin = [] := by
  constructor
  · intro hpin
    obtain ⟨b, hb, rfl⟩ := List.mem_map.mp hpin
    obtain ⟨hmem, hadded⟩ := List.mem_filter.mp hb
    obtain ⟨i, hi⟩ := List.mem_iff_getElem?.mp hmem
    exact ⟨List.mem_map_of_mem hmem, ((h.added_iff i b hi).mp hadded).1⟩
  · rintro ⟨hpin, hnone⟩
    obtain ⟨b, hb, rfl⟩ := List.mem_map.mp hpin
    obtain ⟨c, hc, hadded, hcpin⟩ := h.exists_added hb hnone
    exact List.mem_map.mpr ⟨c, List.mem_filter.mpr ⟨hc, hadded⟩, hcpin⟩

/-- As many inputs are added as there are pins that are bound and that the graph does not supply. -/
theorem Extends.length_blocks (h : Extends g rs w) : w.graph.blocks.length = g.blocks.length +
    ((w.bindings.map DefaultBinding.pin).toFinset.filter fun pin => g.suppliers pin = []).card := by
  have hset : (w.added.map DefaultBinding.pin).toFinset =
      (w.bindings.map DefaultBinding.pin).toFinset.filter fun pin => g.suppliers pin = [] := by
    ext pin
    rw [List.mem_toFinset, h.mem_addedPins_iff, Finset.mem_filter, List.mem_toFinset]
  rw [h.blocks, ← hset, List.toFinset_card_of_nodup h.nodup_addedPins]
  simp

end Count

/-- Requests extend a graph by exactly what they ask for: the graph stays as it was, each port that
is asked for has a driver, as many inputs are added as there are pins without one, and distinct ids
stay distinct. -/
theorem requests_extend_exactly (g : Graph) (rs : List Request) :
    Extends g rs (ofRequests g rs) ∧
    (∀ r ∈ rs, (ofRequests g rs).graph.isDriven r.endpoint = true) ∧
    (ofRequests g rs).graph.blocks.length = g.blocks.length +
      (((ofRequests g rs).bindings.map DefaultBinding.pin).toFinset.filter
        fun pin => g.suppliers pin = []).card ∧
    (g.DistinctIds → (ofRequests g rs).graph.DistinctIds) := by
  have hextends := extends_ofRequests g rs
  refine ⟨hextends, ?_, hextends.length_blocks, ?_⟩ <;> rw [graph_ofRequests]
  · exact isDriven_foldl_step g rs
  · exact fun hids => distinctIds_foldl_step hids rs

/-- A part beside an input that has the name asked for, but another pin. -/
def beside : Graph where
  blocks := [⟨"CLK", .input { pins := [⟨"0", "21"⟩] }⟩, ⟨"u", .circuit "part"⟩]

/-- Two ports ask for a pin that no input has, one for the pin of the input, and one port asks
twice. -/
def sharing : List Request :=
  [⟨"u", "a", "CLK", "95"⟩, ⟨"u", "b", "CLK", "95"⟩, ⟨"u", "c", "RST", "21"⟩,
   ⟨"u", "a", "RST", "3"⟩]

/-- One input is added, under another name than the one that is taken. -/
theorem requests_extend_exactly_sharing : beside.DistinctIds ∧
    Extends beside sharing (ofRequests beside sharing) ∧
    (ofRequests beside sharing).bindings.map (fun b => (b.source, b.added)) =
      [("CLK_1", true), ("CLK_1", false), ("CLK", false)] ∧
    (ofRequests beside sharing).graph.DistinctIds := by
  have hids : beside.DistinctIds := by simp [Graph.DistinctIds, beside]
  obtain ⟨hextends, _, _, hdistinct⟩ := requests_extend_exactly beside sharing
  exact ⟨hids, hextends, by decide +kernel, hdistinct hids⟩

end Wiring

end Schematic
