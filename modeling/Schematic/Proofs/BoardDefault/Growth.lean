import Schematic.BoardDefault.Wiring
import Schematic.Proofs.BoardDefault.FreeId

/-!
# How requests make a graph grow

Meeting a request changes nothing when the port is driven, and otherwise adds one wire from an
input on the pin it asks for, together with that input when there is none. A run of requests
therefore only appends, and every port it asks for has a driver that the first request for it
chose.
-/

namespace Schematic

/-- A supplier of a pin is a plain one-bit input on it. -/
theorem Block.suppliesPin_iff (b : Block) (pin : String) :
    b.suppliesPin pin = true ↔ ∃ t, b.kind = .input t ∧ t.range = none ∧ t.isVirtual = false ∧
      t.solePin = some pin := by
  unfold Block.suppliesPin
  cases ht : b.input? with
  | none =>
      have hnot (t : Terminal) : b.kind ≠ .input t := fun h => by
        simp [(b.input?_eq_some_iff t).mpr h] at ht
      simp [hnot]
  | some t =>
      have hkind := (b.input?_eq_some_iff t).mp ht
      simp [hkind, and_assoc]

theorem Block.isSome_input?_of_suppliesPin {b : Block} {pin : String}
    (h : b.suppliesPin pin = true) : b.input?.isSome := by
  obtain ⟨t, hkind, _⟩ := (b.suppliesPin_iff pin).mp h
  simp [(b.input?_eq_some_iff t).mpr hkind]

namespace Wiring

/-- The graph after one more request. -/
def step (g : Graph) (r : Request) : Graph := perform g (plan g r)

theorem graph_foldl_meet (w : Wiring) (rs : List Request) :
    (rs.foldl meet w).graph = rs.foldl step w.graph := by
  induction rs generalizing w with
  | nil => rfl
  | cons r rest ih => exact ih (w.meet r)

theorem graph_ofRequests (g : Graph) (rs : List Request) :
    (ofRequests g rs).graph = rs.foldl step g :=
  graph_foldl_meet ⟨g, []⟩ rs

/-- The block that is added for a request when no input is on its pin. -/
def newInput (g : Graph) (r : Request) : Block :=
  ⟨g.freeId r.name, .input (.onPin r.name r.pin)⟩

theorem suppliesPin_newInput (g : Graph) (r : Request) :
    (newInput g r).suppliesPin r.pin = true := by
  simp [newInput, Block.suppliesPin, Block.input?, Terminal.onPin, Terminal.solePin]

/-- All that can be done about a request: nothing, a wire from the first supplier of its pin, or a
wire from a new input. -/
theorem plan_cases (g : Graph) (r : Request) :
    (g.isDriven r.endpoint = true ∧ plan g r = .kept r) ∨
    (g.isDriven r.endpoint = false ∧ ∃ b others, g.suppliers r.pin = b :: others ∧
      plan g r = .reused r b.id (others.map Block.id)) ∨
    (g.isDriven r.endpoint = false ∧ g.suppliers r.pin = [] ∧
      plan g r = .added r (g.freeId r.name)) := by
  cases hd : g.isDriven r.endpoint with
  | true => exact Or.inl ⟨rfl, by simp [plan, hd]⟩
  | false =>
      cases hs : g.suppliers r.pin with
      | nil => exact Or.inr (Or.inr ⟨rfl, rfl, by simp [plan, hd, hs]⟩)
      | cons b others => exact Or.inr (Or.inl ⟨rfl, b, others, rfl, by simp [plan, hd, hs]⟩)

theorem step_cases (g : Graph) (r : Request) :
    (g.isDriven r.endpoint = true ∧ step g r = g) ∨
    (g.isDriven r.endpoint = false ∧ ∃ b others, g.suppliers r.pin = b :: others ∧
      step g r = g.addWire (r.wire b.id)) ∨
    (g.isDriven r.endpoint = false ∧ g.suppliers r.pin = [] ∧
      step g r = (g.addBlock (newInput g r)).addWire (r.wire (g.freeId r.name))) := by
  rcases plan_cases g r with ⟨hd, hplan⟩ | ⟨hd, b, others, hs, hplan⟩ | ⟨hd, hs, hplan⟩
  · exact Or.inl ⟨hd, by rw [step, hplan]; rfl⟩
  · exact Or.inr (Or.inl ⟨hd, b, others, hs, by rw [step, hplan]; rfl⟩)
  · exact Or.inr (Or.inr ⟨hd, hs, by rw [step, hplan]; rfl⟩)

/-- A request for a port without a driver adds a wire to it from an input on its pin. -/
theorem step_undriven {g : Graph} {r : Request} (h : g.isDriven r.endpoint = false) :
    ∃ b ∈ (step g r).blocks, b.suppliesPin r.pin = true ∧
      (step g r).wires = g.wires ++ [r.wire b.id] := by
  rcases step_cases g r with ⟨hd, _⟩ | ⟨_, b, others, hs, heq⟩ | ⟨_, _, heq⟩
  · simp [h] at hd
  · have hb : b ∈ g.suppliers r.pin := by simp [hs]
    obtain ⟨hmem, hsupplies⟩ := List.mem_filter.mp hb
    exact ⟨b, by simpa [heq] using hmem, hsupplies, by simp [heq]⟩
  · exact ⟨newInput g r, by simp [heq], suppliesPin_newInput g r, by simp [heq, newInput]⟩

/-- What requests may do to a graph: inputs are appended, and wires from inputs to ports that had
no driver and were asked for. -/
structure Grows (rs : List Request) (g g' : Graph) : Prop where
  blocks : ∃ bs, g'.blocks = g.blocks ++ bs ∧ ∀ b ∈ bs, b.input?.isSome
  wires : ∃ ws, g'.wires = g.wires ++ ws ∧ ∀ w ∈ ws, g.isDriven w.target = false ∧
    (∃ r ∈ rs, r.endpoint = w.target) ∧
    ∃ b ∈ g'.blocks, b.input?.isSome ∧ w.source = ⟨b.id, Terminal.outPort⟩

theorem Grows.refl (rs : List Request) (g : Graph) : Grows rs g g where
  blocks := ⟨[], by simp⟩
  wires := ⟨[], by simp⟩

theorem Grows.isDriven_eq_false {rs : List Request} {g g' : Graph} (h : Grows rs g g')
    {e : Endpoint} (he : g'.isDriven e = false) : g.isDriven e = false := by
  obtain ⟨ws, hws, _⟩ := h.wires
  simp only [Graph.isDriven, hws, List.any_append, Bool.or_eq_false_iff] at he
  exact he.1

theorem Grows.mono {rs rs' : List Request} {g g' : Graph} (h : Grows rs g g')
    (hsub : ∀ r ∈ rs, r ∈ rs') : Grows rs' g g' where
  blocks := h.blocks
  wires := by
    obtain ⟨ws, hws, hnew⟩ := h.wires
    refine ⟨ws, hws, fun w hw => ?_⟩
    obtain ⟨hd, ⟨r, hr, he⟩, hsource⟩ := hnew w hw
    exact ⟨hd, ⟨r, hsub r hr, he⟩, hsource⟩

theorem Grows.trans {rs : List Request} {g g' g'' : Graph} (h : Grows rs g g')
    (h' : Grows rs g' g'') : Grows rs g g'' where
  blocks := by
    obtain ⟨bs, hbs, hinput⟩ := h.blocks
    obtain ⟨bs', hbs', hinput'⟩ := h'.blocks
    refine ⟨bs ++ bs', by rw [hbs', hbs, List.append_assoc], fun b hb => ?_⟩
    exact (List.mem_append.mp hb).elim (hinput b) (hinput' b)
  wires := by
    obtain ⟨ws, hws, hnew⟩ := h.wires
    obtain ⟨ws', hws', hnew'⟩ := h'.wires
    obtain ⟨bs', hbs', _⟩ := h'.blocks
    refine ⟨ws ++ ws', by rw [hws', hws, List.append_assoc], fun w hw => ?_⟩
    rcases List.mem_append.mp hw with hw | hw
    · obtain ⟨hd, hr, b, hb, hinput, hsource⟩ := hnew w hw
      exact ⟨hd, hr, b, by rw [hbs']; exact List.mem_append_left _ hb, hinput, hsource⟩
    · obtain ⟨hd, hr, hsource⟩ := hnew' w hw
      exact ⟨h.isDriven_eq_false hd, hr, hsource⟩

theorem Grows.exists_inputs {rs : List Request} {g g' : Graph} (h : Grows rs g g') :
    ∃ bs, g'.blocks = g.blocks ++ bs ∧ ∀ b ∈ bs, ∃ t, b.kind = .input t := by
  obtain ⟨bs, hbs, hinput⟩ := h.blocks
  refine ⟨bs, hbs, fun b hb => ?_⟩
  obtain ⟨t, ht⟩ := Option.isSome_iff_exists.mp (hinput b hb)
  exact ⟨t, (b.input?_eq_some_iff t).mp ht⟩

/-- What is read off one block after another, and never off an input, is the same in a graph that
has grown. -/
theorem Grows.filterMap_blocks {rs : List Request} {g g' : Graph} {α : Type} (h : Grows rs g g')
    (f : Block → Option α) (hf : ∀ b t, b.kind = .input t → f b = none) :
    g'.blocks.filterMap f = g.blocks.filterMap f := by
  obtain ⟨bs, hbs, hinput⟩ := h.exists_inputs
  have hnone : bs.filterMap f = [] := by
    apply List.filterMap_eq_nil_iff.mpr
    intro b hb
    obtain ⟨t, hkind⟩ := hinput b hb
    exact hf b t hkind
  rw [hbs, List.filterMap_append, hnone, List.append_nil]

theorem grows_step (g : Graph) (r : Request) : Grows [r] g (step g r) := by
  cases hd : g.isDriven r.endpoint with
  | true =>
      rcases step_cases g r with ⟨_, heq⟩ | ⟨hd', _⟩ | ⟨hd', _⟩
      · rw [heq]
        exact .refl _ g
      · simp [hd] at hd'
      · simp [hd] at hd'
  | false =>
      obtain ⟨b, hb, hsupplies, hwires⟩ := step_undriven hd
      refine ⟨?_, [r.wire b.id], hwires, ?_⟩
      · rcases step_cases g r with ⟨_, heq⟩ | ⟨_, _, _, _, heq⟩ | ⟨_, _, heq⟩
        · exact ⟨[], by simp [heq]⟩
        · exact ⟨[], by simp [heq]⟩
        · exact ⟨[newInput g r], by simp [heq],
            by simpa using Block.isSome_input?_of_suppliesPin (suppliesPin_newInput g r)⟩
      · intro w hw
        obtain rfl := List.mem_singleton.mp hw
        exact ⟨hd, ⟨r, List.mem_singleton_self r, rfl⟩, b, hb,
          Block.isSome_input?_of_suppliesPin hsupplies, rfl⟩

/-- A run of requests only makes a graph grow. -/
theorem grows_foldl_step (g : Graph) (rs : List Request) : Grows rs g (rs.foldl step g) := by
  induction rs generalizing g with
  | nil => exact .refl [] g
  | cons r rest ih =>
      have hfirst : Grows (r :: rest) g (step g r) := (grows_step g r).mono (by simp)
      exact hfirst.trans ((ih (step g r)).mono fun q hq => List.mem_cons_of_mem r hq)

theorem distinctIds_step {g : Graph} (hg : g.DistinctIds) (r : Request) :
    (step g r).DistinctIds := by
  rcases step_cases g r with ⟨_, heq⟩ | ⟨_, _, _, _, heq⟩ | ⟨_, _, heq⟩
  · rw [heq]
    exact hg
  · rw [heq]
    exact hg
  · have hfresh := g.freeId_not_mem r.name
    rw [heq]
    simp only [Graph.DistinctIds, Graph.blocks_addWire, Graph.blocks_addBlock, List.map_append,
      List.map_singleton]
    refine List.nodup_append.mpr ⟨hg, List.nodup_singleton _, ?_⟩
    intro id hid new hnew hsame
    have hnew : new = g.freeId r.name := List.mem_singleton.mp hnew
    exact hfresh (hnew ▸ hsame ▸ hid)

/-- Requests keep the ids of blocks distinct. -/
theorem distinctIds_foldl_step {g : Graph} (hg : g.DistinctIds) (rs : List Request) :
    (rs.foldl step g).DistinctIds := by
  induction rs generalizing g with
  | nil => exact hg
  | cons r rest ih => exact ih (distinctIds_step hg r)

/-- The first request for a port without a driver decides where its only wire comes from: an input
on the pin that the request asks for. -/
theorem exists_unique_wire {g : Graph} {rs : List Request} {r : Request}
    (hr : rs.find? (fun q => q.endpoint = r.endpoint) = some r)
    (hfree : g.isDriven r.endpoint = false) :
    ∃ k b, (rs.foldl step g).wires[k]? = some (r.wire b.id) ∧ b ∈ (rs.foldl step g).blocks ∧
      b.suppliesPin r.pin = true ∧
      ∀ (j : Nat) (w : Wire), (rs.foldl step g).wires[j]? = some w → w.target = r.endpoint →
        j = k := by
  obtain ⟨_, before, after, rfl, hbefore⟩ := List.find?_eq_some_iff_append.mp hr
  rw [List.foldl_append, List.foldl_cons]
  -- before the request nothing reaches the port, at the request one wire does, later none is added
  let g₁ : Graph := before.foldl step g
  have hfree₁ : ∀ w ∈ g₁.wires, w.target ≠ r.endpoint := by
    obtain ⟨ws, hws, hnew⟩ := (grows_foldl_step g before).wires
    intro w hw heq
    rw [hws] at hw
    rcases List.mem_append.mp hw with hw | hw
    · have hdriven := (g.isDriven_iff r.endpoint).mpr ⟨w, hw, heq⟩
      simp [hfree] at hdriven
    · obtain ⟨_, ⟨q, hq, he⟩, _⟩ := hnew w hw
      have hne := hbefore q hq
      simp [he, heq] at hne
  have hundriven : g₁.isDriven r.endpoint = false := by
    refine Bool.eq_false_iff.mpr fun hd => ?_
    obtain ⟨w, hw, heq⟩ := (g₁.isDriven_iff _).mp hd
    exact hfree₁ w hw heq
  obtain ⟨b, hb, hsupplies, hwires⟩ := step_undriven hundriven
  obtain ⟨bs, hbs, _⟩ := (grows_foldl_step (step g₁ r) after).blocks
  obtain ⟨ws, hws, hlater⟩ := (grows_foldl_step (step g₁ r) after).wires
  rw [hwires] at hws
  refine ⟨g₁.wires.length, b, ?_, ?_, hsupplies, ?_⟩
  · rw [hws]
    simp
  · rw [hbs]
    exact List.mem_append_left _ hb
  · intro j w hj htarget
    rw [hws, List.append_assoc] at hj
    rcases Nat.lt_trichotomy j g₁.wires.length with hlt | heq | hgt
    · rw [List.getElem?_append_left hlt] at hj
      exact absurd htarget (hfree₁ w (List.mem_of_getElem? hj))
    · exact heq
    · rw [List.getElem?_append_right (Nat.le_of_lt hgt)] at hj
      have hmem : w ∈ ws := by
        rw [List.getElem?_append_right (by simp; omega)] at hj
        exact List.mem_of_getElem? hj
      have hdriven : (step g₁ r).isDriven w.target = true :=
        (Graph.isDriven_iff _ _).mpr ⟨r.wire b.id, by simp [hwires], htarget.symm ▸ rfl⟩
      simp [(hlater w hmem).1] at hdriven

end Wiring

end Schematic
