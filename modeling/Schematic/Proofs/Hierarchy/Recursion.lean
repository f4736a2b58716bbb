import Schematic.Proofs.Hierarchy.Compiled
import Mathlib.Logic.Relation

/-!
# Modules that use themselves

The flattening stops at a sub-circuit that is nested in itself. Uses of the sub-circuits in one's
own library therefore never run in a circle. A use may also reach out to a library further out,
and nothing is checked about those: modules use themselves exactly when such a use leads back to
where it started.
-/

namespace Schematic

open Relation

/-- The body of `m` has an instance of the module `n`. -/
def Module.Uses (m n : Module) : Prop :=
  ∃ list inst, m.body = .statements list ∧ .use inst ∈ list ∧ inst.target = n.name

theorem Module.Realizes.uses_iff {m : Module} {g : Graph} (h : m.Realizes g) (n : Module) :
    m.Uses n ↔ ∃ b ∈ g.blocks, b.isInstance ∧ b.moduleName m.name = n.name := by
  obtain ⟨list, hbody, huse, _⟩ := h
  constructor
  · rintro ⟨list', inst, hbody', hinst, htarget⟩
    obtain rfl : list = list' := by simpa [hbody] using hbody'
    obtain ⟨b, hb, hi, rfl⟩ := (huse inst).mp hinst
    exact ⟨b, hb, hi, htarget⟩
  · rintro ⟨b, hb, hi, hname⟩
    exact ⟨list, g.instanceOf m.name b, hbody, (huse _).mpr ⟨b, hb, hi, rfl⟩, hname⟩

/-- No instance uses the main module: its name is neither an identifier nor that of a code
block. -/
theorem Block.moduleName_ne_main {b : Block} (hinst : b.isInstance = true) (parent : String) :
    b.moduleName parent ≠ Top.moduleName := by
  rcases (b.isInstance_iff).mp hinst with ⟨c, hkind⟩ | ⟨type, hkind⟩
  · intro heq
    have hmem : '_' ∈ (b.moduleName parent).toList := by
      simp [moduleName, hkind, Module.codeName]
    rw [heq] at hmem
    exact absurd hmem (by decide)
  · have hname : b.moduleName parent = Identifier.ofId type := by
      simp [moduleName, hkind]
    rw [hname]
    exact Top.ofId_ne_moduleName type

namespace Hierarchy

section Order

variable {α : Type} {r s : α → α → Prop} {l l' : List α}

/-- The relation between members of a list. -/
def Among (l : List α) (r : α → α → Prop) (a b : α) : Prop := a ∈ l ∧ b ∈ l ∧ r a b

/-- The relation has no cycle inside the list. -/
def Acyclic (l : List α) (r : α → α → Prop) : Prop := ∀ a, ¬ TransGen (Among l r) a a

theorem Acyclic.of_subset (h : Acyclic l' r) (hsub : l ⊆ l') : Acyclic l r := by
  intro a hcycle
  apply h a
  refine TransGen.mono ?_ a a hcycle
  rintro b c ⟨hb, hc, hbc⟩
  exact ⟨hsub hb, hsub hc, hbc⟩

/-- Two parts without cycles have none together when nothing leads from the first to the
second. -/
theorem Acyclic.append {front back : List α} (hfront : Acyclic front r) (hback : Acyclic back r)
    (hcross : ∀ a ∈ front, ∀ b ∈ back, ¬ r a b) : Acyclic (front ++ back) r := by
  have hstay {a b : α} (ha : a ∈ front) (hab : Among (front ++ back) r a b) :
      Among front r a b := by
    rcases List.mem_append.mp hab.2.1 with hb | hb
    · exact ⟨ha, hb, hab.2.2⟩
    · exact absurd hab.2.2 (hcross a ha b hb)
  -- a path stays in the front once it is there, and in the back as long as it is not
  have hpath {a b : α} (hab : TransGen (Among (front ++ back) r) a b) :
      (a ∈ front → TransGen (Among front r) a b) ∧
        (a ∉ front → b ∈ front ∨ TransGen (Among back r) a b) := by
    have hleave {a b : α} (hab : Among (front ++ back) r a b) (ha : a ∉ front) :
        b ∈ front ∨ Among back r a b := by
      have haback := (List.mem_append.mp hab.1).resolve_left ha
      exact (List.mem_append.mp hab.2.1).imp_right fun hb => ⟨haback, hb, hab.2.2⟩
    induction hab with
    | single hab =>
        refine ⟨fun ha => .single (hstay ha hab), fun ha => ?_⟩
        exact (hleave hab ha).imp_right .single
    | @tail b c _ hbc ih =>
        constructor
        · intro ha
          have hab := ih.1 ha
          obtain ⟨_, _, hlast⟩ := TransGen.tail'_iff.mp hab
          exact hab.tail (hstay hlast.2.1 hbc)
        · intro ha
          by_cases hb : b ∈ front
          · exact Or.inl (hstay hb hbc).2.1
          · have hab := (ih.2 ha).resolve_left hb
            exact (hleave hbc hb).imp_right hab.tail
  intro a hcycle
  by_cases ha : a ∈ front
  · exact hfront a ((hpath hcycle).1 ha)
  · exact hback a (((hpath hcycle).2 ha).resolve_left ha)

theorem acyclic_nil : Acyclic [] r := by
  intro a hcycle
  obtain ⟨b, _, hba⟩ := TransGen.tail'_iff.mp hcycle
  cases hba.1

theorem acyclic_singleton {a : α} (h : ¬ r a a) : Acyclic [a] r := by
  intro b hcycle
  obtain ⟨c, _, hc, hb, hcb⟩ := TransGen.tail'_iff.mp hcycle
  rw [List.mem_singleton.mp hc, List.mem_singleton.mp hb] at hcb
  exact h hcb

/-- When every step on a cycle is of one kind, the cycle is a cycle of that kind. -/
theorem transGen_of_cycle (h : ∀ a b, r a b → ¬ s a b → ¬ ReflTransGen r b a) {a b : α}
    (hab : TransGen r a b) (hba : ReflTransGen r b a) : TransGen s a b := by
  have hstep {c d : α} (hcd : r c d) (hdc : ReflTransGen r d c) : s c d := by
    by_contra hnot
    exact h c d hcd hnot hdc
  induction hab with
  | single hab => exact .single (hstep hab hba)
  | tail hac hcb ih =>
      refine (ih (.head hcb hba)).tail (hstep hcb ?_)
      exact hba.trans hac.to_reflTransGen

end Order

/-- The sub-circuit `w` was rendered for a type in the library of `v`. -/
def Visit.Nests (v w : Visit) : Prop := w.type ∈ v.types

/-- The graph of `v` has an instance of the module that was rendered for `w`. -/
def Visit.Uses (v w : Visit) : Prop :=
  ∃ b ∈ v.project.graph.blocks, b.isInstance ∧ b.moduleName v.name = w.name

/-- Nesting has no cycles: whatever lies in a library is run through before anything after it, and
never contains what it is nested in. -/
theorem Walk.acyclic_nests {nesting : List String} {s : Scope} {library : List (String × Project)}
    {ms ms' : List Module} {visits : List Visit} (h : Walk nesting s library ms visits ms') :
    Acyclic visits Visit.Nests := by
  induction h with
  | done => exact acyclic_nil
  | known _ _ _ ih => exact ih
  | @visit nesting s rest ms ms₁ ms₂ v inner later hscope hnesting hname hmodule hinner hlater
      ihinner ihlater =>
      have hself : ¬ v.Nests v := by
        intro hmem
        exact hinner.not_mem_nesting v.type hmem List.mem_cons_self
      have hback : ∀ w ∈ inner, ∀ u ∈ [v], ¬ w.Nests u := by
        intro w hw u hu hmem
        obtain rfl := List.mem_singleton.mp hu
        exact hinner.not_mem_types hw (Or.inr List.mem_cons_self) hmem
      have hfront : Acyclic (inner ++ [v]) Visit.Nests :=
        ihinner.append (acyclic_singleton hself) hback
      have hcross : ∀ w ∈ inner ++ [v], ∀ u ∈ later, ¬ w.Nests u := by
        intro w hw u hu hmem
        have htaken : isEmitted ms₁ u.name = true := by
          rcases List.mem_append.mp hw with hw | hw
          · exact hinner.isEmitted_types hw hmem
          · obtain rfl := List.mem_singleton.mp hw
            exact hinner.isEmitted_type u.type hmem
        have hfree := hlater.isEmitted_eq_false hu
        rw [isEmitted_mono (extends_foldl_emit _ _).isPrefix htaken] at hfree
        cases hfree
      refine (hfront.append ihlater hcross).of_subset ?_
      intro w hw
      simp only [List.mem_cons, List.mem_append] at hw ⊢
      tauto

namespace Compiled

variable {p : Project} {o : Options} {rules : BoardRules} {top : Top} {main : Module}
  {visits : List Visit} {ms : List Module}

theorem uses_rendered_iff (h : Compiled p o rules top main visits ms) {v w : Visit}
    (hv : v ∈ visits) (hw : w ∈ visits) : v.rendered.Uses w.rendered ↔ v.Uses w := by
  obtain ⟨hvname, hrealizes, _⟩ := Graph.toModule_eq_ok (h.toModule_eq hv)
  obtain ⟨hwname, _⟩ := Graph.toModule_eq_ok (h.toModule_eq hw)
  rw [hrealizes.uses_iff, hvname, hwname]
  rfl

/-- A module that uses others and is used itself belongs to a sub-circuit. -/
theorem exists_visit (h : Compiled p o rules top main visits ms) {l m n : Module}
    (hlm : Among ms Module.Uses l m) (hmn : Among ms Module.Uses m n) :
    ∃ v ∈ visits, m = v.rendered := by
  have hgraph {k : Module} (hk : k ∈ ms) {n : Module} (huses : k.Uses n) :
      k = main ∨ ∃ v ∈ visits, k = v.rendered := by
    obtain ⟨list, _, hbody, _⟩ := huses
    rcases h.origin hk with hk | hk | ⟨code, hcode⟩
    · exact Or.inl hk
    · exact Or.inr hk
    · rw [hbody] at hcode
      cases hcode
  refine (hgraph hmn.1 hmn.2.2).resolve_left ?_
  rintro rfl
  have hnot {g : Graph} (hrealizes : l.Realizes g) : False := by
    obtain ⟨b, _, hinst, hname⟩ := (hrealizes.uses_iff m).mp hlm.2.2
    exact Block.moduleName_ne_main hinst l.name (hname.trans h.name_main)
  rcases hgraph hlm.1 hlm.2.2 with rfl | ⟨v, hv, rfl⟩
  · exact hnot (Top.toModule_eq_ok h.main_eq).2.1
  · exact hnot (Graph.toModule_eq_ok (h.toModule_eq hv)).2.1

/-- Paths between the modules of sub-circuits are paths between the sub-circuits. -/
theorem transGen_uses (h : Compiled p o rules top main visits ms) {v w : Visit}
    (hv : v ∈ visits) (hw : w ∈ visits) {m n : Module} (hm : m = v.rendered)
    (hn : n = w.rendered) (hpath : TransGen (Among ms Module.Uses) m n) :
    TransGen (Among visits Visit.Uses) v w := by
  induction hpath generalizing w with
  | single hmn =>
      subst hm hn
      exact .single ⟨hv, hw, (h.uses_rendered_iff hv hw).mp hmn.2.2⟩
  | @tail k n hmk hkn ih =>
      obtain ⟨l, _, hlk⟩ := TransGen.tail'_iff.mp hmk
      obtain ⟨u, hu, rfl⟩ := h.exists_visit hlk hkn
      subst hn
      exact (ih hu rfl).tail ⟨hu, hw, (h.uses_rendered_iff hu hw).mp hkn.2.2⟩

/-- The modules use themselves exactly when the sub-circuits do. -/
theorem acyclic_uses_iff (h : Compiled p o rules top main visits ms) :
    Acyclic ms Module.Uses ↔ Acyclic visits Visit.Uses := by
  constructor
  · intro hms v hcycle
    apply hms v.rendered
    refine TransGen.lift Visit.rendered ?_ v v hcycle
    rintro u w ⟨hu, hw, huses⟩
    exact ⟨h.rendered_mem hu, h.rendered_mem hw, (h.uses_rendered_iff hu hw).mpr huses⟩
  · intro hvisits m hcycle
    obtain ⟨k, hmk, _⟩ := TransGen.head'_iff.mp hcycle
    obtain ⟨l, _, hlm⟩ := TransGen.tail'_iff.mp hcycle
    obtain ⟨v, hv, rfl⟩ := h.exists_visit hlm hmk
    exact hvisits v (h.transGen_uses hv hv rfl rfl hcycle)

end Compiled

/-- The sub-circuits in one's own library never lead back. The modules of a compilation are used
without a cycle exactly when no use of a sub-circuit outside one's own library leads back. -/
theorem acyclic_modules_iff {p : Project} {o : Options} {rules : BoardRules} {ms : List Module}
    (h : p.modules o rules = .ok ms) :
    ∃ top main visits, Compiled p o rules top main visits ms ∧ Acyclic visits Visit.Nests ∧
      (Acyclic ms Module.Uses ↔
        ∀ v w, Among visits Visit.Uses v w → ¬ v.Nests w →
          ¬ ReflTransGen (Among visits Visit.Uses) w v) := by
  obtain ⟨top, main, visits, hcompiled⟩ := (modules_eq_ok_iff p o rules ms).mp h
  obtain ⟨ms₁, hwalk, _⟩ := hcompiled.walk
  have hnests := hwalk.acyclic_nests
  refine ⟨top, main, visits, hcompiled, hnests, ?_⟩
  rw [hcompiled.acyclic_uses_iff]
  constructor
  · intro hacyclic v w hvw _ hback
    exact hacyclic v (.head' hvw hback)
  · intro hout v hcycle
    have hout' : ∀ u w, Among visits Visit.Uses u w → ¬ Among visits Visit.Nests u w →
        ¬ ReflTransGen (Among visits Visit.Uses) w u := by
      intro u w huw hnot
      apply hout u w huw
      intro hmem
      exact hnot ⟨huw.1, huw.2.1, hmem⟩
    exact hnests v (transGen_of_cycle hout' hcycle .refl)

/-- A sub-circuit with one of its own inside, both of which use a third that lies further out. -/
def sharedLeaf : Project where
  design := { graph := { blocks := [⟨"u", .circuit "outer"⟩] } }
  library := [
    ("outer", {
      design := { graph := { blocks := [⟨"i", .circuit "inner"⟩, ⟨"l", .circuit "leaf"⟩] } }
      library := [("inner", {
        design := { graph := { blocks := [⟨"l", .circuit "leaf"⟩] } }
        library := [] })] }),
    ("leaf", { design := { graph := { blocks := [⟨"c", .code {}⟩] } }, library := [] })]

theorem acyclic_modules_iff_sharedLeaf : ∃ ms, sharedLeaf.modules {} {} = .ok ms ∧
    ∃ top main visits, Compiled sharedLeaf {} {} top main visits ms ∧
      Acyclic visits Visit.Nests ∧
      (Acyclic ms Module.Uses ↔
        ∀ v w, Among visits Visit.Uses v w → ¬ v.Nests w →
          ¬ ReflTransGen (Among visits Visit.Uses) w v) := by
  obtain ⟨ms, hms⟩ : ∃ ms, sharedLeaf.modules {} {} = .ok ms := ⟨_, rfl⟩
  exact ⟨ms, hms, acyclic_modules_iff hms⟩

/-- A sub-circuit that has a block of its own type, which it finds in the library around it. -/
def endless : Project where
  design := { graph := { blocks := [⟨"u", .circuit "loop"⟩] } }
  library := [("loop", {
    design := { graph := { blocks := [⟨"x", .circuit "loop"⟩] } }
    library := [] })]

/-- Such a project compiles, to a module that uses itself. -/
theorem not_acyclic_endless : ∃ ms, endless.modules {} {} = .ok ms ∧
    ¬ Acyclic ms Module.Uses := by
  let top : Module := { name := "main", body := .statements [.use ⟨"vloop", "vu", [], []⟩] }
  let loop : Module := { name := "vloop", body := .statements [.use ⟨"vloop", "vx", [], []⟩] }
  have hms : endless.modules {} {} = .ok [top, loop] := by decide +kernel
  refine ⟨[top, loop], hms, fun hacyclic => hacyclic loop (.single ⟨?_, ?_, ?_⟩)⟩
  · exact List.mem_cons_of_mem top List.mem_cons_self
  · exact List.mem_cons_of_mem top List.mem_cons_self
  · exact ⟨_, _, rfl, List.mem_cons_self, rfl⟩

end Hierarchy

end Schematic
