import Schematic.Proofs.Json.Readable
import Schematic.Proofs.Json.Record
import Mathlib.Data.List.Pairwise

/-!
# Records written differently

Two trees are variants of one record when the fields of one are those of the other in another order,
with undeclared fields in between, and the values of the declared fields are variants again. Reading
goes through the fields one by one; undeclared ones change nothing, and two declared ones may change
places as long as what they store does not overlap. So variants are refused together, though perhaps
for different reasons, or read as the same.
-/

namespace Schematic

section Outcomes

variable {ε α β γ δ : Type}

/-- Both are refused, for whatever reasons, or both are accepted with related results. -/
inductive Alike (S : α → β → Prop) : Except ε α → Except ε β → Prop
  | refused (e e' : ε) : Alike S (.error e) (.error e')
  | accepted {a : α} {b : β} : S a b → Alike S (.ok a) (.ok b)

namespace Alike

variable {S : α → β → Prop} {T : γ → δ → Prop} {x : Except ε α} {y : Except ε β}

theorem of_refl {S : α → α → Prop} (hrefl : ∀ a, S a a) (x : Except ε α) : Alike S x x := by
  cases x with
  | error e => exact .refused e e
  | ok a => exact .accepted (hrefl a)

theorem refl (x : Except ε α) : Alike Eq x x := of_refl (fun _ => rfl) x

theorem trans_eq {z : Except ε β} (h : Alike S x y) (h' : Alike Eq y z) : Alike S x z := by
  cases h with
  | refused e e' =>
      cases h' with
      | refused _ e'' => exact .refused e e''
  | accepted hab =>
      cases h' with
      | accepted hbc => exact .accepted (hbc ▸ hab)

theorem bind {f : α → Except ε γ} {g : β → Except ε δ} (h : Alike S x y)
    (hfg : ∀ a b, S a b → Alike T (f a) (g b)) : Alike T (x >>= f) (y >>= g) := by
  cases h with
  | refused e e' => exact .refused e e'
  | accepted hab => exact hfg _ _ hab

theorem map {f : α → γ} {g : β → δ} (h : Alike S x y) (hfg : ∀ a b, S a b → T (f a) (g b)) :
    Alike T (x.map f) (y.map g) := by
  cases h with
  | refused e e' => exact .refused e e'
  | accepted hab => exact .accepted (hfg _ _ hab)

theorem bind_eq {y : Except ε α} (h : Alike Eq x y) (f : α → Except ε γ) :
    Alike Eq (x >>= f) (y >>= f) := by
  apply h.bind
  rintro a _ rfl
  exact refl (f a)

theorem map_eq {y : Except ε α} (h : Alike Eq x y) (f : α → γ) :
    Alike Eq (x.map f) (y.map f) := by
  apply h.map
  rintro a _ rfl
  rfl

theorem mapError (h : Alike S x y) (f : ε → ε) : Alike S (x.mapError f) (y.mapError f) := by
  cases h with
  | refused e e' => exact .refused (f e) (f e')
  | accepted hab => exact .accepted hab

/-- The results are related, and the first of them is one. -/
theorem and_eq_ok (h : Alike S x y) : Alike (fun a b => S a b ∧ x = .ok a) x y := by
  cases h with
  | refused e e' => exact .refused e e'
  | accepted hab => exact .accepted ⟨hab, rfl⟩

theorem of_ok (hto : ∀ a, x = .ok a → ∃ b, y = .ok b ∧ S a b)
    (hfrom : ∀ b, y = .ok b → ∃ a, x = .ok a) : Alike S x y := by
  cases x with
  | ok a =>
      obtain ⟨b, rfl, hab⟩ := hto a rfl
      exact .accepted hab
  | error e =>
      cases y with
      | error e' => exact .refused e e'
      | ok b =>
          obtain ⟨a, ha⟩ := hfrom b rfl
          cases ha

theorem eq_ok_iff {y : Except ε α} (h : Alike Eq x y) (a : α) : x = .ok a ↔ y = .ok a := by
  cases h with
  | refused e e' => simp
  | accepted hab => rw [hab]

theorem mapM {R : α → β → Prop} {f : α → Except ε γ} {g : β → Except ε γ} {xs : List α}
    {ys : List β} (h : List.Forall₂ R xs ys)
    (hfg : ∀ a ∈ xs, ∀ b ∈ ys, R a b → Alike Eq (f a) (g b)) :
    Alike Eq (xs.mapM f) (ys.mapM g) := by
  induction h with
  | nil => exact refl _
  | @cons a b xs ys hab _ ih =>
      rw [List.mapM_cons, List.mapM_cons]
      apply (hfg a List.mem_cons_self b List.mem_cons_self hab).bind
      rintro c _ rfl
      have hrest := ih fun a ha b hb =>
        hfg a (List.mem_cons_of_mem _ ha) b (List.mem_cons_of_mem _ hb)
      exact hrest.bind_eq _

end Alike

end Outcomes

namespace Json

variable {ρ σ α : Type}

section Variants

/-- The fields of a record and how the value of each may be written differently. -/
abbrev Layout := List (String × (Json → Json → Prop))

/-- A field with a value written differently. Undeclared fields keep their values. -/
structure MemberVariant (layout : Layout) (m m' : Member) : Prop where
  key : m.1 = m'.1
  declared : ∀ entry ∈ layout, m.1 = some entry.1 → entry.2 m.2 m'.2
  undeclared : (∀ entry ∈ layout, m.1 ≠ some entry.1) → m.2 = m'.2

theorem memberVariant_of_mem {layout : Layout} (hnames : (layout.map Prod.fst).Nodup)
    {name : String} {R : Json → Json → Prop} (hentry : (name, R) ∈ layout) {v v' : Json}
    (h : R v v') : MemberVariant layout (some name, v) (some name, v') where
  key := rfl
  declared := by
    intro entry hmem hname
    have heq : (name, R) = entry :=
      List.inj_on_of_nodup_map hnames hentry hmem (Option.some.inj hname)
    rw [← heq]
    exact h
  undeclared := fun hnone => absurd rfl (hnone _ hentry)

/-- A field that is not declared, with a value that can be read. -/
def IsExtra (layout : Layout) (m : Member) : Prop :=
  ∃ name, m.1 = some name ∧ (∀ entry ∈ layout, name ≠ entry.1) ∧ (m.2.value? maxLevels).isSome

/-- Items in the places of the fields, with values written differently. -/
inductive ItemsVariant : Layout → List Json → List Json → Prop
  | nil {layout : Layout} : ItemsVariant layout [] []
  | cons {name : String} {R : Json → Json → Prop} {layout : Layout} {v v' : Json}
      {vs vs' : List Json} : R v v' → ItemsVariant layout vs vs' →
      ItemsVariant ((name, R) :: layout) (v :: vs) (v' :: vs')
  | excess {v : Json} {vs : List Json} : ItemsVariant [] (v :: vs) (v :: vs)

/-- A record with its fields in another order, with undeclared fields added and the values of the
declared ones written differently. The fields of an array stay in their places. -/
inductive Rearranged (layout : Layout) : Json → Json → Prop
  | object {members kept extras members' : List Member} :
      List.Forall₂ (MemberVariant layout) members kept → (∀ m ∈ extras, IsExtra layout m) →
      members'.Perm (kept ++ extras) → Rearranged layout (.object members) (.object members')
  | array {items items' : List Json} :
      ItemsVariant layout items items' → Rearranged layout (.array items) (.array items')

/-- A record as it may be written differently. -/
def Variant (layout : Layout) (j j' : Json) : Prop := j = j' ∨ Rearranged layout j j'

/-- A list whose items may be written differently. -/
inductive ListVariant (R : Json → Json → Prop) : Json → Json → Prop
  | same (j : Json) : ListVariant R j j
  | items {items items' : List Json} :
      List.Forall₂ R items items' → ListVariant R (.array items) (.array items')

/-- A map whose values may be written differently. The names keep their order. -/
inductive MapVariant (R : Json → Json → Prop) : Json → Json → Prop
  | same (j : Json) : MapVariant R j j
  | members {members members' : List Member} :
      List.Forall₂ (fun m m' => m.1 = m'.1 ∧ R m.2 m'.2) members members' →
      MapVariant R (.object members) (.object members')

/-- Values are written differently as the layout has it, and are related besides. -/
def Layout.restrict (P : Json → Json → Prop) (layout : Layout) : Layout :=
  layout.map fun entry => (entry.1, fun v v' => entry.2 v v' ∧ P v v')

theorem MemberVariant.restrict {layout : Layout} {P : Json → Json → Prop} {m m' : Member}
    (h : MemberVariant layout m m') (hP : P m.2 m'.2) :
    MemberVariant (layout.restrict P) m m' where
  key := h.key
  declared := by
    simp only [Layout.restrict, List.forall_mem_map]
    exact fun entry hentry hkey => ⟨h.declared entry hentry hkey, hP⟩
  undeclared := by
    simp only [Layout.restrict, List.forall_mem_map]
    exact h.undeclared

theorem ItemsVariant.restrict {layout : Layout} {P : Json → Json → Prop} {items items' : List Json}
    (h : ItemsVariant layout items items') (hP : List.Forall₂ P items items') :
    ItemsVariant (layout.restrict P) items items' := by
  induction h with
  | nil => exact .nil
  | excess => exact .excess
  | cons hv _ ih =>
      cases hP with
      | cons hPv hPrest => exact .cons ⟨hv, hPv⟩ (ih hPrest)

theorem ItemsVariant.length_eq {layout : Layout} {items items' : List Json}
    (h : ItemsVariant layout items items') : items.length = items'.length := by
  induction h with
  | nil => rfl
  | excess => rfl
  | cons _ _ ih => rw [List.length_cons, List.length_cons, ih]

end Variants

section Readability

/-- What is written differently can be read if and only if the other can. -/
def KeepsReadable (R : Json → Json → Prop) : Prop := ∀ v v', R v v' → (Readable v ↔ Readable v')

theorem keepsReadable_eq : KeepsReadable Eq := by
  rintro v _ rfl
  rfl

theorem keepsReadable_listVariant {R : Json → Json → Prop} (hR : KeepsReadable R) :
    KeepsReadable (ListVariant R) := by
  intro v v' h
  cases h with
  | same => rfl
  | items hitems =>
      rw [readable_array_iff, readable_array_iff]
      induction hitems with
      | nil => rfl
      | cons hv _ ih => rw [List.forall_mem_cons, List.forall_mem_cons, hR _ _ hv, ih]

variable {layout : Layout}

theorem MemberVariant.readable_iff (hlayout : ∀ entry ∈ layout, KeepsReadable entry.2)
    {m m' : Member} (h : MemberVariant layout m m') : Readable m.2 ↔ Readable m'.2 := by
  by_cases hdeclared : ∃ entry ∈ layout, m.1 = some entry.1
  · obtain ⟨entry, hentry, hkey⟩ := hdeclared
    exact hlayout entry hentry _ _ (h.declared entry hentry hkey)
  · rw [h.undeclared fun entry hentry hkey => hdeclared ⟨entry, hentry, hkey⟩]

theorem ItemsVariant.readable_iff {items items' : List Json}
    (h : ItemsVariant layout items items') (hlayout : ∀ entry ∈ layout, KeepsReadable entry.2) :
    (∀ v ∈ items, Readable v) ↔ ∀ v ∈ items', Readable v := by
  induction h with
  | nil => rfl
  | excess => rfl
  | cons hv _ ih =>
      rw [List.forall_mem_cons] at hlayout
      rw [List.forall_mem_cons, List.forall_mem_cons, hlayout.1 _ _ hv, ih hlayout.2]

theorem keepsReadable_variant (hlayout : ∀ entry ∈ layout, KeepsReadable entry.2) :
    KeepsReadable (Variant layout) := by
  rintro v v' (rfl | h)
  · rfl
  cases h with
  | array hitems =>
      rw [readable_array_iff, readable_array_iff]
      exact hitems.readable_iff hlayout
  | @object members kept extras members' hkept hextras hperm =>
      have hread : ∀ m ∈ extras, m.1.isSome ∧ Readable m.2 := by
        intro m hm
        obtain ⟨name, hname, _, hvalue⟩ := hextras m hm
        obtain ⟨w, hw⟩ := Option.isSome_iff_exists.mp hvalue
        exact ⟨by rw [hname]; rfl, readable_of_value? hw⟩
      have hiff : (∀ m ∈ members, m.1.isSome ∧ Readable m.2) ↔
          ∀ m ∈ kept, m.1.isSome ∧ Readable m.2 := by
        clear hperm
        induction hkept with
        | nil => rfl
        | cons hm _ ih =>
            rw [List.forall_mem_cons, List.forall_mem_cons, hm.key, hm.readable_iff hlayout, ih]
      rw [readable_object_iff, readable_object_iff, hiff]
      constructor
      · intro h m hm
        rcases List.mem_append.mp (hperm.subset hm) with hm | hm
        · exact h m hm
        · exact hread m hm
      · intro h m hm
        exact h m (hperm.symm.subset (List.mem_append_left _ hm))

end Readability

section Members

variable {fields : List (RecordField ρ σ)}

/-- The same fields have been read, and the records are related. -/
def Matches (S : σ → σ → Prop) (s t : Partial σ) : Prop :=
  (∀ key, key ∈ s.1 ↔ key ∈ t.1) ∧ S s.2 t.2

theorem matches_refl (s : Partial σ) : Matches Eq s s := ⟨fun _ => Iff.rfl, rfl⟩

/-- What two fields store does not overlap. -/
def Commutes (f g : RecordField ρ σ) : Prop :=
  ∀ v w u u', f.read v = .ok u → g.read w = .ok u' → ∀ r, u (u' r) = u' (u r)

instance : Std.Symm (@Commutes ρ σ) where
  symm := fun _ _ h v w u u' hu hu' r => (h w v u' u hu' hu r).symm

theorem commutes_field {β : Type} {name name' : String} {read : Json → Except (Refusal ρ) α}
    {read' : Json → Except (Refusal ρ) β} {set : α → σ → σ} {set' : β → σ → σ}
    (h : ∀ x y r, set x (set' y r) = set' y (set x r)) :
    Commutes (field name read set) (field name' read' set') := by
  intro v w u u' hu hu' r
  obtain ⟨x, _, rfl⟩ := read_field_eq_ok_iff.mp hu
  obtain ⟨y, _, rfl⟩ := read_field_eq_ok_iff.mp hu'
  exact h x y r

/-- Two members that can be read one after the other can be read the other way round. -/
theorem readMember_swap (hfields : fields.Pairwise Commutes) {s t : Partial σ} {m n : Member}
    (h : (readMember fields s m >>= fun s => readMember fields s n) = .ok t) :
    ∃ t', (readMember fields s n >>= fun s => readMember fields s m) = .ok t' ∧
      Matches Eq t t' := by
  simp only [bind_eq_ok_iff] at h ⊢
  obtain ⟨s₁, hm, hn⟩ := h
  obtain ⟨key, v, rfl, ⟨hf, rfl⟩ | ⟨f, u, hf, hkey, hu, rfl⟩⟩ := readMember_cases hm
  · refine ⟨t, ⟨t, hn, readMember_undeclared hf⟩, matches_refl t⟩
  obtain ⟨key', w, rfl, ⟨hg, rfl⟩ | ⟨g, u', hg, hkey', hu', rfl⟩⟩ := readMember_cases hn
  · exact ⟨_, ⟨s, readMember_undeclared hg, hm⟩, matches_refl _⟩
  rw [List.mem_cons, not_or] at hkey'
  have hback : key ∉ key' :: s.1 := by
    rw [List.mem_cons, not_or]
    exact ⟨fun heq => hkey'.1 heq.symm, hkey⟩
  refine ⟨_, ⟨_, readMember_declared hg hkey'.2 hu', readMember_declared hf hback hu⟩, ?_, ?_⟩
  · intro k
    simp only [List.mem_cons]
    tauto
  · -- different keys are those of different fields
    obtain ⟨hfmem, hfname⟩ := name_of_declared? hf
    obtain ⟨hgmem, hgname⟩ := name_of_declared? hg
    have hne : g ≠ f := by
      rintro rfl
      exact hkey'.1 (hgname.symm.trans hfname)
    exact hfields.forall hgmem hfmem hne _ _ _ _ hu' hu s.2

end Members

section Reading

variable {fields : List (RecordField ρ σ)} {layout : Layout} {S : σ → σ → Prop} {levels : Nat}

/-- Related values of a field are stored alike. -/
structure Stores (S : σ → σ → Prop) (f : RecordField ρ σ)
    (entry : String × (Json → Json → Prop)) : Prop where
  name : f.name = entry.1
  read : ∀ v v', entry.2 v v' →
    Alike (fun u u' => ∀ r r', S r r' → S (u r) (u' r')) (f.read v) (f.read v')

/-- Variants of the value of a field, within the levels, are stored alike. -/
structure Agrees (S : σ → σ → Prop) (levels : Nat) (f : RecordField ρ σ)
    (entry : String × (Json → Json → Prop)) : Prop where
  name : f.name = entry.1
  read : ∀ v v', v.isTidy levels → v'.isTidy levels → entry.2 v v' →
    Alike (fun u u' => ∀ r r', S r r' → S (u r) (u' r')) (f.read v) (f.read v')

theorem exists_entry {P : RecordField ρ σ → String × (Json → Json → Prop) → Prop}
    (hlayout : List.Forall₂ P fields layout) {f : RecordField ρ σ} (hf : f ∈ fields) :
    ∃ entry ∈ layout, P f entry := by
  induction hlayout with
  | nil => cases hf
  | cons hfirst _ ih =>
      rcases List.mem_cons.mp hf with rfl | hf
      · exact ⟨_, List.mem_cons_self, hfirst⟩
      · obtain ⟨entry, hentry, hP⟩ := ih hf
        exact ⟨entry, List.mem_cons_of_mem _ hentry, hP⟩

/-- Both are within the levels and have no key twice. -/
def BothTidy (levels : Nat) (v v' : Json) : Prop := v.isTidy levels ∧ v'.isTidy levels

theorem stores_restrict_bothTidy (h : List.Forall₂ (Agrees S levels) fields layout) :
    List.Forall₂ (Stores S) fields (layout.restrict (BothTidy levels)) := by
  rw [Layout.restrict, List.forall₂_map_right_iff]
  exact h.imp fun f entry hagrees =>
    ⟨hagrees.name, fun v v' hv => hagrees.read v v' hv.2.1 hv.2.2 hv.1⟩

theorem forall₂_and {β γ : Type} {P : β → Prop} {Q : γ → Prop} {xs : List β} {ys : List γ}
    (hlength : xs.length = ys.length) (hxs : ∀ x ∈ xs, P x) (hys : ∀ y ∈ ys, Q y) :
    List.Forall₂ (fun x y => P x ∧ Q y) xs ys :=
  List.forall₂_iff_zip.mpr ⟨hlength, fun hxy =>
    ⟨hxs _ (List.of_mem_zip hxy).1, hys _ (List.of_mem_zip hxy).2⟩⟩

/-- Members with one key are read alike if the declared field stores their values alike. -/
theorem alike_readMember {key : Option String} {v v' : Json} {s t : Partial σ}
    (hread : ∀ f ∈ fields, key = some f.name →
      Alike (fun u u' => ∀ r r', S r r' → S (u r) (u' r')) (f.read v) (f.read v'))
    (hst : Matches S s t) :
    Alike (Matches S) (readMember fields s (key, v)) (readMember fields t (key, v')) := by
  cases key with
  | none => exact .refused _ _
  | some key =>
      rw [readMember, readMember]
      cases hf : declared? fields key with
      | none => exact .accepted hst
      | some f =>
          obtain ⟨hmem, rfl⟩ := name_of_declared? hf
          dsimp only
          by_cases hkey : f.name ∈ s.1
          · rw [if_pos hkey, if_pos ((hst.1 _).mp hkey)]
            exact .refused _ _
          · rw [if_neg hkey, if_neg fun hkey' => hkey ((hst.1 _).mpr hkey')]
            apply (hread f hmem rfl).map
            intro u u' hu
            refine ⟨fun k => ?_, hu _ _ hst.2⟩
            rw [List.mem_cons, List.mem_cons, hst.1]

/-- Fields with related values, in the same order, are read alike. -/
theorem alike_readFields_of_stores (hlayout : List.Forall₂ (Stores S) fields layout)
    {members members' : List Member} (h : List.Forall₂ (MemberVariant layout) members members')
    {s t : Partial σ} (hst : Matches S s t) :
    Alike S (readFields fields s.1 s.2 members) (readFields fields t.1 t.2 members') := by
  induction h generalizing s t with
  | nil => exact .accepted hst.2
  | @cons m m' rest rest' hmember _ ih =>
      obtain ⟨key, v⟩ := m
      obtain ⟨_, v'⟩ := m'
      obtain rfl : key = _ := hmember.key
      rw [readFields_cons, readFields_cons]
      have hread : ∀ f ∈ fields, key = some f.name →
          Alike (fun u u' => ∀ r r', S r r' → S (u r) (u' r')) (f.read v) (f.read v') := by
        intro f hf hkey
        obtain ⟨entry, hentry, hstores⟩ := exists_entry hlayout hf
        rw [hstores.name] at hkey
        exact hstores.read v v' (hmember.declared entry hentry hkey)
      apply (alike_readMember hread hst).bind
      intro s t hst
      exact ih hst

/-- Fields and their variants, in the same order, are read alike. -/
theorem alike_readFields (hlayout : List.Forall₂ (Agrees S levels) fields layout)
    {members members' : List Member} (h : List.Forall₂ (MemberVariant layout) members members')
    (hm : ∀ m ∈ members, m.2.isTidy levels) (hm' : ∀ m ∈ members', m.2.isTidy levels)
    {s t : Partial σ} (hst : Matches S s t) :
    Alike S (readFields fields s.1 s.2 members) (readFields fields t.1 t.2 members') := by
  have htidy : List.Forall₂ (MemberVariant (layout.restrict (BothTidy levels))) members members' :=
    .mp (fun _ _ hboth hmember => hmember.restrict hboth) (forall₂_and h.length_eq hm hm') h
  exact alike_readFields_of_stores (stores_restrict_bothTidy hlayout) htidy hst

theorem alike_readFields_self {s t : Partial σ} (hst : Matches Eq s t) (members : List Member) :
    Alike Eq (readFields fields s.1 s.2 members) (readFields fields t.1 t.2 members) := by
  induction members generalizing s t with
  | nil => exact .accepted hst.2
  | cons m rest ih =>
      rw [readFields_cons, readFields_cons]
      apply (alike_readMember (fun f _ _ => .of_refl ?_ _) hst).bind
      · intro s t hst
        exact ih hst
      · rintro u r _ rfl
        rfl

/-- The order of the fields does not matter. Two that change places leave the same record and the
same fields behind them, though not in the same order. -/
theorem alike_readFields_of_perm (hfields : fields.Pairwise Commutes)
    {members members' : List Member} (h : members.Perm members') (s : Partial σ) :
    Alike Eq (readFields fields s.1 s.2 members) (readFields fields s.1 s.2 members') := by
  induction h generalizing s with
  | nil => exact .accepted rfl
  | cons m _ ih =>
      rw [readFields_cons, readFields_cons]
      apply (Alike.refl (readMember fields s m)).bind
      rintro t _ rfl
      exact ih t
  | swap m n rest =>
      have htwo (m n : Member) : readFields fields s.1 s.2 (m :: n :: rest) =
          (readMember fields s m >>= fun s => readMember fields s n) >>= fun s =>
            readFields fields s.1 s.2 rest := by
        rw [readFields_cons, bind_assoc]
        simp only [readFields_cons]
      rw [htwo, htwo]
      have hswap : Alike (Matches Eq) (readMember fields s n >>= fun s => readMember fields s m)
          (readMember fields s m >>= fun s => readMember fields s n) := by
        apply Alike.of_ok fun t ht => readMember_swap hfields ht
        intro t ht
        obtain ⟨t', ht', _⟩ := readMember_swap hfields ht
        exact ⟨t', ht'⟩
      exact hswap.bind fun s t hst => alike_readFields_self hst rest
  | trans _ _ ih ih' => exact (ih s).trans_eq (ih' s)

/-- Undeclared members at the end change nothing. -/
theorem readFields_append_undeclared {extras : List Member}
    (hextras : ∀ m ∈ extras, ∃ name, m.1 = some name ∧ declared? fields name = none)
    (s : Partial σ) (members : List Member) :
    readFields fields s.1 s.2 (members ++ extras) = readFields fields s.1 s.2 members := by
  induction members generalizing s with
  | cons m rest ih =>
      rw [List.cons_append, readFields_cons, readFields_cons]
      simp only [ih]
  | nil =>
      induction extras with
      | nil => rfl
      | cons m rest ih =>
          obtain ⟨key, v⟩ := m
          rw [List.forall_mem_cons] at hextras
          obtain ⟨⟨name, rfl, hname⟩, hrest⟩ := hextras
          rw [List.nil_append, readFields_cons, readMember_undeclared hname]
          exact ih hrest

/-- Items in the places of the fields are read alike. -/
theorem alike_readItems_of_stores (hlayout : List.Forall₂ (Stores S) fields layout)
    {items items' : List Json} (h : ItemsVariant layout items items') {r r' : σ} (hr : S r r') :
    Alike S (readItems r fields items) (readItems r' fields items') := by
  induction h generalizing fields r r' with
  | nil =>
      rw [readItems, readItems]
      exact .accepted hr
  | excess =>
      cases hlayout
      exact .refused _ _
  | cons hv _ ih =>
      cases hlayout with
      | cons hstores hlayout =>
          rw [readItems_cons, readItems_cons]
          apply (hstores.read _ _ hv).bind
          intro u u' hu
          exact ih hlayout (hu r r' hr)

theorem alike_readItems (hlayout : List.Forall₂ (Agrees S levels) fields layout)
    {items items' : List Json} (h : ItemsVariant layout items items')
    (hitems : ∀ v ∈ items, v.isTidy levels) (hitems' : ∀ v ∈ items', v.isTidy levels) {r r' : σ}
    (hr : S r r') : Alike S (readItems r fields items) (readItems r' fields items') :=
  alike_readItems_of_stores (stores_restrict_bothTidy hlayout)
    (h.restrict (forall₂_and h.length_eq hitems hitems')) hr

/-- A record and its variants are read alike. -/
theorem alike_readRecord {fields : Nat → List (RecordField ρ σ)} {start : σ} {j j' : Json}
    (h : Rearranged layout j j') (hlayout : ∀ n, levels = n + 1 →
      List.Forall₂ (Agrees S n) (fields n) layout ∧ (fields n).Pairwise Commutes)
    (hstart : S start start) (hj : j.isTidy levels) (hj' : j'.isTidy levels) :
    Alike S (readRecord levels fields start j) (readRecord levels fields start j') := by
  cases h with
  | array hitems =>
      obtain ⟨n, rfl, hv⟩ := isTidy_array_iff.mp hj
      obtain ⟨_, ⟨⟩, hv'⟩ := isTidy_array_iff.mp hj'
      obtain ⟨hagrees, _⟩ := hlayout n rfl
      exact alike_readItems hagrees hitems hv hv' hstart
  | @object members kept extras members' hkept hextras hperm =>
      obtain ⟨n, rfl, _, hm⟩ := isTidy_object_iff.mp hj
      obtain ⟨_, ⟨⟩, _, hm'⟩ := isTidy_object_iff.mp hj'
      obtain ⟨hagrees, hcommutes⟩ := hlayout n rfl
      have hstarts : Matches S ([], start) ([], start) := ⟨fun _ => Iff.rfl, hstart⟩
      have htidy : ∀ m ∈ kept, m.2.isTidy n := fun m hm =>
        hm' m (hperm.symm.subset (List.mem_append_left _ hm))
      have hundeclared : ∀ m ∈ extras,
          ∃ name, m.1 = some name ∧ declared? (fields n) name = none := by
        intro m hm
        obtain ⟨name, hname, hnew, _⟩ := hextras m hm
        refine ⟨name, hname, List.find?_eq_none.mpr ?_⟩
        intro f hf heq
        obtain ⟨entry, hentry, hagrees⟩ := exists_entry hagrees hf
        apply hnew entry hentry
        rw [← hagrees.name]
        exact (by simpa using heq : f.name = name).symm
      -- first the variants in the old order, then the extras behind them, then the new order
      have hread := alike_readFields hagrees hkept hm htidy hstarts
      rw [← readFields_append_undeclared hundeclared ([], start) kept] at hread
      exact hread.trans_eq (alike_readFields_of_perm hcommutes hperm.symm ([], start))

end Reading

section Readers

/-- Variants within the levels are read alike. -/
def Respects (R : Json → Json → Prop) (read : Nat → Json → Except (Refusal ρ) α) : Prop :=
  ∀ levels j j', j.isTidy levels → j'.isTidy levels → R j j' →
    Alike Eq (read levels j) (read levels j')

variable {R : Json → Json → Prop} {layout : Layout} {read : Nat → Json → Except (Refusal ρ) α}

theorem agrees_field (h : Respects R read) (levels : Nat) (name : String) (set : α → σ → σ) :
    Agrees Eq levels (field name (read levels) set) (name, R) where
  name := rfl
  read := by
    intro v v' hv hv' hR
    apply (h levels v v' hv hv' hR).map
    rintro x _ rfl r _ rfl
    rfl

theorem respects_eq (read : Nat → Json → Except (Refusal ρ) α) : Respects Eq read := by
  rintro levels j _ _ _ rfl
  exact .refl _

theorem respects_readRecord {fields : Nat → List (RecordField ρ σ)} (start : σ)
    (hlayout : ∀ n, List.Forall₂ (Agrees Eq n) (fields n) layout)
    (hcommutes : ∀ n, (fields n).Pairwise Commutes) :
    Respects (Variant layout) fun levels => readRecord levels fields start := by
  rintro levels j j' hj hj' (rfl | h)
  · exact .refl _
  · exact alike_readRecord h (fun n _ => ⟨hlayout n, hcommutes n⟩) rfl hj hj'

theorem Respects.bind {β : Type} {f : α → Except (Refusal ρ) β} (h : Respects R read) :
    Respects R fun levels j => read levels j >>= f := by
  intro levels j j' hj hj' hR
  exact (h levels j j' hj hj' hR).bind_eq f

theorem respects_readList (h : Respects R read) :
    Respects (ListVariant R) fun levels => readList levels read := by
  intro levels j j' hj hj' hR
  cases hR with
  | same => exact .refl _
  | items hitems =>
      obtain ⟨n, rfl, hv⟩ := isTidy_array_iff.mp hj
      obtain ⟨_, ⟨⟩, hv'⟩ := isTidy_array_iff.mp hj'
      exact Alike.mapM hitems fun v hmem v' hmem' => h n v v' (hv v hmem) (hv' v' hmem')

theorem readOptional_of_rearranged {read : Json → Except (Refusal ρ) α} {j j' : Json}
    (h : Rearranged layout j j') : readOptional read j = (read j).map some ∧
      readOptional read j' = (read j').map some := by
  cases h <;> exact ⟨rfl, rfl⟩

theorem respects_readOptional (h : Respects (Variant layout) read) :
    Respects (Variant layout) fun levels => readOptional (read levels) := by
  rintro levels j j' hj hj' (rfl | hR)
  · exact .refl _
  · dsimp only
    rw [(readOptional_of_rearranged hR).1, (readOptional_of_rearranged hR).2]
    exact (h levels j j' hj hj' (Or.inr hR)).map_eq some

theorem alike_readEntries {read : Json → Except (Refusal ρ) α} {members members' : List Member}
    (h : List.Forall₂ (fun m m' => m.1 = m'.1 ∧ R m.2 m'.2) members members')
    (hread : ∀ m ∈ members, ∀ m' ∈ members', R m.2 m'.2 → Alike Eq (read m.2) (read m'.2))
    (entries : List (String × α)) :
    Alike Eq (readEntries read entries members) (readEntries read entries members') := by
  induction h generalizing entries with
  | nil => exact .accepted rfl
  | @cons m m' rest rest' hm _ ih =>
      obtain ⟨key, v⟩ := m
      obtain ⟨_, v'⟩ := m'
      obtain ⟨rfl, hR⟩ : key = _ ∧ R v v' := hm
      cases key with
      | none => exact .refused _ _
      | some key =>
          rw [readEntries_cons, readEntries_cons]
          apply (hread _ List.mem_cons_self _ List.mem_cons_self hR).bind
          rintro a _ rfl
          apply ih
          intro m hm m' hm'
          exact hread m (List.mem_cons_of_mem _ hm) m' (List.mem_cons_of_mem _ hm')

theorem respects_readMap (h : Respects R read) :
    Respects (MapVariant R) fun levels => readMap levels read := by
  intro levels j j' hj hj' hR
  cases hR with
  | same => exact .refl _
  | members hmembers =>
      obtain ⟨n, rfl, _, hm⟩ := isTidy_object_iff.mp hj
      obtain ⟨_, ⟨⟩, _, hm'⟩ := isTidy_object_iff.mp hj'
      apply alike_readEntries hmembers
      intro m hmem m' hmem'
      exact h n _ _ (hm m hmem) (hm' m' hmem')

end Readers

end Json

end Schematic
