import Schematic.Proofs.Json.Respelling

/-!
# Records respelled in some of their fields

A layout says in which fields of a record another value may stand; everything else stays as and
where it is. If the two trees are respelled, and the fields are those that are read by the text of a
scalar, they are read alike. That holds as well for trees that were first read as plain values, in
which a repeated key has its last value.
-/

namespace Schematic.Json

variable {ρ σ α β : Type}

/-- Any value in place of any other. -/
def Any (_ _ : Json) : Prop := True

/-- A record with other values in the fields of a layout. The fields stay where they are. -/
inductive InPlace (layout : Layout) : Json → Json → Prop
  | same (j : Json) : InPlace layout j j
  | object {members members' : List Member} :
      List.Forall₂ (MemberVariant layout) members members' →
      InPlace layout (.object members) (.object members')
  | array {items items' : List Json} :
      ItemsVariant layout items items' → InPlace layout (.array items) (.array items')

section Options

variable {R : α → α → Prop} {S : β → β → Prop} {x y : Option α}

theorem rel_refl (h : ∀ a, R a a) (x : Option α) : Option.Rel R x x := by
  cases x with
  | none => exact .none
  | some a => exact .some (h a)

theorem rel_imp {R' : α → α → Prop} (h : Option.Rel R x y) (himp : ∀ a b, R a b → R' a b) :
    Option.Rel R' x y := by
  cases h with
  | none => exact .none
  | some hab => exact .some (himp _ _ hab)

theorem rel_and {R' : α → α → Prop} (h : Option.Rel R x y) (h' : Option.Rel R' x y) :
    Option.Rel (fun a b => R a b ∧ R' a b) x y := by
  cases h with
  | none => exact .none
  | some hab =>
      cases h' with
      | some hab' => exact .some ⟨hab, hab'⟩

theorem rel_bind {f g : α → Option β} (h : Option.Rel R x y)
    (hfg : ∀ a b, R a b → Option.Rel S (f a) (g b)) : Option.Rel S (x >>= f) (y >>= g) := by
  cases h with
  | none => exact .none
  | some hab => exact hfg _ _ hab

theorem rel_map {f g : α → β} (h : Option.Rel R x y) (hfg : ∀ a b, R a b → S (f a) (g b)) :
    Option.Rel S (x.map f) (y.map g) := by
  cases h with
  | none => exact .none
  | some hab => exact .some (hfg _ _ hab)

theorem alike_require (h : Option.Rel R x y) :
    Alike R (require x : Except (Refusal ρ) α) (require y) := by
  cases h with
  | none => exact .refused _ _
  | some hab => exact .accepted hab

end Options

section Values

variable {read : Json → Option Json} {M : Member → Member → Prop} {members members' : List Member}

theorem rel_mapM {T : Json → Json → Prop} {items items' : List Json}
    (h : List.Forall₂ (fun v v' => Option.Rel T (read v) (read v')) items items') :
    Option.Rel (List.Forall₂ T) (items.mapM read) (items'.mapM read) := by
  induction h with
  | nil => exact .some .nil
  | cons hv _ ih =>
      rw [List.mapM_cons, List.mapM_cons]
      apply rel_bind hv
      intro w w' hw
      apply rel_bind ih
      intro ws ws' hws
      exact .some (.cons hw hws)

theorem readMembers_cons (key : String) (v : Json) (rest : List Member) :
    readMembers read ((some key, v) :: rest) =
      read v >>= fun w => (readMembers read rest).map ((some key, w) :: ·) := by
  cases h : read v <;> simp [readMembers, h]

theorem rel_readMembers (h : List.Forall₂ (fun m m' => m.1 = m'.1 ∧
      Option.Rel (fun w w' => M (m.1, w) (m.1, w')) (read m.2) (read m'.2)) members members') :
    Option.Rel (List.Forall₂ M) (readMembers read members) (readMembers read members') := by
  induction h with
  | nil => exact .some .nil
  | @cons m m' rest rest' hm _ ih =>
      obtain ⟨key, v⟩ := m
      obtain ⟨_, v'⟩ := m'
      obtain ⟨rfl, hread⟩ : key = _ ∧ _ := hm
      cases key with
      | none => exact .none
      | some key =>
          rw [readMembers_cons, readMembers_cons]
          apply rel_bind hread
          intro w w' hw
          exact rel_map ih fun ws ws' hws => .cons hw hws

/-- The last members of every key stand in the same places if the keys do. -/
theorem forall₂_lastWins (h : List.Forall₂ M members members')
    (hkey : ∀ m m', M m m' → m.1 = m'.1) :
    List.Forall₂ M (lastWins members) (lastWins members') := by
  induction h with
  | nil => exact .nil
  | @cons m m' rest rest' hm hrest ih =>
      have hany : rest.any (·.1 == m.1) = rest'.any (·.1 == m'.1) := by
        clear ih
        rw [hkey m m' hm]
        induction hrest with
        | nil => rfl
        | cons hn _ ih => rw [List.any_cons, List.any_cons, hkey _ _ hn, ih]
      rw [lastWins, lastWins, hany]
      split
      case isTrue => exact ih
      case isFalse => exact .cons hm ih

theorem value?_ofText (levels : Nat) (s : String) :
    (ofText s).value? levels = some (ofText s) := by
  rw [ofText, value?]
  rfl

theorem Scalar.value?_eq {v : Json} {s : String} (h : Scalar v s) (levels : Nat) :
    v.value? levels = some v := by
  cases h with
  | @integer k hlow hhigh =>
      have hreadable : (Numeral.ofInt k).isReadable = true := by
        rw [Numeral.isReadable, Numeral.isWord_ofInt hlow hhigh, Bool.true_or]
      rw [value?, if_pos hreadable]
  | flag b => rw [value?]

/-- Respelled trees have respelled values. -/
theorem respelled_value? (levels : Nat) {v v' : Json} (h : Respelled v v') :
    Option.Rel Respelled (v.value? levels) (v'.value? levels) := by
  induction levels generalizing v v' with
  | zero =>
      cases h with
      | same => exact rel_refl .same _
      | scalar hv =>
          rw [hv.value?_eq, value?_ofText]
          exact .some (.scalar hv)
      | array _ => exact .none
      | object _ => exact .none
  | succ n ih =>
      cases h with
      | same => exact rel_refl .same _
      | scalar hv =>
          rw [hv.value?_eq, value?_ofText]
          exact .some (.scalar hv)
      | array hitems =>
          rw [value?, value?]
          exact rel_map (rel_mapM (hitems.imp fun _ _ => ih)) fun _ _ => .array
      | object hmembers =>
          rw [value?, value?]
          have hread : Option.Rel (List.Forall₂ (Keyed Respelled)) _ _ :=
            rel_readMembers (hmembers.imp fun m _ hm =>
              ⟨hm.key, rel_imp (ih hm.value) fun _ _ => .mk m.1⟩)
          exact rel_map hread fun _ _ h => .object (forall₂_lastWins h fun _ _ => Keyed.key)

end Values

section Kept

/-- What relates two respelled trees also relates their values. -/
def KeepsValue (R : Json → Json → Prop) : Prop := ∀ levels v v', R v v' → Respelled v v' →
  Option.Rel R (v.value? levels) (v'.value? levels)

theorem keepsValue_any : KeepsValue Any := fun levels _ _ _ h =>
  rel_imp (respelled_value? levels h) fun _ _ _ => trivial

theorem keepsValue_eq : KeepsValue Eq := by
  rintro levels v _ rfl _
  exact rel_refl (fun _ => rfl) _

theorem keepsValue_listVariant {R : Json → Json → Prop} (hR : KeepsValue R) :
    KeepsValue (ListVariant R) := by
  intro levels v v' h hspelled
  cases h with
  | same => exact rel_refl .same _
  | items hitems =>
      cases levels with
      | zero => exact .none
      | succ n =>
          rw [value?, value?]
          have hread := rel_mapM (.mp (hR n) hitems (respelled_array_iff.mp hspelled))
          exact rel_map hread fun _ _ => .items

variable {layout : Layout}

theorem ItemsVariant.refl_nil (items : List Json) : ItemsVariant [] items items := by
  cases items with
  | nil => exact .nil
  | cons v rest => exact .excess

theorem ItemsVariant.rel_mapM {items items' : List Json} (h : ItemsVariant layout items items')
    (hspelled : List.Forall₂ Respelled items items')
    (hlayout : ∀ entry ∈ layout, KeepsValue entry.2) (levels : Nat) :
    Option.Rel (ItemsVariant layout) (items.mapM (value? levels))
      (items'.mapM (value? levels)) := by
  induction h with
  | nil => exact .some .nil
  | excess => exact rel_refl refl_nil _
  | cons hv _ ih =>
      rw [List.forall_mem_cons] at hlayout
      cases hspelled with
      | cons hvspelled hspelled =>
          rw [List.mapM_cons, List.mapM_cons]
          apply rel_bind (hlayout.1 levels _ _ hv hvspelled)
          intro w w' hw
          apply rel_bind (ih hspelled hlayout.2)
          intro ws ws' hws
          exact .some (.cons hw hws)

theorem MemberVariant.rel_value? (hlayout : ∀ entry ∈ layout, KeepsValue entry.2) (levels : Nat)
    {m m' : Member} (h : MemberVariant layout m m') (hspelled : Respelled m.2 m'.2) :
    Option.Rel (fun w w' => MemberVariant layout (m.1, w) (m.1, w')) (m.2.value? levels)
      (m'.2.value? levels) := by
  have hdeclared : ∀ entry ∈ layout, m.1 = some entry.1 →
      Option.Rel entry.2 (m.2.value? levels) (m'.2.value? levels) := fun entry hentry hkey =>
    hlayout entry hentry levels _ _ (h.declared entry hentry hkey) hspelled
  have hundeclared : (∀ entry ∈ layout, m.1 ≠ some entry.1) →
      m.2.value? levels = m'.2.value? levels := fun hnone => by rw [h.undeclared hnone]
  have hvalues := respelled_value? levels hspelled
  generalize m.2.value? levels = x, m'.2.value? levels = y at hdeclared hundeclared hvalues ⊢
  cases hvalues with
  | none => exact .none
  | some _ =>
      refine .some ⟨rfl, fun entry hentry hkey => ?_,
        fun hnone => Option.some.inj (hundeclared hnone)⟩
      cases hdeclared entry hentry hkey with
      | some hentries => exact hentries

theorem keepsValue_inPlace (hlayout : ∀ entry ∈ layout, KeepsValue entry.2) :
    KeepsValue (InPlace layout) := by
  intro levels v v' h hspelled
  cases h with
  | same => exact rel_refl .same _
  | array hitems =>
      cases levels with
      | zero => exact .none
      | succ n =>
          rw [value?, value?]
          exact rel_map (hitems.rel_mapM (respelled_array_iff.mp hspelled) hlayout n)
            fun _ _ => .array
  | object hmembers =>
      cases levels with
      | zero => exact .none
      | succ n =>
          rw [value?, value?]
          have hread := rel_readMembers (.mp (fun _ _ hm hv =>
            ⟨hm.key, hm.rel_value? hlayout n hv.value⟩) hmembers (respelled_object_iff.mp hspelled))
          exact rel_map hread fun _ _ h => .object (forall₂_lastWins h fun _ _ h => h.key)

end Kept

section Readers

/-- Respelled trees that are related are read alike. -/
def Follows (R : Json → Json → Prop) (read : Nat → Json → Except (Refusal ρ) α) : Prop :=
  ∀ levels j j', R j j' → Respelled j j' → Alike Eq (read levels j) (read levels j')

variable {R : Json → Json → Prop} {layout : Layout} {read : Nat → Json → Except (Refusal ρ) α}

theorem follows_eq (read : Nat → Json → Except (Refusal ρ) α) : Follows Eq read := by
  rintro levels j _ rfl _
  exact .refl _

theorem Scalar.readScalar_eq {v : Json} {s : String} (h : Scalar v s) :
    (readScalar v : Except (Refusal ρ) String) = .ok s := by
  cases h with
  | integer hlow hhigh => rw [readScalar, Numeral.text?_ofInt hlow hhigh]
  | flag b => rfl

/-- A scalar and its text are read as the same. -/
theorem readScalar_of_respelled {v v' : Json} (h : Respelled v v') :
    (readScalar v : Except (Refusal ρ) String) = readScalar v' := by
  cases h with
  | same => rfl
  | scalar hv => exact hv.readScalar_eq
  | array _ => rfl
  | object _ => rfl

theorem readLabel_of_respelled {v v' : Json} (h : Respelled v v') :
    (readLabel v : Except (Refusal ρ) (Option String)) = readLabel v' := by
  have hscalar : (readScalar v : Except (Refusal ρ) String) = readScalar v' :=
    readScalar_of_respelled h
  cases h with
  | same => rfl
  | scalar hv => cases hv <;> simp only [readLabel, readOptional, ofText, hscalar]
  | array _ => rfl
  | object _ => rfl

theorem follows_readScalar :
    Follows Any fun _ j => (readScalar j : Except (Refusal ρ) String) := by
  intro levels j j' _ h
  dsimp only
  rw [readScalar_of_respelled h]
  exact .refl _

theorem follows_readLabel :
    Follows Any fun _ j => (readLabel j : Except (Refusal ρ) (Option String)) := by
  intro levels j j' _ h
  dsimp only
  rw [readLabel_of_respelled h]
  exact .refl _

theorem stores_field (h : Follows R read) (levels : Nat) (name : String) (set : α → σ → σ) :
    Stores Eq (field name (read levels) set) (name, fun v v' => R v v' ∧ Respelled v v') where
  name := rfl
  read := by
    rintro v v' ⟨hR, hspelled⟩
    apply (h levels v v' hR hspelled).map
    rintro x _ rfl r _ rfl
    rfl

/-- A record and the same with other values in place are read alike. -/
theorem alike_readRecord_of_inPlace {S : σ → σ → Prop} {fields : Nat → List (RecordField ρ σ)}
    {j j' : Json} (h : InPlace layout j j') (hspelled : Respelled j j')
    (hlayout : ∀ n, List.Forall₂ (Stores S) (fields n) (layout.restrict Respelled))
    (hrefl : ∀ r, S r r) (levels : Nat) (start : σ) :
    Alike S (readRecord levels fields start j) (readRecord levels fields start j') := by
  cases h with
  | same => exact .of_refl hrefl _
  | object hmembers =>
      cases levels with
      | zero => exact .refused _ _
      | succ n =>
          have hrestricted : List.Forall₂ (MemberVariant (layout.restrict Respelled)) _ _ :=
            .mp (fun _ _ hm hv => hm.restrict hv.value) hmembers
              (respelled_object_iff.mp hspelled)
          exact alike_readFields_of_stores (hlayout n) hrestricted (s := ([], start))
            (t := ([], start)) ⟨fun _ => Iff.rfl, hrefl start⟩
  | array hitems =>
      cases levels with
      | zero => exact .refused _ _
      | succ n =>
          exact alike_readItems_of_stores (hlayout n)
            (hitems.restrict (respelled_array_iff.mp hspelled)) (hrefl start)

theorem follows_readRecord {fields : Nat → List (RecordField ρ σ)} (start : σ)
    (hlayout : ∀ n, List.Forall₂ (Stores Eq) (fields n) (layout.restrict Respelled)) :
    Follows (InPlace layout) fun levels => readRecord levels fields start :=
  fun levels _ _ h hspelled =>
    alike_readRecord_of_inPlace h hspelled hlayout (fun _ => rfl) levels start

theorem Follows.bind {f : α → Except (Refusal ρ) β} (h : Follows R read) :
    Follows R fun levels j => read levels j >>= f :=
  fun levels j j' hR hspelled => (h levels j j' hR hspelled).bind_eq f

theorem follows_readList (h : Follows R read) :
    Follows (ListVariant R) fun levels => readList levels read := by
  intro levels j j' hR hspelled
  cases hR with
  | same => exact .refl _
  | items hitems =>
      cases levels with
      | zero => exact .refused _ _
      | succ n =>
          have hread := List.Forall₂.mp (h n) hitems (respelled_array_iff.mp hspelled)
          exact Alike.mapM hread fun _ _ _ _ h => h

theorem follows_readOptional (h : Follows (InPlace layout) read) :
    Follows (InPlace layout) fun levels => readOptional (read levels) := by
  intro levels j j' hR hspelled
  have hread := (h levels j j' hR hspelled).map_eq some
  cases hR with
  | same => exact .refl _
  | object _ => exact hread
  | array _ => exact hread

theorem follows_readMap (h : Follows R read) :
    Follows (MapVariant R) fun levels => readMap levels read := by
  intro levels j j' hR hspelled
  cases hR with
  | same => exact .refl _
  | members hmembers =>
      cases levels with
      | zero => exact .refused _ _
      | succ n =>
          apply alike_readEntries (R := fun v v' => Alike Eq (read n v) (read n v'))
          · exact .mp (fun _ _ hm hv => ⟨hm.1, h n _ _ hm.2 hv.value⟩) hmembers
              (respelled_object_iff.mp hspelled)
          · exact fun _ _ _ _ h => h

end Readers

end Schematic.Json
