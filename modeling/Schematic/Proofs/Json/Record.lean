import Schematic.Json.Record
import Schematic.Proofs.Outcome
import Mathlib.Data.List.Nodup

/-!
# How records are read

Whether a record is an object or an array, it is read field by field. A field that is not declared
changes nothing; one that is declared, and was not read before, changes the record by what is read
from its value. All that is known of a record that was read follows from these two steps.
-/

namespace Schematic.Json

variable {ρ σ α : Type}

/-- The fields of a record as written: the members of an object, or the items of an array under the
names of the fields in whose places they stand. -/
def written (names : List String) : Json → List Member
  | .object members => members
  | .array items => (names.map some).zip items
  | _ => []

/-- The declared field of a name. -/
def declared? (fields : List (RecordField ρ σ)) (name : String) : Option (RecordField ρ σ) :=
  fields.find? (·.name == name)

theorem read_field_eq_ok_iff {name : String} {read : Json → Except (Refusal ρ) α}
    {set : α → σ → σ} {v : Json} {u : σ → σ} :
    (field name read set).read v = .ok u ↔ ∃ x, read v = .ok x ∧ set x = u :=
  map_eq_ok_iff

theorem name_of_declared? {fields : List (RecordField ρ σ)} {name : String}
    {f : RecordField ρ σ} (h : declared? fields name = some f) : f ∈ fields ∧ f.name = name :=
  ⟨List.mem_of_find?_eq_some h, by simpa using List.find?_some h⟩

theorem declared?_of_mem {fields : List (RecordField ρ σ)}
    (hnames : (fields.map RecordField.name).Nodup) {f : RecordField ρ σ} (hf : f ∈ fields) :
    declared? fields f.name = some f := by
  cases h : declared? fields f.name with
  | none =>
      have hnone := List.find?_eq_none.mp h f hf
      simp at hnone
  | some g =>
      obtain ⟨hg, hname⟩ := name_of_declared? h
      rw [List.inj_on_of_nodup_map hnames hg hf hname]

theorem require_eq_ok_iff {x : Option α} {a : α} :
    (require x : Except (Refusal ρ) α) = .ok a ↔ x = some a := by
  cases x <;> simp [require]

theorem eq_ofText_of_readText {v : Json} {s : String}
    (h : (readText v : Except (Refusal ρ) String) = .ok s) : v = ofText s := by
  unfold readText at h
  split at h
  case h_1 => rw [Except.ok.inj h, ofText]
  case h_2 => cases h

section Members

variable {fields : List (RecordField ρ σ)}

/-- The declared fields read before, and the record so far. -/
abbrev Partial (σ : Type) := List String × σ

/-- Reads one member into a record. -/
def readMember (fields : List (RecordField ρ σ)) (s : Partial σ) :
    Member → Except (Refusal ρ) (Partial σ)
  | (none, _) => .error .malformed
  | (some key, v) =>
    match declared? fields key with
    | none => .ok s
    | some f =>
      if key ∈ s.1 then .error .malformed else (f.read v).map fun u => (key :: s.1, u s.2)

theorem readFields_cons (s : Partial σ) (m : Member) (rest : List Member) :
    readFields fields s.1 s.2 (m :: rest) =
      readMember fields s m >>= fun s => readFields fields s.1 s.2 rest := by
  obtain ⟨key, v⟩ := m
  cases key with
  | none => rfl
  | some key =>
      cases hf : fields.find? (·.name == key) with
      | none =>
          simp only [readFields, readMember, declared?, hf]
          rfl
      | some f =>
          simp only [readFields, readMember, declared?, hf]
          split
          case isTrue => rfl
          case isFalse => cases f.read v <;> rfl

theorem readMember_undeclared {s : Partial σ} {key : String} {v : Json}
    (h : declared? fields key = none) : readMember fields s (some key, v) = .ok s := by
  simp only [readMember, h]

theorem readMember_declared {s : Partial σ} {key : String} {v : Json} {f : RecordField ρ σ}
    {u : σ → σ} (h : declared? fields key = some f) (hnew : key ∉ s.1) (hu : f.read v = .ok u) :
    readMember fields s (some key, v) = .ok (key :: s.1, u s.2) := by
  simp only [readMember, h, if_neg hnew, hu]
  rfl

theorem readItems_cons (r : σ) (f : RecordField ρ σ) (fields : List (RecordField ρ σ)) (v : Json)
    (rest : List Json) : readItems r (f :: fields) (v :: rest) =
      f.read v >>= fun u => readItems (u r) fields rest := by
  rw [readItems]
  cases f.read v <;> rfl

/-- What reading a member can do. -/
theorem readMember_cases {s t : Partial σ} {m : Member} (h : readMember fields s m = .ok t) :
    ∃ key v, m = (some key, v) ∧ ((declared? fields key = none ∧ t = s) ∨
      ∃ f u, declared? fields key = some f ∧ key ∉ s.1 ∧ f.read v = .ok u ∧
        t = (key :: s.1, u s.2)) := by
  obtain ⟨key, v⟩ := m
  cases key with
  | none => cases h
  | some key =>
      refine ⟨key, v, rfl, ?_⟩
      rw [readMember] at h
      split at h
      case h_1 hf => exact Or.inl ⟨hf, (Except.ok.inj h).symm⟩
      case h_2 f hf =>
        split at h
        case isTrue => cases h
        case isFalse hnew =>
          obtain ⟨u, hu, rfl⟩ := map_eq_ok_iff.mp h
          exact Or.inr ⟨f, u, hf, hnew, hu, rfl⟩

end Members

section Reading

variable {fields : List (RecordField ρ σ)} {start : σ}

/-- A record comes about from fields that have been read, in this order. -/
inductive Filled (fields : List (RecordField ρ σ)) (start : σ) : List Member → σ → Prop
  | start : Filled fields start [] start
  | skip {done : List Member} {r : σ} {key : String} {v : Json} :
      Filled fields start done r → declared? fields key = none →
      Filled fields start (done ++ [(some key, v)]) r
  | read {done : List Member} {r : σ} {key : String} {v : Json} {f : RecordField ρ σ}
      {u : σ → σ} :
      Filled fields start done r → declared? fields key = some f →
      (∀ w, (some key, w) ∉ done) → f.read v = .ok u →
      Filled fields start (done ++ [(some key, v)]) (u r)

theorem filled_readFields {done members : List Member} {s : Partial σ} {r : σ}
    (hfilled : Filled fields start done s.2)
    (hseen : ∀ key w, (some key, w) ∈ done → (declared? fields key).isSome → key ∈ s.1)
    (h : readFields fields s.1 s.2 members = .ok r) :
    Filled fields start (done ++ members) r := by
  induction members generalizing done s with
  | nil =>
      obtain rfl := Except.ok.inj h
      simpa using hfilled
  | cons m rest ih =>
      rw [List.append_cons]
      rw [readFields_cons, bind_eq_ok_iff] at h
      obtain ⟨t, ht, h⟩ := h
      obtain ⟨key, v, rfl, ⟨hf, rfl⟩ | ⟨f, u, hf, hnew, hu, rfl⟩⟩ := readMember_cases ht
      · refine ih (hfilled.skip hf) ?_ h
        intro k w hk hdeclared
        rcases List.mem_append.mp hk with hk | hk
        · exact hseen k w hk hdeclared
        · obtain ⟨rfl, _⟩ : k = key ∧ w = v := by simpa using hk
          rw [hf] at hdeclared
          cases hdeclared
      · have hfresh (w : Json) : (some key, w) ∉ done := fun hw =>
          hnew (hseen key w hw (by rw [hf]; rfl))
        refine ih (s := (key :: s.1, u s.2)) (hfilled.read hf hfresh hu) ?_ h
        intro k w hk hdeclared
        rcases List.mem_append.mp hk with hk | hk
        · exact List.mem_cons_of_mem key (hseen k w hk hdeclared)
        · obtain ⟨rfl, _⟩ : k = key ∧ w = v := by simpa using hk
          exact List.mem_cons_self

/-- The items of an array fill the fields in whose places they stand. -/
theorem filled_readItems {before after : List (RecordField ρ σ)} {done : List Member}
    {items : List Json} {r r' : σ} (hfields : fields = before ++ after)
    (hnames : (fields.map RecordField.name).Nodup) (hfilled : Filled fields start done r)
    (hdone : ∀ key w, (some key, w) ∈ done → key ∈ before.map RecordField.name)
    (h : readItems r after items = .ok r') :
    Filled fields start (done ++ ((after.map RecordField.name).map some).zip items) r' := by
  induction items generalizing before after done r with
  | nil =>
      rw [readItems] at h
      obtain rfl := Except.ok.inj h
      simpa using hfilled
  | cons v rest ih =>
      cases after with
      | nil => cases h
      | cons f after =>
          rw [readItems_cons, bind_eq_ok_iff] at h
          obtain ⟨u, hu, h⟩ := h
          have hf : declared? fields f.name = some f :=
            declared?_of_mem hnames (by simp [hfields])
          have hfresh (w : Json) : (some f.name, w) ∉ done := by
            intro hw
            rw [hfields, List.map_append, List.map_cons] at hnames
            exact (List.nodup_append.mp hnames).2.2 _ (hdone f.name w hw) _ List.mem_cons_self rfl
          have hsplit : fields = (before ++ [f]) ++ after := by simp [hfields]
          have hnext := ih hsplit (hfilled.read hf hfresh hu) ?_ h
          · simpa using hnext
          · intro k w hk
            rcases List.mem_append.mp hk with hk | hk
            · simpa using Or.inl (hdone k w hk)
            · obtain ⟨rfl, _⟩ : k = f.name ∧ w = v := by simpa using hk
              simp

/-- A record that was read is filled by the fields as written. -/
theorem filled_readRecord (fields : Nat → List (RecordField ρ σ)) (names : List String)
    {levels : Nat} {start r : σ} {j : Json}
    (hnames : ∀ n, (fields n).map RecordField.name = names) (hnodup : names.Nodup)
    (h : readRecord levels fields start j = .ok r) :
    ∃ n, levels = n + 1 ∧ Filled (fields n) start (j.written names) r := by
  have hstart (n : Nat) : Filled (fields n) start [] start := .start
  unfold readRecord at h
  split at h
  case h_1 members =>
    split at h
    case h_1 => cases h
    case h_2 n =>
      refine ⟨n, rfl, ?_⟩
      exact filled_readFields (s := ([], start)) (hstart n) (by simp) h
  case h_2 items =>
    split at h
    case h_1 => cases h
    case h_2 n =>
      refine ⟨n, rfl, ?_⟩
      have hsplit : fields n = [] ++ fields n := rfl
      have hfilled := filled_readItems hsplit (hnames n ▸ hnodup) (hstart n) (by simp) h
      rw [hnames] at hfilled
      exact hfilled
  case h_3 => cases h

namespace Filled

variable {done : List Member} {r : σ}

/-- What every field keeps, as it is written, holds of the record. -/
theorem induct {P : σ → Prop} (h : Filled fields start done r) (hstart : P start)
    (hread : ∀ f ∈ fields, ∀ v, (some f.name, v) ∈ done →
      ∀ u, f.read v = .ok u → ∀ r, P r → P (u r)) : P r := by
  induction h with
  | start => exact hstart
  | skip _ _ ih =>
      exact ih fun f hf v hv => hread f hf v (List.mem_append_left _ hv)
  | read _ hg _ hu ih =>
      obtain ⟨hmem, rfl⟩ := name_of_declared? hg
      apply hread _ hmem _ (List.mem_append_right _ List.mem_cons_self) _ hu
      exact ih fun f hf v hv => hread f hf v (List.mem_append_left _ hv)

/-- Every declared field that was written has been read. -/
theorem exists_read (h : Filled fields start done r) {name : String} {v : Json}
    {f : RecordField ρ σ} (hv : (some name, v) ∈ done) (hf : declared? fields name = some f) :
    ∃ u, f.read v = .ok u := by
  induction h with
  | start => cases hv
  | @skip done r key w _ hnone ih =>
      rcases List.mem_append.mp hv with hv | hv
      · exact ih hv
      · obtain ⟨rfl, rfl⟩ : name = key ∧ v = w := by simpa using hv
        cases hnone.symm.trans hf
  | @read done r key w g u _ hg _ hu ih =>
      rcases List.mem_append.mp hv with hv | hv
      · exact ih hv
      · obtain ⟨rfl, rfl⟩ : name = key ∧ v = w := by simpa using hv
        obtain rfl := Option.some.inj (hg.symm.trans hf)
        exact ⟨u, hu⟩

/-- What a field settles, and no other field touches, holds of the record once the field was
written. -/
theorem settles {P : σ → Prop} (h : Filled fields start done r) {name : String} {v : Json}
    {f : RecordField ρ σ} (hv : (some name, v) ∈ done) (hf : declared? fields name = some f)
    (hset : ∀ u, f.read v = .ok u → ∀ r, P (u r))
    (hkeep : ∀ g ∈ fields, g.name ≠ name → ∀ w u, g.read w = .ok u → ∀ r, P r → P (u r)) :
    P r := by
  induction h with
  | start => cases hv
  | @skip done r key w _ hnone ih =>
      rcases List.mem_append.mp hv with hv | hv
      · exact ih hv
      · obtain ⟨rfl, rfl⟩ : name = key ∧ v = w := by simpa using hv
        cases hnone.symm.trans hf
  | @read done r key w g u _ hg hfresh hu ih =>
      rcases List.mem_append.mp hv with hbefore | hlast
      · obtain ⟨hmem, rfl⟩ := name_of_declared? hg
        refine hkeep g hmem ?_ w u hu r (ih hbefore)
        rintro rfl
        exact hfresh v hbefore
      · obtain ⟨rfl, rfl⟩ : name = key ∧ v = w := by simpa using hlast
        obtain rfl := Option.some.inj (hg.symm.trans hf)
        exact hset u hu r

end Filled

/-- A declared field that is written in a record that was read has been read itself. -/
theorem exists_read_of_readRecord (fields : Nat → List (RecordField ρ σ)) (names : List String)
    {levels : Nat} {start r : σ} {j : Json}
    (hnames : ∀ n, (fields n).map RecordField.name = names) (hnodup : names.Nodup)
    (h : readRecord levels fields start j = .ok r) {name : String} {v : Json}
    (hv : (some name, v) ∈ j.written names) {read : Nat → Json → Except (Refusal ρ) α}
    {set : α → σ → σ}
    (hfield : ∀ n, declared? (fields n) name = some (field name (read n) set)) :
    ∃ n x, levels = n + 1 ∧ read n v = .ok x := by
  obtain ⟨n, hlevels, hfilled⟩ := filled_readRecord fields names hnames hnodup h
  obtain ⟨u, hu⟩ := hfilled.exists_read hv (hfield n)
  obtain ⟨x, hx, _⟩ := read_field_eq_ok_iff.mp hu
  exact ⟨n, x, hlevels, hx⟩

end Reading

section Collections

theorem readList_eq_ok_iff {levels : Nat} {read : Nat → Json → Except (Refusal ρ) α} {j : Json}
    {xs : List α} : readList levels read j = .ok xs ↔
      ∃ n items, levels = n + 1 ∧ j = .array items ∧ items.mapM (read n) = .ok xs := by
  cases j with
  | array items => cases levels <;> simp [readList]
  | _ => simp [readList]

/-- What holds of all that can be read holds of the items of a list. -/
theorem forall_mem_readList {levels : Nat} {read : Nat → Json → Except (Refusal ρ) α} {j : Json}
    {xs : List α} {P : α → Prop} (hread : ∀ n v x, read n v = .ok x → P x)
    (h : readList levels read j = .ok xs) : ∀ x ∈ xs, P x := by
  obtain ⟨n, items, _, _, hitems⟩ := readList_eq_ok_iff.mp h
  intro x hx
  obtain ⟨v, _, hv⟩ := (mem_of_mapM_eq_ok hitems).1 x hx
  exact hread n v x hv

/-- A map with a value for a name, in its place or at the end. -/
def put (entries : List (String × α)) (key : String) (a : α) : List (String × α) :=
  if entries.any (·.1 == key) then
    entries.map fun entry => if entry.1 == key then (key, a) else entry
  else entries ++ [(key, a)]

theorem readEntries_cons (read : Json → Except (Refusal ρ) α) (entries : List (String × α))
    (key : String) (v : Json) (rest : List Member) :
    readEntries read entries ((some key, v) :: rest) =
      read v >>= fun a => readEntries read (put entries key a) rest := by
  rw [readEntries]
  cases read v <;> rfl

theorem nodup_put {entries : List (String × α)} (h : (entries.map Prod.fst).Nodup) (key : String)
    (a : α) : ((put entries key a).map Prod.fst).Nodup := by
  unfold put
  split
  case isTrue =>
    have hkeys : (entries.map fun entry => if entry.1 == key then (key, a) else entry).map
        Prod.fst = entries.map Prod.fst := by
      rw [List.map_map]
      apply List.map_congr_left
      intro entry _
      by_cases hkey : entry.1 = key <;> simp [hkey]
    rw [hkeys]
    exact h
  case isFalse hnew =>
    rw [List.map_append, List.nodup_append]
    refine ⟨h, List.nodup_singleton key, ?_⟩
    rintro k hk _ hkey rfl
    obtain rfl : k = key := by simpa using hkey
    obtain ⟨entry, hentry, rfl⟩ := List.mem_map.mp hk
    exact hnew (List.any_eq_true.mpr ⟨entry, hentry, beq_self_eq_true _⟩)

theorem mem_put {entries : List (String × α)} {key : String} {a : α} {entry : String × α}
    (h : entry ∈ put entries key a) : entry ∈ entries ∨ entry = (key, a) := by
  unfold put at h
  split at h
  case isTrue =>
    obtain ⟨old, hold, rfl⟩ := List.mem_map.mp h
    by_cases hkey : old.1 = key
    · exact Or.inr (by simp [hkey])
    · exact Or.inl (by simpa [hkey] using hold)
  case isFalse => simpa using h

/-- The entries of a map have distinct names, each of them was there or was read, and every member
was read. -/
theorem readEntries_reads {read : Json → Except (Refusal ρ) α} {entries out : List (String × α)}
    {members : List Member} (hkeys : (entries.map Prod.fst).Nodup)
    (h : readEntries read entries members = .ok out) :
    (out.map Prod.fst).Nodup ∧
    (∀ entry ∈ out, entry ∈ entries ∨ ∃ v, read v = .ok entry.2) ∧
    ∀ m ∈ members, ∃ a, read m.2 = .ok a := by
  induction members generalizing entries with
  | nil =>
      obtain rfl := Except.ok.inj h
      exact ⟨hkeys, fun entry hentry => Or.inl hentry, by simp⟩
  | cons m rest ih =>
      obtain ⟨key, v⟩ := m
      cases key with
      | none => cases h
      | some key =>
          rw [readEntries_cons, bind_eq_ok_iff] at h
          obtain ⟨a, ha, h⟩ := h
          obtain ⟨hnodup, hfrom, hto⟩ := ih (nodup_put hkeys key a) h
          refine ⟨hnodup, ?_, List.forall_mem_cons.mpr ⟨⟨a, ha⟩, hto⟩⟩
          intro entry hentry
          rcases hfrom entry hentry with hold | hread
          · rcases mem_put hold with hold | rfl
            · exact Or.inl hold
            · exact Or.inr ⟨v, ha⟩
          · exact Or.inr hread

theorem readMap_eq_ok_iff {levels : Nat} {read : Nat → Json → Except (Refusal ρ) α} {j : Json}
    {out : List (String × α)} : readMap levels read j = .ok out ↔
      ∃ n members, levels = n + 1 ∧ j = .object members ∧
        readEntries (read n) [] members = .ok out := by
  cases j with
  | object members => cases levels <;> simp [readMap]
  | _ => simp [readMap]

end Collections

/-- A text is read by reading its tree, if it is well-formed to its end. -/
theorem readDocument_eq_ok_iff {read : Nat → Json → Except (Refusal ρ) α} {text : String} {a : α} :
    readDocument read text = .ok a ↔
      read maxLevels (Document.ofText text).root = .ok a ∧ (Document.ofText text).wellFormed := by
  unfold readDocument
  cases h : read maxLevels (Document.ofText text).root with
  | error e => simp [h]
  | ok b => by_cases hwell : (Document.ofText text).wellFormed <;> simp [h, hwell]

end Schematic.Json
