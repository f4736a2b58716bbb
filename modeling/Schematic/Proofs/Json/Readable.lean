import Schematic.Json.Basic
import Mathlib.Data.List.Basic

/-!
# Values that can be read

A tree is readable as a value of its own when nothing in it is a fault, half a surrogate pair or a
number out of range. Within the levels allowed, and with no key twice, a readable tree is its own
value.
-/

namespace Schematic.Json

/-- Nothing in the tree keeps it from being read, whatever its depth. -/
inductive Readable : Json → Prop
  | null : Readable .null
  | bool (b : Bool) : Readable (.bool b)
  | number {n : Numeral} : n.isReadable → Readable (.number n)
  | text (s : String) : Readable (ofText s)
  | array {items : List Json} : (∀ v ∈ items, Readable v) → Readable (.array items)
  | object {members : List Member} : (∀ m ∈ members, m.1.isSome) →
      (∀ m ∈ members, Readable m.2) → Readable (.object members)

theorem readable_array_iff {items : List Json} :
    Readable (.array items) ↔ ∀ v ∈ items, Readable v := by
  constructor
  · intro h
    cases h with
    | array h => exact h
  · exact .array

theorem readable_object_iff {members : List Member} :
    Readable (.object members) ↔ ∀ m ∈ members, m.1.isSome ∧ Readable m.2 := by
  constructor
  · intro h
    cases h with
    | object hkeys hvalues => exact fun m hm => ⟨hkeys m hm, hvalues m hm⟩
  · intro h
    exact .object (fun m hm => (h m hm).1) fun m hm => (h m hm).2

section Tidy

/-- The tree nests at most `levels` deep, and no object has a key twice. -/
def isTidy : (levels : Nat) → Json → Bool
  | 0, .array _ => false
  | 0, .object _ => false
  | levels + 1, .array items => items.all (isTidy levels)
  | levels + 1, .object members =>
    decide (members.filterMap Prod.fst).Nodup && members.all fun m => isTidy levels m.2
  | _, _ => true

theorem isTidy_null (levels : Nat) : isTidy levels .null := by
  cases levels <;> rfl

theorem isTidy_array_iff {levels : Nat} {items : List Json} :
    isTidy levels (.array items) ↔ ∃ n, levels = n + 1 ∧ ∀ v ∈ items, v.isTidy n := by
  cases levels <;> simp [isTidy]

theorem isTidy_object_iff {levels : Nat} {members : List Member} :
    isTidy levels (.object members) ↔ ∃ n, levels = n + 1 ∧
      (members.filterMap Prod.fst).Nodup ∧ ∀ m ∈ members, m.2.isTidy n := by
  cases levels <;> simp [isTidy]

theorem isTidy_succ {levels : Nat} {j : Json} (h : j.isTidy levels) : j.isTidy (levels + 1) := by
  induction levels generalizing j with
  | zero => cases j <;> simp_all [isTidy]
  | succ n ih =>
      cases j with
      | array items =>
          obtain ⟨_, ⟨⟩, hitems⟩ := isTidy_array_iff.mp h
          exact isTidy_array_iff.mpr ⟨_, rfl, fun v hv => ih (hitems v hv)⟩
      | object members =>
          obtain ⟨_, ⟨⟩, hnodup, hmembers⟩ := isTidy_object_iff.mp h
          exact isTidy_object_iff.mpr ⟨_, rfl, hnodup, fun m hm => ih (hmembers m hm)⟩
      | _ => rfl

end Tidy

section Values

theorem mapM_eq_self {read : Json → Option Json} {items : List Json}
    (h : ∀ v ∈ items, read v = some v) : items.mapM read = some items := by
  induction items with
  | nil => rfl
  | cons v rest ih =>
      rw [List.forall_mem_cons] at h
      simp [List.mapM_cons, h.1, ih h.2]

theorem readMembers_eq_self {read : Json → Option Json} {members : List Member}
    (h : ∀ m ∈ members, m.1.isSome ∧ read m.2 = some m.2) :
    readMembers read members = some members := by
  induction members with
  | nil => rfl
  | cons m rest ih =>
      obtain ⟨key, v⟩ := m
      rw [List.forall_mem_cons] at h
      obtain ⟨name, rfl⟩ := Option.isSome_iff_exists.mp h.1.1
      simp [readMembers, h.1.2, ih h.2]

/-- Members with distinct keys are all kept. -/
theorem lastWins_eq_self {members : List Member} (hkeys : ∀ m ∈ members, m.1.isSome)
    (hnodup : (members.filterMap Prod.fst).Nodup) : lastWins members = members := by
  induction members with
  | nil => rfl
  | cons m rest ih =>
      obtain ⟨key, v⟩ := m
      rw [List.forall_mem_cons] at hkeys
      obtain ⟨name, rfl⟩ := Option.isSome_iff_exists.mp hkeys.1
      have hcons : ((some name, v) :: rest).filterMap Prod.fst = name :: rest.filterMap Prod.fst :=
        rfl
      rw [hcons, List.nodup_cons] at hnodup
      have hnew : ¬ rest.any (·.1 == some name) := by
        intro hany
        obtain ⟨m, hm, hkey⟩ := List.any_eq_true.mp hany
        exact hnodup.1 (List.mem_filterMap.mpr ⟨m, hm, by simpa using hkey⟩)
      rw [lastWins, if_neg hnew, ih hkeys.2 hnodup.2]

/-- A readable tree within the levels is its own value if no key occurs twice. -/
theorem value?_of_isTidy {levels : Nat} {j : Json} (htidy : j.isTidy levels) (h : Readable j) :
    j.value? levels = some j := by
  induction h generalizing levels with
  | null => rw [value?]
  | bool b => rw [value?]
  | number hn => rw [value?, if_pos hn]
  | text s => rw [ofText, value?]; rfl
  | array _ ih =>
      obtain ⟨n, rfl, hitems⟩ := isTidy_array_iff.mp htidy
      rw [value?, mapM_eq_self fun v hv => ih v hv (hitems v hv)]
      rfl
  | object hkeys _ ih =>
      obtain ⟨n, rfl, hnodup, hmembers⟩ := isTidy_object_iff.mp htidy
      rw [value?, readMembers_eq_self fun m hm => ⟨hkeys m hm, ih m hm (hmembers m hm)⟩,
        Option.map_some, lastWins_eq_self hkeys hnodup]

theorem readable_of_readMembers {read : Json → Option Json} {members out : List Member}
    (hread : ∀ v w, read v = some w → Readable v) (h : readMembers read members = some out) :
    ∀ m ∈ members, m.1.isSome ∧ Readable m.2 := by
  induction members generalizing out with
  | nil => simp
  | cons m rest ih =>
      obtain ⟨key, v⟩ := m
      unfold readMembers at h
      split at h
      case h_1 name w hw =>
        obtain ⟨tail, htail, _⟩ := Option.map_eq_some_iff.mp h
        exact List.forall_mem_cons.mpr ⟨⟨rfl, hread v w hw⟩, ih htail⟩
      case h_2 => cases h

theorem readable_of_mapM {read : Json → Option Json} {items out : List Json}
    (hread : ∀ v w, read v = some w → Readable v) (h : items.mapM read = some out) :
    ∀ v ∈ items, Readable v := by
  induction items generalizing out with
  | nil => simp
  | cons v rest ih =>
      rw [List.mapM_cons] at h
      obtain ⟨w, hw, h⟩ := Option.bind_eq_some_iff.mp h
      obtain ⟨tail, htail, _⟩ := Option.bind_eq_some_iff.mp h
      exact List.forall_mem_cons.mpr ⟨hread v w hw, ih htail⟩

/-- What has a value is readable. -/
theorem readable_of_value? {levels : Nat} {j w : Json} (h : j.value? levels = some w) :
    Readable j := by
  induction levels using Nat.strongRecOn generalizing j w with
  | ind levels ih =>
      unfold value? at h
      split at h
      case h_1 => exact .null
      case h_2 b => exact .bool b
      case h_3 n =>
        split at h
        case isTrue hn => exact .number hn
        case isFalse => cases h
      case h_4 text =>
        obtain ⟨s, rfl, _⟩ := Option.map_eq_some_iff.mp h
        exact .text s
      case h_8 n items =>
        obtain ⟨out, hout, _⟩ := Option.map_eq_some_iff.mp h
        exact .array (readable_of_mapM (fun v w => ih n (Nat.lt_succ_self n)) hout)
      case h_9 n members =>
        obtain ⟨out, hout, _⟩ := Option.map_eq_some_iff.mp h
        exact readable_object_iff.mpr
          (readable_of_readMembers (fun v w => ih n (Nat.lt_succ_self n)) hout)
      all_goals cases h

end Values

end Schematic.Json
