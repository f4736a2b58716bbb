import Mathlib.Data.List.Basic

/-!
# Outcomes of computations that may fail

What a result or a fault says about the steps it was computed in: a step that is mapped over, two
steps one after the other, and the same step for every item of a list.
-/

namespace Schematic

variable {ε α β : Type}

theorem map_eq_ok_iff {x : Except ε α} {f : α → β} {b : β} :
    x.map f = .ok b ↔ ∃ a, x = .ok a ∧ f a = b := by
  cases x <;> simp [Except.map]

theorem map_eq_error_iff {x : Except ε α} {f : α → β} {e : ε} :
    x.map f = .error e ↔ x = .error e := by
  cases x <;> simp [Except.map]

theorem bind_eq_ok_iff {x : Except ε α} {f : α → Except ε β} {b : β} :
    x >>= f = .ok b ↔ ∃ a, x = .ok a ∧ f a = .ok b := by
  cases x with
  | error e => simp [bind, Except.bind]
  | ok a => simp [bind, Except.bind]

/-- The items of a list and what was computed from them. -/
theorem mem_of_mapM_eq_ok {f : α → Except ε β} {items : List α} {xs : List β}
    (h : items.mapM f = .ok xs) :
    (∀ x ∈ xs, ∃ a ∈ items, f a = .ok x) ∧ ∀ a ∈ items, ∃ x ∈ xs, f a = .ok x := by
  induction items generalizing xs with
  | nil =>
      obtain rfl : [] = xs := Except.ok.inj h
      simp
  | cons a rest ih =>
      rw [List.mapM_cons, bind_eq_ok_iff] at h
      obtain ⟨x, hx, h⟩ := h
      obtain ⟨tail, htail, h⟩ := bind_eq_ok_iff.mp h
      obtain rfl : x :: tail = xs := Except.ok.inj h
      obtain ⟨hfrom, hto⟩ := ih htail
      constructor
      · intro y hy
        rcases List.mem_cons.mp hy with rfl | hy
        · exact ⟨a, List.mem_cons_self, hx⟩
        · obtain ⟨c, hc, hy⟩ := hfrom y hy
          exact ⟨c, List.mem_cons_of_mem a hc, hy⟩
      · intro c hc
        rcases List.mem_cons.mp hc with rfl | hc
        · exact ⟨x, List.mem_cons_self, hx⟩
        · obtain ⟨y, hy, hcy⟩ := hto c hc
          exact ⟨y, List.mem_cons_of_mem x hy, hcy⟩

end Schematic
