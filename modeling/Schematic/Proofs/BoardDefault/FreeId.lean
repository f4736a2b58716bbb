import Schematic.BoardDefault.Wiring
import Schematic.Proofs.Design.Ids
import Schematic.Proofs.Text.Lines
import Mathlib.Data.List.Perm.Subperm
import Mathlib.Order.Bounds.Basic

/-!
# Free ids

The candidates for the id of a new block are pairwise different, so among as many candidates as
there are blocks, and one more, there is a free one. The search finds the first. A loop that goes
from candidate to candidate without a bound ends there too, after as many turns as there are taken
candidates before it.
-/

namespace Schematic.Graph

theorem candidateId_injective (name : String) : Function.Injective (candidateId name) := by
  have hlonger (n : Nat) : name ≠ candidateId name (n + 1) := by
    intro h
    have hlength := congrArg String.length h
    have hmark : "_".length = 1 := rfl
    simp only [candidateId, String.length_append, hmark] at hlength
    omega
  intro m n h
  cases m with
  | zero =>
      cases n with
      | zero => rfl
      | succ n => exact absurd h (hlonger n)
  | succ m =>
      cases n with
      | zero => exact absurd h.symm (hlonger m)
      | succ n =>
          exact (append_toString_inj (name ++ "_")).mp h

/-- The search stops at the first free candidate, or where its fuel ends. -/
theorem freeIdFrom_eq_candidateId (g : Graph) (name : String) (n fuel : Nat) :
    ∃ k ≤ fuel, g.freeIdFrom name n fuel = candidateId name (n + k) ∧
      (∀ j < k, (g.block? (candidateId name (n + j))).isSome) ∧
      (k < fuel → g.block? (candidateId name (n + k)) = none) := by
  induction fuel generalizing n with
  | zero => exact ⟨0, Nat.le_refl 0, rfl, by simp, by simp⟩
  | succ fuel ih =>
      cases hb : g.block? (candidateId name n) with
      | none =>
          refine ⟨0, Nat.zero_le _, ?_, by simp, fun _ => hb⟩
          simp [freeIdFrom, hb]
      | some b =>
          obtain ⟨k, hk, heq, htaken, hfree⟩ := ih (n + 1)
          have hshift (j : Nat) : n + (j + 1) = n + 1 + j := by omega
          refine ⟨k + 1, by omega, ?_, ?_, ?_⟩
          · rw [hshift, ← heq]
            simp [freeIdFrom, hb]
          · intro j hj
            cases j with
            | zero => simp [hb]
            | succ j =>
                rw [hshift]
                exact htaken j (by omega)
          · intro hlt
            rw [hshift]
            exact hfree (by omega)

/-- Not all of the first candidates are taken: there are more of them than blocks. -/
theorem exists_candidateId_free (g : Graph) (name : String) :
    ∃ k ≤ g.blocks.length, g.block? (candidateId name k) = none := by
  by_contra hall
  push Not at hall
  let candidates := (List.range (g.blocks.length + 1)).map (candidateId name)
  have hnodup : candidates.Nodup := List.nodup_range.map (candidateId_injective name)
  have hsubset : candidates ⊆ g.blocks.map Block.id := by
    intro id hid
    obtain ⟨k, hk, rfl⟩ := List.mem_map.mp hid
    have hsome := hall k (Nat.le_of_lt_succ (List.mem_range.mp hk))
    exact (g.isSome_block?_iff _).mp (Option.isSome_iff_ne_none.mpr hsome)
  have hlength := (hnodup.subperm hsubset).length_le
  simp only [candidates, List.length_map, List.length_range] at hlength
  omega

/-- The id of a new block is the first free candidate. -/
theorem freeId_eq_candidateId (g : Graph) (name : String) :
    ∃ k ≤ g.blocks.length, g.freeId name = candidateId name k ∧
      g.block? (candidateId name k) = none ∧
      ∀ j < k, (g.block? (candidateId name j)).isSome := by
  obtain ⟨k, hk, heq, htaken, hfree⟩ := freeIdFrom_eq_candidateId g name 0 g.blocks.length
  simp only [Nat.zero_add] at heq htaken hfree
  refine ⟨k, hk, heq, ?_, htaken⟩
  obtain ⟨m, hm, hmfree⟩ := exists_candidateId_free g name
  rcases Nat.lt_or_ge m k with hlt | hge
  · simpa [hmfree] using htaken m hlt
  · rcases Nat.lt_or_eq_of_le hge with hlt | rfl
    · exact hfree (Nat.lt_of_lt_of_le hlt hm)
    · exact hmfree

theorem block?_freeId (g : Graph) (name : String) : g.block? (g.freeId name) = none := by
  obtain ⟨k, _, heq, hfree, _⟩ := freeId_eq_candidateId g name
  rw [heq]
  exact hfree

/-- A new id is the id of no block. -/
theorem freeId_not_mem (g : Graph) (name : String) : g.freeId name ∉ g.blocks.map Block.id :=
  (g.block?_eq_none_iff _).mp (block?_freeId g name)

section Loop

/-- The search as a loop that nothing bounds. It has an id at hand and the number of the next
candidate. While a block has the id, it takes that candidate instead and the number goes up by one.
It ends with the id `found` after `turns` turns. -/
inductive SearchRun (g : Graph) (name : String) : String → Nat → String → Nat → Prop
  | stop {id : String} {next : Nat} (h : g.block? id = none) : SearchRun g name id next id 0
  | turn {id found : String} {next turns : Nat} (h : (g.block? id).isSome)
      (rest : SearchRun g name (name ++ "_" ++ toString next) (next + 1) found turns) :
      SearchRun g name id next found (turns + 1)

variable {g : Graph} {name : String}

/-- The loop ends in one way at most. -/
theorem SearchRun.deterministic {id found : String} {next turns : Nat}
    (run : g.SearchRun name id next found turns) :
    ∀ {found' turns'}, g.SearchRun name id next found' turns' →
      found' = found ∧ turns' = turns := by
  induction run with
  | stop h =>
      intro found' turns' run'
      cases run' with
      | stop _ => exact ⟨rfl, rfl⟩
      | turn h' _ => simp [h] at h'
  | turn h _ ih =>
      intro found' turns' run'
      cases run' with
      | stop h' => simp [h'] at h
      | turn _ rest' =>
          obtain ⟨rfl, rfl⟩ := ih rest'
          exact ⟨rfl, rfl⟩

/-- The loop passes over the candidates that are taken and ends at the first free one. -/
theorem searchRun_candidateId {n k : Nat}
    (htaken : ∀ j < k, (g.block? (candidateId name (n + j))).isSome)
    (hfree : g.block? (candidateId name (n + k)) = none) :
    g.SearchRun name (candidateId name n) (n + 1) (candidateId name (n + k)) k := by
  induction k generalizing n with
  | zero => exact .stop hfree
  | succ k ih =>
      have hshift (j : Nat) : n + (j + 1) = n + 1 + j := by omega
      refine .turn (htaken 0 (Nat.succ_pos k)) ?_
      rw [hshift k] at hfree ⊢
      refine ih (fun j hj => ?_) hfree
      rw [← hshift j]
      exact htaken (j + 1) (Nat.succ_lt_succ hj)

end Loop

/-- The loop ends, after at most as many turns as there are blocks, and what it ends with is the id
that the bounded search gives. That is the name itself if no block has it, and else the name with
the least number for which no block has it; it is the id of no block. -/
theorem search_ends_at_freeId (g : Graph) (name : String) :
    ∃ turns ≤ g.blocks.length,
      (∀ found count, g.SearchRun name name 1 found count ↔
        found = g.freeId name ∧ count = turns) ∧
      (name ∉ g.blocks.map Block.id ∧ turns = 0 ∧ g.freeId name = name ∨
        name ∈ g.blocks.map Block.id ∧
          IsLeast {n | 1 ≤ n ∧ name ++ "_" ++ toString n ∉ g.blocks.map Block.id} turns ∧
          g.freeId name = name ++ "_" ++ toString turns) ∧
      g.freeId name ∉ g.blocks.map Block.id := by
  obtain ⟨turns, hturns, heq, hfree, htaken⟩ := g.freeId_eq_candidateId name
  have hrun : g.SearchRun name name 1 (candidateId name (0 + turns)) turns :=
    searchRun_candidateId (n := 0) (by simpa using htaken) (by simpa using hfree)
  rw [Nat.zero_add, ← heq] at hrun
  refine ⟨turns, hturns, fun found count => ⟨hrun.deterministic, ?_⟩, ?_, g.freeId_not_mem name⟩
  · rintro ⟨rfl, rfl⟩
    exact hrun
  · cases turns with
    | zero => exact Or.inl ⟨(g.block?_eq_none_iff name).mp hfree, rfl, heq⟩
    | succ k =>
        refine Or.inr ⟨(g.isSome_block?_iff name).mp (htaken 0 (Nat.succ_pos k)), ⟨?_, ?_⟩, heq⟩
        · exact ⟨Nat.succ_pos k, (g.block?_eq_none_iff _).mp hfree⟩
        · rintro n ⟨hn, hnew⟩
          -- a smaller number is that of a candidate the loop has passed
          by_contra hlt
          obtain ⟨m, rfl⟩ := Nat.exists_eq_succ_of_ne_zero (Nat.ne_of_gt hn)
          exact hnew ((g.isSome_block?_iff _).mp (htaken (m + 1) (Nat.lt_of_not_ge hlt)))

example : ({ blocks := ["b_2", "b", "b_1", "b_4", "b_1"].map (⟨·, .info⟩) } : Graph).freeId "b" =
    "b_3" := by decide

end Schematic.Graph
