import Schematic.Design.Graph
import Mathlib.Data.List.Nodup

/-!
# Graphs with distinct block ids

Nothing stops two blocks from having the same id. Where the ids are distinct, an id stands for one
block, and a block of one kind is never found under the id of another.
-/

namespace Schematic

theorem Block.input?_eq_some_iff (b : Block) (t : Terminal) :
    b.input? = some t ↔ b.kind = .input t := by
  unfold Block.input?
  cases b.kind <;> simp

theorem Block.output?_eq_some_iff (b : Block) (t : Terminal) :
    b.output? = some t ↔ b.kind = .output t := by
  unfold Block.output?
  cases b.kind <;> simp

theorem Block.input?_eq_none_of_isInstance {b : Block} (h : b.isInstance = true) :
    b.input? = none := by
  rcases b with ⟨id, kind⟩
  cases kind <;> simp [Block.isInstance, Block.input?] at h ⊢

namespace Graph

/-- The ids of the blocks are pairwise distinct. -/
def DistinctIds (g : Graph) : Prop := (g.blocks.map Block.id).Nodup

theorem mem_of_block?_eq_some {g : Graph} {id : String} {b : Block} (h : g.block? id = some b) :
    b ∈ g.blocks ∧ b.id = id :=
  ⟨List.mem_of_find?_eq_some h, by simpa using List.find?_some h⟩

theorem block?_eq_none_iff (g : Graph) (id : String) :
    g.block? id = none ↔ id ∉ g.blocks.map Block.id := by
  simp [block?]

theorem isSome_block?_iff (g : Graph) (id : String) :
    (g.block? id).isSome ↔ id ∈ g.blocks.map Block.id := by
  simp [block?]

theorem DistinctIds.eq_of_id_eq {g : Graph} (hg : g.DistinctIds) {b c : Block}
    (hb : b ∈ g.blocks) (hc : c ∈ g.blocks) (h : b.id = c.id) : b = c :=
  List.inj_on_of_nodup_map hg hb hc h

theorem DistinctIds.block?_eq_some {g : Graph} (hg : g.DistinctIds) {b : Block}
    (hb : b ∈ g.blocks) : g.block? b.id = some b := by
  cases h : g.block? b.id with
  | none => exact absurd (List.mem_map_of_mem hb) ((g.block?_eq_none_iff b.id).mp h)
  | some c =>
      obtain ⟨hc, hid⟩ := mem_of_block?_eq_some h
      rw [hg.eq_of_id_eq hc hb hid]

end Graph

end Schematic
