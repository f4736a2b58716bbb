import Schematic.Design.Format
import Schematic.Proofs.Json.Record

/-!
# How designs are read

The equations of the readers of the format that are more than records: the data of a block, whose
reader depends on the type of the block, and a project, whose library holds projects again.
-/

namespace Schematic.Format

open Json

section Blocks

/-- The built-in block types. -/
def primitiveTypes : List String :=
  ["basic.input", "basic.output", "basic.constant", "basic.code", "basic.info"]

/-- What the data of a block is read from. -/
def dataRecord : Json → Json
  | .null => .object []
  | j => j

theorem payload_eq {α : Type} (levels : Nat) (id : String) (read : Nat → Json → Read α)
    (data : Json) : payload levels id read data =
      (read levels (dataRecord data)).mapError fun _ => .because (.malformedData id) := by
  unfold payload
  cases data <;> simp only [dataRecord] <;> split <;> simp_all [Except.mapError]

theorem payload_eq_ok_iff {α : Type} {levels : Nat} {id : String} {read : Nat → Json → Read α}
    {data : Json} {a : α} :
    payload levels id read data = .ok a ↔ read levels (dataRecord data) = .ok a := by
  rw [payload_eq]
  cases read levels (dataRecord data) <;> simp [Except.mapError]

/-- A type with the built-in start that can be read is one of the built-in types. -/
theorem mem_primitiveTypes_of_readKind {levels : Nat} {id type : String} {data : Json}
    {kind : BlockKind} (hbuiltin : primitivePrefix.toList <+: type.toList)
    (h : readKind levels id type data = .ok kind) : type ∈ primitiveTypes := by
  unfold readKind at h
  rw [if_pos (List.isPrefixOf_iff_prefix.mpr hbuiltin)] at h
  split at h
  case h_6 => cases h
  all_goals simp [primitiveTypes]

theorem readBlock_eq_ok_iff {levels : Nat} {j : Json} {b : Block} :
    readBlock levels j = .ok b ↔ ∃ r type, readRecord levels blockFields {} j = .ok r ∧
      r.id = some b.id ∧ r.type = some type ∧ readKind levels b.id type r.data = .ok b.kind := by
  simp only [readBlock, bind_eq_ok_iff, require_eq_ok_iff]
  constructor
  · rintro ⟨r, hr, id, hid, type, htype, kind, hkind, h⟩
    obtain rfl := Except.ok.inj h
    exact ⟨r, type, hr, hid, htype, hkind⟩
  · rintro ⟨r, type, hr, hid, htype, hkind⟩
    exact ⟨r, hr, b.id, hid, type, htype, b.kind, hkind, rfl⟩

/-- The type a block was read with is the one that is written. -/
theorem type_of_readRecord {levels : Nat} {j : Json} {r : BlockFields} {type : String}
    (h : readRecord levels blockFields {} j = .ok r)
    (htype : (some "type", ofText type) ∈ j.written ["id", "type", "data"]) :
    r.type = some type := by
  obtain ⟨n, rfl, hfilled⟩ := filled_readRecord blockFields ["id", "type", "data"]
    (fun _ => rfl) (by decide) h
  apply hfilled.settles (P := fun r => r.type = some type) htype rfl
  · intro u hu r
    obtain ⟨x, hx, rfl⟩ := read_field_eq_ok_iff.mp hu
    obtain rfl : type = x := Except.ok.inj hx
    rfl
  · simp only [blockFields, List.forall_mem_cons, read_field_eq_ok_iff]
    refine ⟨?_, ?_, ?_, by simp⟩
    · rintro _ v _ ⟨x, _, rfl⟩ r hr
      exact hr
    · intro hname
      exact absurd rfl hname
    · rintro _ v _ ⟨x, _, rfl⟩ r hr
      exact hr

end Blocks

section Projects

/-- How the library of a project is read. -/
def readLibrary : (levels : Nat) → Json → Read (List (String × Project))
  | 0 => fun _ => .error .malformed
  | inner + 1 => readMap (inner + 1) fun _ => readProject inner

theorem readProject_succ (n : Nat) (j : Json) :
    readProject (n + 1) j = readRecord (n + 1) (projectFields (readLibrary n)) default j := by
  cases n <;> rfl

theorem readProject_eq : readProject =
    fun levels => readRecord levels (fun n => projectFields (readLibrary n) n) default := by
  funext levels j
  cases levels with
  | zero => cases j <;> rfl
  | succ n => rw [readProject_succ]; cases j <;> rfl

theorem readLibrary_eq : readLibrary = fun levels => readMap levels readProject := by
  funext levels j
  cases levels <;> cases j <;> rfl

theorem readLibrary_eq_ok_iff {levels : Nat} {j : Json} {library : List (String × Project)} :
    readLibrary levels j = .ok library ↔ ∃ n members, levels = n + 1 ∧ j = .object members ∧
      readEntries (readProject n) [] members = .ok library := by
  cases levels with
  | zero => simp [readLibrary]
  | succ n => rw [readLibrary, readMap_eq_ok_iff]; simp

end Projects

end Schematic.Format
