import Schematic.BoardDefault.Request
import Schematic.Proofs.Netlist.Statements

/-!
# The first fault of a graph

A graph is scanned in two ways: for the requests of its blocks and for their instances. Both look
the types of circuit blocks up in the same scope and stop at the first one that is not known, so
they fail together and with the same fault.
-/

namespace Schematic

/-- The fault of a block in a scope: its type is not known there. -/
def Block.fault? (b : Block) (s : Scope) : Option CompileFault :=
  match b.kind with
  | .circuit type => if (s.find? type).isSome then none else some (.missingType b.id type)
  | _ => none

/-- The fault of the first block that has one. -/
def Graph.fault? (g : Graph) (s : Scope) : Option CompileFault :=
  g.blocks.findSome? (·.fault? s)

/-- Looking a type up fails when it is not known, and the block that uses it is at fault. -/
theorem Scope.get_eq_error_iff (s : Scope) (block type : String) (e : CompileFault) :
    s.get block type = .error e ↔
      (if (s.find? type).isSome then none else some (CompileFault.missingType block type)) =
        some e := by
  unfold Scope.get
  cases s.find? type with
  | some p => simp
  | none => simp

/-- Looking for the requests of a block fails with its fault. -/
theorem Block.requests_eq_error_iff (b : Block) (s : Scope) (e : CompileFault) :
    b.requests s = .error e ↔ b.fault? s = some e := by
  unfold requests fault?
  cases b.kind with
  | circuit type =>
      simp only [← s.get_eq_error_iff]
      cases s.get b.id type <;> simp
  | _ => simp

namespace Graph

/-- Making the instance of a block fails with its fault. -/
theorem instance?_eq_error_iff (g : Graph) (parent : String) (s : Scope) (b : Block)
    (e : CompileFault) : g.instance? parent s b = .error e ↔ b.fault? s = some e := by
  unfold instance? Block.fault?
  cases b.kind with
  | circuit type =>
      simp only [← s.get_eq_error_iff]
      cases s.get b.id type <;> simp
  | _ => simp

/-- A scan that looks at one block after another and fails at the first one that it fails at, fails
with the fault of the first block that has one. -/
theorem scan_eq_error_iff {α β : Type} {s : Scope} {look : Block → Except CompileFault α}
    (scan : List Block → Except CompileFault β) (combine : α → β → β)
    (hlook : ∀ b e, look b = .error e ↔ b.fault? s = some e) (hnil : ∀ e, scan [] ≠ .error e)
    (hcons : ∀ b rest, scan (b :: rest) = (look b).bind fun a => (scan rest).map (combine a))
    (bs : List Block) (e : CompileFault) :
    scan bs = .error e ↔ bs.findSome? (·.fault? s) = some e := by
  induction bs with
  | nil => simpa using hnil e
  | cons b rest ih =>
      rw [hcons, List.findSome?_cons]
      cases hb : look b with
      | error fault =>
          rw [(hlook b fault).mp hb]
          simp [Except.bind]
      | ok a =>
          have hnone : b.fault? s = none := by
            apply Option.eq_none_iff_forall_ne_some.mpr
            intro fault hfault
            rw [(hlook b fault).mpr hfault] at hb
            cases hb
          rw [hnone, ← ih]
          cases scan rest <;> simp [Except.bind, Except.map]

theorem requests_eq_error_iff (g : Graph) (s : Scope) (e : CompileFault) :
    g.requests s = .error e ↔ g.fault? s = some e := by
  apply scan_eq_error_iff (requestsOf s) (fun found later => found ++ later)
    (fun b => b.requests_eq_error_iff s)
  · simp [requestsOf]
  · intro b rest
    rw [requestsOf]
    cases b.requests s <;> rfl

theorem instances_eq_error_iff (g : Graph) (parent : String) (s : Scope) (e : CompileFault) :
    g.instances parent s = .error e ↔ g.fault? s = some e := by
  apply scan_eq_error_iff (g.instancesOf parent s) (fun inst later => inst.toList ++ later)
    (g.instance?_eq_error_iff parent s)
  · simp [instancesOf]
  · intro b rest
    rw [instancesOf]
    cases g.instance? parent s b with
    | error fault => rfl
    | ok inst =>
        cases inst with
        | none => cases g.instancesOf parent s rest <;> rfl
        | some inst => rfl

/-- A graph has no body exactly when one of its blocks is at fault, and for that reason. -/
theorem statements_eq_error_iff (g : Graph) (name : String) (s : Scope) (e : CompileFault) :
    g.statements name s = .error e ↔ g.fault? s = some e := by
  rw [statements, map_eq_error_iff, instances_eq_error_iff]

end Graph

end Schematic
