import Schematic.Config.Format
import Mathlib.Data.List.Nodup

/-!
# Configurations without faults

The scan for faults stops at the first one. When it finds none, every rule of every board has been
looked at: each level is a bit, and no board lists a pin twice.
-/

namespace Schematic.Config

/-- Output rules without a fault: each level is a bit, and no pin is listed twice. -/
structure SoundOutputs (rules : List OutputRule) : Prop where
  bits : ∀ rule ∈ rules, rule.bit = "0" ∨ rule.bit = "1"
  pins : (rules.map OutputRule.pin).Nodup

theorem soundOutputs_cons_iff (rule : OutputRule) (rest : List OutputRule) :
    SoundOutputs (rule :: rest) ↔
      (rule.bit = "0" ∨ rule.bit = "1") ∧ (∀ r ∈ rest, r.pin ≠ rule.pin) ∧ SoundOutputs rest := by
  constructor
  · rintro ⟨hbits, hpins⟩
    rw [List.map_cons, List.nodup_cons] at hpins
    refine ⟨hbits rule List.mem_cons_self, fun r hr heq => hpins.1 ?_, ?_, hpins.2⟩
    · exact List.mem_map.mpr ⟨r, hr, heq⟩
    · exact fun r hr => hbits r (List.mem_cons_of_mem rule hr)
  · rintro ⟨hbit, hne, hbits, hpins⟩
    refine ⟨List.forall_mem_cons.mpr ⟨hbit, hbits⟩, ?_⟩
    rw [List.map_cons, List.nodup_cons]
    refine ⟨fun hmem => ?_, hpins⟩
    obtain ⟨r, hr, heq⟩ := List.mem_map.mp hmem
    exact hne r hr heq

/-- Rules stay sound when some are dropped. -/
theorem SoundOutputs.sublist {rules kept : List OutputRule} (h : SoundOutputs rules)
    (hkept : List.Sublist kept rules) : SoundOutputs kept where
  bits rule hrule := h.bits rule (hkept.subset hrule)
  pins := h.pins.sublist (hkept.map OutputRule.pin)

theorem outputFault?_eq_none_iff (board : String) (seen : List String)
    (rules : List OutputRule) :
    outputFault? board seen rules = none ↔
      SoundOutputs rules ∧ ∀ rule ∈ rules, rule.pin ∉ seen := by
  induction rules generalizing seen with
  | nil => simp [outputFault?, SoundOutputs.mk]
  | cons rule rest ih =>
      rw [soundOutputs_cons_iff, outputFault?]
      split
      case isTrue hbit => simp [hbit]
      case isFalse hbit =>
        have hbit : rule.bit = "0" ∨ rule.bit = "1" := by
          by_contra hnot
          exact hbit (not_or.mp hnot)
        split
        case isTrue hseen => simp [hseen]
        case isFalse hseen =>
          -- the pin of the rule joins those seen, so the rest must differ from it
          simp only [ih, List.mem_cons, not_or, forall_and, forall_eq_or_imp, hbit, hseen,
            not_false_eq_true, true_and]
          tauto

/-- A configuration has no fault exactly when the project has a name and a design, the rules of
all boards are sound, and the board and the targets it builds for are known. -/
theorem fault?_eq_none_iff (c : Config) :
    c.fault? = none ↔ c.project.name ≠ "" ∧ c.project.design ≠ "" ∧
      (∀ b ∈ c.boards, SoundOutputs b.2.rules.outputs) ∧
      (∀ name, c.build.board = some name → (c.boards.lookup name).isSome) ∧
      ∀ target ∈ c.build.targets, target ∈ targetNames := by
  have hboards : c.boards.findSome? (fun b => outputFault? b.1 [] b.2.rules.outputs) = none ↔
      ∀ b ∈ c.boards, SoundOutputs b.2.rules.outputs := by
    simp [List.findSome?_eq_none_iff, outputFault?_eq_none_iff]
  have htargets : (c.build.targets.find? (· ∉ targetNames)).map ConfigFault.unknownTarget = none ↔
      ∀ target ∈ c.build.targets, target ∈ targetNames := by
    simp
  unfold fault?
  split
  case isTrue hname => simp [hname]
  case isFalse hname =>
    split
    case isTrue hdesign => simp [hdesign]
    case isFalse hdesign =>
      rw [Option.or_eq_none_iff, Option.or_eq_none_iff, hboards, htargets, and_assoc]
      cases c.build.board with
      | none => simp [hname, hdesign]
      | some name => simp [hname, hdesign]

/-- A text that is accepted gives a configuration without faults. -/
theorem fault?_of_ofText {text : String} {c : Config} (h : ofText text = .ok c) :
    c.fault? = none := by
  unfold ofText at h
  split at h
  case h_1 d hread =>
    obtain ⟨hfault, rfl⟩ := validate_eq_ok_iff.mp h
    exact hfault
  case h_2 => cases h

end Schematic.Config
