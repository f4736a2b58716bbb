import Schematic.Proofs.Artifact.Interface
import Schematic.Proofs.BoardDefault.PinReach
import Schematic.Proofs.Config.Validation
import Schematic.Proofs.Netlist.Lines

/-!
# The level of every output pin of a board

A board says at which level an output pin is to be when a design leaves it alone. Three texts carry
that level: the range of the added output, the digits assigned to it, and the lines that place its
bits. Rules that passed the validation of their configuration have levels of one digit and distinct
pins, and with them the three texts count the same bits in the same order.
-/

namespace Schematic

section Digits

/-- The digit of a level. -/
def OutputRule.digit (rule : OutputRule) : Char := if rule.bit = "0" then '0' else '1'

variable {rules : List OutputRule}

theorem OutputRule.singleton_digit {rule : OutputRule} (h : rule.bit = "0" ∨ rule.bit = "1") :
    String.singleton rule.digit = rule.bit := by
  rcases h with h | h
  · rw [digit, h]
    rfl
  · rw [digit, h]
    rfl

/-- Levels written one after another have a digit for each. -/
theorem toList_join_bits (h : ∀ rule ∈ rules, rule.bit = "0" ∨ rule.bit = "1") :
    (String.join (rules.map OutputRule.bit)).toList = rules.map OutputRule.digit := by
  rw [String.toList_join, List.flatMap_map, List.map_eq_flatMap]
  refine List.flatMap_congr fun rule hrule => ?_
  rw [← OutputRule.singleton_digit (h rule hrule), String.toList_singleton]

theorem length_join_bits (h : ∀ rule ∈ rules, rule.bit = "0" ∨ rule.bit = "1") :
    (String.join (rules.map OutputRule.bit)).length = rules.length := by
  rw [← String.length_toList, toList_join_bits h, List.length_map]

end Digits

/-- An output of the graph is on the pin; a virtual output is on none. -/
def Graph.Takes (g : Graph) (pin : String) : Prop :=
  ∃ b ∈ g.blocks, ∃ t, b.kind = .output t ∧ t.isVirtual = false ∧
    ∃ place ∈ t.pins, place.value = pin

theorem Graph.mem_takenPins_iff (g : Graph) (pin : String) : pin ∈ g.takenPins ↔ g.Takes pin := by
  rw [takenPins, List.mem_flatMap]
  refine exists_congr fun b => and_congr_right fun _ => ?_
  constructor
  · intro h
    cases houtput : b.output? with
    | none => simp [houtput] at h
    | some t =>
        cases hvirtual : t.isVirtual with
        | true => simp [houtput, hvirtual] at h
        | false =>
            simp only [houtput, hvirtual, Bool.false_eq_true, if_false, List.mem_map] at h
            exact ⟨t, (b.output?_eq_some_iff t).mp houtput, hvirtual, h⟩
  · rintro ⟨t, hkind, hvirtual, hplace⟩
    simpa [(b.output?_eq_some_iff t).mpr hkind, hvirtual] using hplace

theorem Graph.mem_idlePins_iff (g : Graph) (rules : BoardRules) (rule : OutputRule) :
    rule ∈ g.idlePins rules ↔ rule ∈ rules.outputs ∧ ¬ g.Takes rule.pin := by
  rw [idlePins, List.mem_filter, ← mem_takenPins_iff, decide_eq_true_iff]

/-- The pin of a rule is held at its level, as bit `i` of the added output: the range, the digits
and the lines of the output have the same number of bits, bit `i` and no other is placed on the pin,
and its digit is the level. -/
structure HeldAt (verilog : String) (lines : List String) (rule : OutputRule) (digits : String)
    (i : Nat) : Prop where
  /-- The main module declares the output as its last port and assigns the digits to it. -/
  written : ∃ parameters ports body rest, verilog = moduleText "main" parameters
    (ports ++ [" output [0:" ++ toString (digits.length - 1) ++ "] vinit"])
    ("\n".intercalate
      (body ++ ["assign vinit = " ++ toString digits.length ++ "'b" ++ digits ++ ";"])) ++ rest
  placed : lines.length = digits.length ∧
    ∀ j line, lines[j]? = some line → ∃ pin, line = holdLine digits.length j pin
  bit_lt : i < digits.length
  onPin : ∀ j, lines[j]? = some (holdLine digits.length j rule.pin) ↔ j = i
  level : (digits.toList[i]?).map String.singleton = some rule.bit

namespace Top

section Idle

variable {p : Project} {o : Options} {rules : BoardRules} {top : Top}

theorem idlePins_eq (h : ofProject p o rules = .ok top) :
    top.idlePins = top.graph.topIdlePins o rules := by
  obtain ⟨wiring, _, hwiring⟩ := map_eq_ok_iff.mp h
  rw [← hwiring]
  cases wiring with
  | none => rfl
  | some w => rfl

/-- Wiring board defaults takes no output pin. -/
theorem takes_iff (h : ofProject p o rules = .ok top) (pin : String) :
    top.graph.Takes pin ↔ p.graph.Takes pin := by
  obtain ⟨bs, hbs, hinput⟩ := exists_blocks h
  constructor
  · rintro ⟨b, hb, t, hkind, hplace⟩
    rw [hbs] at hb
    rcases List.mem_append.mp hb with hb | hb
    · exact ⟨b, hb, t, hkind, hplace⟩
    · obtain ⟨u, hu⟩ := hinput b hb
      rw [hkind] at hu
      cases hu
  · rintro ⟨b, hb, hplace⟩
    exact ⟨b, hbs ▸ List.mem_append_left bs hb, hplace⟩

end Idle

section Lines

variable {t : Top}

/-- The text of a main module that holds pins. -/
theorem exists_text_rendering_eq (h : t.idlePins ≠ []) : ∃ parameters ports body,
    t.rendering.text = moduleText "main" parameters
      (ports ++ [" output [0:" ++ toString (t.idlePins.length - 1) ++ "] vinit"])
      ("\n".intercalate (body ++ ["assign vinit = " ++ toString t.idlePins.length ++ "'b" ++
        String.join (t.idlePins.map OutputRule.bit) ++ ";"])) := by
  have hidle : t.idlePins.isEmpty = false := List.isEmpty_eq_false_iff.mpr h
  have houtputs : t.interface.outputs.map (Signal.entry "output") =
      t.graph.interface.outputs.map (Signal.entry "output") ++
        [" output [0:" ++ toString (t.idlePins.length - 1) ++ "] vinit"] := by
    simp [interface, hidle, Signal.entry, holdPort, bitRange, ← String.toList_inj]
  have hstatements : t.holdStatements.map Statement.text =
      ["assign vinit = " ++ toString t.idlePins.length ++ "'b" ++
        String.join (t.idlePins.map OutputRule.bit) ++ ";"] := by
    rw [holdStatements, hidle, if_neg Bool.false_ne_true, List.map_singleton, Statement.text_hold,
      List.length_map]
    rfl
  have hbody : t.rendering.body.lines = "\n".intercalate ((t.graph.wiring ++
      (t.graph.blocks.filter Block.isInstance).map
        (fun b => Statement.use (t.graph.instanceOf moduleName b))).map Statement.text ++
      t.holdStatements.map Statement.text) := by
    rw [← List.map_append]
    rfl
  rw [text_rendering, houtputs, hbody, hstatements, ← List.append_assoc]
  exact ⟨_, _, _, rfl⟩

/-- Pins are distinct, so one line alone has the pin of a rule: that of its bit. -/
theorem on_pin_iff (t : Top) (hpins : (t.idlePins.map OutputRule.pin).Nodup) {rule : OutputRule}
    {i : Nat} (h : t.idlePins[i]? = some rule) (j : Nat) :
    (holdLines t.idlePins)[j]? = some (holdLine t.idlePins.length j rule.pin) ↔ j = i := by
  rw [getElem?_holdLines]
  constructor
  · intro hline
    obtain ⟨other, hother, hpin⟩ := Option.map_eq_some_iff.mp hline
    rw [holdLine_inj] at hpin
    have hlt : i < (t.idlePins.map OutputRule.pin).length := by
      rw [List.length_map]
      exact (List.getElem?_eq_some_iff.mp h).1
    have hsame : (t.idlePins.map OutputRule.pin)[i]? = (t.idlePins.map OutputRule.pin)[j]? := by
      rw [List.getElem?_map, List.getElem?_map, h, hother]
      exact congrArg some hpin.symm
    exact ((List.getElem?_inj hlt hpins).mp hsame).symm
  · rintro rfl
    rw [h]
    rfl

/-- With sound rules, the pin of an idle rule is held. -/
theorem heldAt_of_getElem? (hsound : Config.SoundOutputs t.idlePins) {rule : OutputRule} {i : Nat}
    (h : t.idlePins[i]? = some rule) (rest : String) :
    HeldAt (t.rendering.text ++ rest) (holdLines t.idlePins) rule
      (String.join (t.idlePins.map OutputRule.bit)) i := by
  have hlength := length_join_bits hsound.bits
  have hlt : i < t.idlePins.length := (List.getElem?_eq_some_iff.mp h).1
  constructor
  case written =>
    obtain ⟨parameters, ports, body, htext⟩ :=
      exists_text_rendering_eq (List.ne_nil_of_length_pos (by omega : 0 < t.idlePins.length))
    exact ⟨parameters, ports, body, rest, by rw [htext, hlength]⟩
  case placed =>
    rw [hlength]
    refine ⟨by simp [holdLines], fun j line hline => ?_⟩
    rw [getElem?_holdLines] at hline
    obtain ⟨other, _, rfl⟩ := Option.map_eq_some_iff.mp hline
    exact ⟨other.pin, rfl⟩
  case bit_lt => rwa [hlength]
  case onPin =>
    rw [hlength]
    exact fun j => t.on_pin_iff hsound.pins h j
  case level =>
    rw [toList_join_bits hsound.bits, List.getElem?_map, h]
    exact congrArg some (OutputRule.singleton_digit (hsound.bits rule (List.mem_of_getElem? h)))

end Lines

end Top

namespace Project

/-- On a board of an accepted configuration every output pin is taken by an output of the design,
or held at its level; never both. -/
theorem output_pin_taken_or_held {text : String} {config : Config}
    (hconfig : Config.ofText text = .ok config) {name : String} {board : Board}
    (hboard : (name, board) ∈ config.boards) {p : Project} {o : Options}
    (hrules : o.boardRules = true) (hidle : o.idlePins = none) {verilog : String}
    (h : p.verilog o board.rules = .ok verilog) :
    ∃ top, Top.ofProject p o board.rules = .ok top ∧
      p.constraints o board.rules = .ok
        (String.join (top.graph.blocks.flatMap Block.placeLines) ++
          String.join (holdLines top.idlePins)) ∧
      ∀ rule ∈ board.rules.outputs,
        (p.graph.Takes rule.pin ∧ ∀ j line, (holdLines top.idlePins)[j]? = some line →
          ∃ pin, line = holdLine (holdLines top.idlePins).length j pin ∧ pin ≠ rule.pin) ∨
        (¬ p.graph.Takes rule.pin ∧
          ∃ digits i, HeldAt verilog (holdLines top.idlePins) rule digits i) := by
  obtain ⟨ms, hms, rfl⟩ := exists_modules_of_verilog h
  obtain ⟨top, rest, htop, rfl⟩ := exists_rendering hms
  refine ⟨top, htop, constraints_eq htop, fun rule hrule => ?_⟩
  have hidlePins : top.idlePins = top.graph.idlePins board.rules := by
    simp [Top.idlePins_eq htop, Graph.topIdlePins, hrules, hidle]
  have hmem (r : OutputRule) :
      r ∈ top.idlePins ↔ r ∈ board.rules.outputs ∧ ¬ p.graph.Takes r.pin := by
    rw [hidlePins, Graph.mem_idlePins_iff, Top.takes_iff htop]
  by_cases htakes : p.graph.Takes rule.pin
  · left
    refine ⟨htakes, fun j line hline => ?_⟩
    rw [getElem?_holdLines] at hline
    obtain ⟨other, hother, rfl⟩ := Option.map_eq_some_iff.mp hline
    refine ⟨other.pin, by simp [holdLines], fun hpin => ?_⟩
    rw [← hpin] at htakes
    exact ((hmem other).mp (List.mem_of_getElem? hother)).2 htakes
  · right
    have hsound : Config.SoundOutputs top.idlePins := by
      have hfault := (Config.fault?_eq_none_iff config).mp (Config.fault?_of_ofText hconfig)
      rw [hidlePins]
      exact (hfault.2.2.1 _ hboard).sublist List.filter_sublist
    obtain ⟨i, hi⟩ := List.mem_iff_getElem?.mp ((hmem rule).mpr ⟨hrule, htakes⟩)
    rw [List.map_cons, String.join_cons]
    exact ⟨htakes, _, i, Top.heldAt_of_getElem? hsound hi _⟩

/-- The lines of the added output of `clocked` on a board with three pins. -/
def heldByClocked : List String := ["set_io vinit[0] 96\n", "set_io vinit[1] 97\n"]

/-- The pin with an output on it is taken, and no line carries it. The other two are held at the
levels of their rules, as the bits of the added output in order. -/
theorem output_pin_taken_or_held_clocked : ∃ config board verilog,
    Config.ofText (Config.sampleText "b" threePins.outputs) = .ok config ∧
    ("b", board) ∈ config.boards ∧ board.rules = threePins ∧
    clocked.verilog { boardRules := true } threePins = .ok verilog ∧
    clocked.constraints { boardRules := true } threePins = .ok (String.join
      ["set_io vo 95\n", "set_io vclk 21\n"] ++ String.join heldByClocked) ∧
    (∀ j line, heldByClocked[j]? = some line → ∃ pin, line = holdLine 2 j pin ∧ pin ≠ "95") ∧
    (∃ digits, HeldAt verilog heldByClocked ⟨"96", "1"⟩ digits 0) ∧
    ∃ digits, HeldAt verilog heldByClocked ⟨"97", "0"⟩ digits 1 := by
  have hconfig : Config.ofText (Config.sampleText "b" threePins.outputs) =
      .ok { project := ⟨"sample", "0.1.0", "", "design.ice"⟩,
            boards := [("b", ⟨"", threePins⟩)] } := by
    decide +kernel
  obtain ⟨verilog, hverilog⟩ : ∃ verilog,
      clocked.verilog { boardRules := true } threePins = .ok verilog := ⟨_, rfl⟩
  obtain ⟨top, htop, hplaces, hpins⟩ :=
    output_pin_taken_or_held hconfig (List.mem_singleton_self _) rfl rfl hverilog
  obtain ⟨top', htop', hblocks, hlines⟩ : ∃ top',
      Top.ofProject clocked { boardRules := true } threePins = .ok top' ∧
      top'.graph.blocks.flatMap Block.placeLines = ["set_io vo 95\n", "set_io vclk 21\n"] ∧
      holdLines top'.idlePins = heldByClocked := ⟨_, rfl, by decide, by decide⟩
  obtain rfl := Except.ok.inj (htop.symm.trans htop')
  rw [hlines] at hpins
  rw [hblocks, hlines] at hplaces
  have htakes (pin : String) : clocked.graph.Takes pin ↔ pin = "95" := by
    rw [← Graph.mem_takenPins_iff]
    exact List.mem_singleton
  have hheld (rule : OutputRule) (j : Nat) (hrule : rule ∈ threePins.outputs)
      (hpin : rule.pin ≠ "95")
      (hline : heldByClocked[j]? = some (holdLine heldByClocked.length j rule.pin)) :
      ∃ digits, HeldAt verilog heldByClocked rule digits j := by
    obtain ⟨_, digits, i, h⟩ := (hpins rule hrule).resolve_left fun h => hpin ((htakes _).mp h.1)
    obtain rfl : j = i := (h.onPin j).mp (h.placed.1 ▸ hline)
    exact ⟨digits, h⟩
  have hfree := (hpins ⟨"95", "0"⟩ (by decide)).resolve_right fun h => h.1 ((htakes _).mpr rfl)
  exact ⟨_, ⟨"", threePins⟩, verilog, hconfig, List.mem_singleton_self _, rfl, hverilog, hplaces,
    hfree.2, hheld ⟨"96", "1"⟩ 0 (by decide) (by decide) (by decide),
    hheld ⟨"97", "0"⟩ 1 (by decide) (by decide) (by decide)⟩

end Project

end Schematic
