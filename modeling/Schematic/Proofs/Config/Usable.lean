import Schematic.Proofs.Config.Validation
import Schematic.Proofs.Workspace.Delivery

/-!
# Accepted configurations can be used

A configuration that was accepted leaves nothing to fail later, apart from what is asked for on top
of it. A board is found for every session, whatever board the design records, and the names of the
build targets stand for targets: each that is mentioned, once, in the order of first mention.
-/

namespace Schematic

namespace Target

/-- A name stands for a target: it is its own, or that of all targets. -/
def mentions (name : String) (t : Target) : Bool := name == t.name || name == "all"

/-- Where a target is first mentioned. Without a mention this is the number of names. -/
def firstMention (names : List String) (t : Target) : Nat := names.findIdx (mentions · t)

/-- A target is mentioned before another. Those that one name mentions go in the order of all
targets. -/
def MentionedBefore (names : List String) (s t : Target) : Prop :=
  firstMention names s < firstMention names t ∨
    firstMention names s = firstMention names t ∧ all.idxOf s < all.idxOf t

/-- The targets that some names mention, each once, by first mention. -/
structure Gathered (names : List String) (targets : List Target) : Prop where
  nodup : targets.Nodup
  mem_iff : ∀ t, t ∈ targets ↔ ∃ name ∈ names, mentions name t = true
  ordered : targets.Pairwise (MentionedBefore names)

theorem mem_all (t : Target) : t ∈ all := by
  cases t <;> decide

theorem nodup_all : all.Nodup := by decide

theorem ordered_all : all.Pairwise fun s t => all.idxOf s < all.idxOf t := by decide

theorem firstMention_lt_iff (names : List String) (t : Target) :
    firstMention names t < names.length ↔ ∃ name ∈ names, mentions name t = true :=
  List.findIdx_lt_length

theorem firstMention_concat (names : List String) (name : String) (t : Target) :
    firstMention (names ++ [name]) t =
      if firstMention names t < names.length then firstMention names t
      else firstMention [name] t + names.length :=
  List.findIdx_append

/-- Adding targets puts those that are new behind the others. -/
theorem addNew_eq {new : List Target} (hnew : new.Nodup) (list : List Target) :
    addNew list new = list ++ new.filter (· ∉ list) := by
  induction new generalizing list with
  | nil => simp [addNew]
  | cons t rest ih =>
      obtain ⟨ht, hrest⟩ := List.nodup_cons.mp hnew
      rw [addNew, List.foldl_cons]
      split
      case isTrue hmem =>
        rw [← addNew, ih hrest, List.filter_cons_of_neg (by simpa using hmem)]
      case isFalse hmem =>
        have hsame : rest.filter (· ∉ list ++ [t]) = rest.filter (· ∉ list) := by
          apply List.filter_congr
          intro s hs
          have hne : s ≠ t := fun heq => ht (heq ▸ hs)
          simp [hne]
        rw [← addNew, ih hrest, hsame, List.filter_cons_of_pos (by simpa using hmem)]
        simp

/-- A known name stands for the targets that it mentions. -/
theorem expand_eq {name : String} (h : name ∈ Config.targetNames) :
    expand name = .ok (all.filter (mentions name ·)) := by
  have hcases : ∀ name ∈ Config.targetNames, expand name = .ok (all.filter (mentions name ·)) := by
    decide
  exact hcases name h

theorem Gathered.addNew {names : List String} {targets : List Target} (h : Gathered names targets)
    (name : String) :
    Gathered (names ++ [name]) (addNew targets (all.filter (mentions name ·))) := by
  -- what was mentioned keeps its place, and what is new is first mentioned at the end
  have hold (t : Target) (ht : t ∈ targets) :
      firstMention names t < names.length ∧
        firstMention (names ++ [name]) t = firstMention names t := by
    have hlt := (firstMention_lt_iff names t).mpr ((h.mem_iff t).mp ht)
    exact ⟨hlt, by rw [firstMention_concat, if_pos hlt]⟩
  have hlate (t : Target) (ht : t ∈ (all.filter (mentions name ·)).filter (· ∉ targets)) :
      firstMention (names ++ [name]) t = names.length := by
    obtain ⟨hmentioned, hnot⟩ := List.mem_filter.mp ht
    have hnew : ¬ firstMention names t < names.length := by
      rw [firstMention_lt_iff, ← h.mem_iff]
      exact of_decide_eq_true hnot
    have hzero : firstMention [name] t = 0 := by
      simp [firstMention, (List.mem_filter.mp hmentioned).2]
    rw [firstMention_concat, if_neg hnew, hzero, Nat.zero_add]
  rw [addNew_eq (nodup_all.filter _)]
  refine ⟨?_, ?_, ?_⟩
  · apply List.nodup_append.mpr
    refine ⟨h.nodup, (nodup_all.filter _).filter _, ?_⟩
    rintro s hs t ht rfl
    exact of_decide_eq_true (List.mem_filter.mp ht).2 hs
  · intro t
    simp only [List.mem_append, List.mem_filter, mem_all, true_and, h.mem_iff,
      List.mem_singleton, or_and_right, exists_or, exists_eq_left, decide_eq_true_eq]
    by_cases hmentioned : ∃ name ∈ names, mentions name t = true
    · simp only [hmentioned, true_or]
    · simp only [hmentioned, not_false_eq_true, and_true]
  · apply List.pairwise_append.mpr
    refine ⟨?_, ?_, ?_⟩
    · apply h.ordered.imp_of_mem
      intro s t hs ht hbefore
      rw [MentionedBefore, (hold s hs).2, (hold t ht).2]
      exact hbefore
    · apply ((ordered_all.filter _).filter _).imp_of_mem
      intro s t hs ht hbefore
      exact Or.inr ⟨(hlate s hs).trans (hlate t ht).symm, hbefore⟩
    · intro s hs t ht
      left
      rw [(hold s hs).2, hlate t ht]
      exact (hold s hs).1

/-- Collecting goes on with the names that are left. -/
theorem exists_collect {names rest : List String} {targets : List Target}
    (h : Gathered names targets) (hrest : ∀ name ∈ rest, name ∈ Config.targetNames) :
    ∃ result, collect targets rest = .ok result ∧ Gathered (names ++ rest) result := by
  induction rest generalizing names targets with
  | nil => exact ⟨targets, rfl, by simpa using h⟩
  | cons name rest ih =>
      obtain ⟨hname, hrest⟩ := List.forall_mem_cons.mp hrest
      obtain ⟨result, hresult, hgathered⟩ := ih (h.addNew name) hrest
      refine ⟨result, ?_, by simpa using hgathered⟩
      rw [collect, expand_eq hname]
      exact hresult

/-- Known names stand for the targets that they mention, each once and by first mention; no names
at all stand for all of them. -/
theorem exists_ofNames {names : List String} (h : ∀ name ∈ names, name ∈ Config.targetNames) :
    ∃ targets, ofNames names = .ok targets ∧ targets.Nodup ∧
      (∀ t, t ∈ targets ↔ names = [] ∨ "all" ∈ names ∨ t.name ∈ names) ∧
      targets.Pairwise (MentionedBefore names) := by
  cases names with
  | nil =>
      refine ⟨all, rfl, nodup_all, by simp [mem_all], ?_⟩
      exact ordered_all.imp fun hbefore => Or.inr ⟨rfl, hbefore⟩
  | cons name rest =>
      have hstart : Gathered [] [] := ⟨List.nodup_nil, by simp, List.Pairwise.nil⟩
      obtain ⟨targets, htargets, hgathered⟩ := exists_collect hstart h
      refine ⟨targets, htargets, hgathered.nodup, fun t => ?_, hgathered.ordered⟩
      rw [hgathered.mem_iff]
      simp only [List.nil_append, mentions, Bool.or_eq_true, beq_iff_eq, and_or_left, exists_or,
        exists_eq_right, List.cons_ne_nil, false_or]
      exact or_comm

end Target

namespace Session

/-- Without being asked for one, a session finds a board: that of the configuration, or else the
recorded one. -/
theorem exists_chooseBoard {c : Config} (hfault : c.fault? = none) {s : Session} {root : String}
    (hs : s.workspace = some ⟨root, c⟩) : ∃ choice, s.chooseBoard none = .ok choice ∧
      choice.name = c.build.board.or (s.recordedBoard c) ∧
      ∀ name ∈ choice.name, (name, choice.board) ∈ c.boards := by
  have hknown : ∀ name ∈ c.build.board.or (s.recordedBoard c), (c.boards.lookup name).isSome := by
    intro name hname
    cases hboard : c.build.board with
    | some board =>
        obtain rfl : board = name := by simpa [hboard] using hname
        exact ((Config.fault?_eq_none_iff c).mp hfault).2.2.2.1 board hboard
    | none =>
        have hrecorded : s.recordedBoard c = some name := by simpa [hboard] using hname
        exact (Option.filter_eq_some_iff.mp hrecorded).2
  simp only [chooseBoard, hs, Option.none_or]
  cases hname : c.build.board.or (s.recordedBoard c) with
  | none =>
      obtain ⟨hboard, _⟩ := Option.or_eq_none_iff.mp hname
      exact ⟨{}, by simp [Config.choose, hboard, Except.mapError], rfl, by simp⟩
  | some name =>
      obtain ⟨board, hboard⟩ := Option.isSome_iff_exists.mp (hknown name hname)
      obtain ⟨before, after, hsplit, _⟩ := List.lookup_eq_some_iff.mp hboard
      refine ⟨⟨some name, board⟩, by simp [Config.choose, hboard, Except.mapError], rfl, ?_⟩
      rintro _ ⟨⟩
      simp [hsplit]

end Session

namespace Run

open Job

/-- The rules of a session are those of the board that is chosen. -/
theorem result_selectBoard {s : Session} {asked : Option String} {choice : BoardChoice}
    (h : s.chooseBoard asked = .ok choice) (tr : Transcript) (t : Tree) :
    (on (selectBoard s asked) tr t).result = .ok choice.board.rules := by
  simp only [selectBoard, h, orFail, pure_bind]
  split
  · simp only [on_bind, on_log, on_pure]
  · rw [on_pure]

end Run

namespace Config

theorem soundOutputs_iff (rules : List OutputRule) : SoundOutputs rules ↔
    (∀ rule ∈ rules, rule.bit = "0" ∨ rule.bit = "1") ∧ (rules.map OutputRule.pin).Nodup :=
  ⟨fun h => ⟨h.bits, h.pins⟩, fun h => ⟨h.1, h.2⟩⟩

theorem isSome_lookup_iff (boards : List (String × Board)) (name : String) :
    (boards.lookup name).isSome = true ↔ ∃ board, (name, board) ∈ boards := by
  simp [List.lookup_isSome_iff]

/-- A configuration is accepted exactly when it has a name and a design, its boards hold pins at
bits and no pin twice, and the board and the targets it builds for are known. Then neither choosing
a board nor reading the targets fails: whatever the design records, a board is found for a session
that asks for none, and the targets are those that are mentioned, by first mention. -/
theorem accepted_config_usable :
    (∀ c : Config, (∃ d, c.validate = .ok d) ↔
      c.project.name ≠ "" ∧ c.project.design ≠ "" ∧
      (∀ name board, (name, board) ∈ c.boards →
        (∀ rule ∈ board.rules.outputs, rule.bit = "0" ∨ rule.bit = "1") ∧
        (board.rules.outputs.map OutputRule.pin).Nodup) ∧
      (∀ name, c.build.board = some name → ∃ board, (name, board) ∈ c.boards) ∧
      ∀ name ∈ c.build.targets, name ∈ ["verilog", "pcf", "testbench", "gtkwave", "all"]) ∧
    ∀ (text : String) (c : Config), ofText text = .ok c →
      (∀ (s : Session) (root : String), s.workspace = some ⟨root, c⟩ →
        ∃ choice, s.chooseBoard none = .ok choice ∧
          choice.name = c.build.board.or (s.recordedBoard c) ∧
          (∀ name ∈ choice.name, (name, choice.board) ∈ c.boards) ∧
          ∀ tr t, (Job.on (Run.selectBoard s none) tr t).result = .ok choice.board.rules) ∧
      ∃ targets, Target.ofNames c.build.targets = .ok targets ∧ targets.Nodup ∧
        (∀ t, t ∈ targets ↔
          c.build.targets = [] ∨ "all" ∈ c.build.targets ∨ t.name ∈ c.build.targets) ∧
        targets.Pairwise (Target.MentionedBefore c.build.targets) := by
  refine ⟨fun c => ?_, fun text c htext => ?_⟩
  · have haccepted : (∃ d, c.validate = .ok d) ↔ c.fault? = none := by simp [validate_eq_ok_iff]
    simp only [haccepted, fault?_eq_none_iff, soundOutputs_iff, isSome_lookup_iff, Prod.forall]
    rfl
  · have hfault := fault?_of_ofText htext
    refine ⟨fun s root hs => ?_, ?_⟩
    · obtain ⟨choice, hchoice, hname, hboard⟩ := Session.exists_chooseBoard hfault hs
      exact ⟨choice, hchoice, hname, hboard, Run.result_selectBoard hchoice⟩
    · exact Target.exists_ofNames ((fault?_eq_none_iff c).mp hfault).2.2.2.2

/-- Targets in mixed order, and a board that nothing is built for. -/
def mixedText : String :=
  "[project]\nname = \"p\"\nversion = \"1\"\ndesign = \"d\"\n" ++
    "[[boards.b.rules.output]]\npin = \"95\"\nbit = \"1\"\n" ++
    "[build]\ntargets = [\"gtkwave\", \"all\", \"pcf\"]\n"

/-- What the text says. -/
def mixed : Config where
  project := ⟨"p", "1", "", "d"⟩
  boards := [("b", ⟨"", { outputs := [⟨"95", "1"⟩] }⟩)]
  build := { targets := ["gtkwave", "all", "pcf"] }

/-- A session on a design that was drawn for the board. -/
def mixedSession : Session where
  workspace := some ⟨"/w", mixed⟩
  designPath := "/w/d"
  project := ⟨{ board := some "b" }, []⟩

/-- The recorded board is chosen, and all targets are made, the waves first. -/
theorem accepted_config_usable_mixed : ofText mixedText = .ok mixed ∧
    (∃ d, mixed.validate = .ok d) ∧
    (∃ choice, mixedSession.chooseBoard none = .ok choice ∧
      choice.name = mixed.build.board.or (mixedSession.recordedBoard mixed) ∧
      (∀ name ∈ choice.name, (name, choice.board) ∈ mixed.boards) ∧
      ∀ tr t, (Job.on (Run.selectBoard mixedSession none) tr t).result = .ok choice.board.rules) ∧
    ∃ targets, Target.ofNames mixed.build.targets = .ok targets ∧ targets.Nodup ∧
      (∀ t, t ∈ targets ↔
        mixed.build.targets = [] ∨ "all" ∈ mixed.build.targets ∨ t.name ∈ mixed.build.targets) ∧
      targets.Pairwise (Target.MentionedBefore mixed.build.targets) := by
  have htext : ofText mixedText = .ok mixed := by decide +kernel
  obtain ⟨hboards, htargets⟩ := accepted_config_usable.2 mixedText mixed htext
  refine ⟨htext, ?_, hboards mixedSession "/w" rfl, htargets⟩
  exact (accepted_config_usable.1 mixed).mpr (by simp [mixed])

end Config

end Schematic
