import Schematic.Workspace.Run
import Schematic.Proofs.Artifact.Prepared
import Schematic.Proofs.Workspace.Job

/-!
# All artifacts or none

The Verilog text has every fault that another artifact can have. A run that starts with it fails
before anything is put out, or has no fault left to meet but those of the file system.
-/

namespace Schematic

section Faults

/-- The constraints, the testbench and the waves have the same fault, if any, and it is one of the
Verilog text too. -/
structure Project.FailTogether (p : Project) (o : Options) (rules : BoardRules) : Prop where
  others :
    (∃ c bench w, p.constraints o rules = .ok c ∧ p.testbench o rules = .ok bench ∧
      p.waves o rules = .ok w) ∨
    ∃ e, p.constraints o rules = .error e ∧ p.testbench o rules = .error e ∧
      p.waves o rules = .error e ∧ p.verilog o rules = .error e
  verilog : ∀ text, p.verilog o rules = .ok text →
    ∃ c bench w, p.constraints o rules = .ok c ∧ p.testbench o rules = .ok bench ∧
      p.waves o rules = .ok w

theorem Project.failTogether (p : Project) (o : Options) (rules : BoardRules) :
    p.FailTogether o rules := by
  cases h : Top.ofProject p o rules with
  | ok top =>
      have hothers : ∃ c bench w, p.constraints o rules = .ok c ∧
          p.testbench o rules = .ok bench ∧ p.waves o rules = .ok w :=
        ⟨_, _, _, map_eq_ok_iff.mpr ⟨top, h, rfl⟩, map_eq_ok_iff.mpr ⟨top, h, rfl⟩,
          map_eq_ok_iff.mpr ⟨top, h, rfl⟩⟩
      exact ⟨Or.inl hothers, fun _ _ => hothers⟩
  | error e =>
      have hfails (t : Target) : t.content p o rules = .error e := by
        rw [t.content_eq_bind, h, Except.bind]
      refine ⟨Or.inr ⟨e, hfails .constraints, hfails .testbench, hfails .waves,
        hfails .verilog⟩, ?_⟩
      intro text htext
      cases htext.symm.trans (hfails .verilog)

/-- If the Verilog text has no fault, there are texts for all targets. -/
theorem Target.generate_cases (p : Project) (o : Options) (rules : BoardRules) (b : Banner) :
    (∃ fault, verilog.generate p o rules b = .error fault) ∨
      ∃ text : Target → String, ∀ t, generate t p o rules b = .ok (text t) := by
  cases h : p.verilog o rules with
  | error fault => exact Or.inl ⟨fault, by rw [generate, content, h, Except.map]⟩
  | ok text =>
      obtain ⟨c, bench, w, hc, hbench, hw⟩ := (p.failTogether o rules).verilog text h
      have hall (t : Target) : ∃ text, t.generate p o rules b = .ok text := by
        cases t with
        | verilog => exact ⟨_, map_eq_ok_iff.mpr ⟨text, h, rfl⟩⟩
        | constraints => exact ⟨_, map_eq_ok_iff.mpr ⟨c, hc, rfl⟩⟩
        | testbench => exact ⟨_, map_eq_ok_iff.mpr ⟨bench, hbench, rfl⟩⟩
        | waves => exact ⟨_, map_eq_ok_iff.mpr ⟨w, hw, rfl⟩⟩
      exact Or.inr (Classical.skolem.mp hall)

end Faults

namespace Target

theorem fileName_inj {a b : Target} (h : a.fileName = b.fileName) : a = b := by
  revert h
  cases a <;> cases b <;> decide

theorem isName_fileName (t : Target) : Tree.IsName t.fileName := by
  cases t <;> exact ⟨by decide, by decide, by decide, by decide⟩

theorem head?_addNew {list : List Target} {t : Target} (h : list.head? = some t)
    (new : List Target) : (addNew list new).head? = some t := by
  induction new generalizing list with
  | nil => exact h
  | cons n rest ih =>
      have hadded : (if n ∈ list then list else list ++ [n]).head? = some t := by
        split
        · exact h
        · simp [h]
      exact ih hadded

theorem head?_collect {list targets : List Target} {t : Target} {names : List String}
    (h : list.head? = some t) (hcollect : collect list names = .ok targets) :
    targets.head? = some t := by
  induction names generalizing list with
  | nil =>
      obtain rfl := Except.ok.inj hcollect
      exact h
  | cons name rest ih =>
      rw [collect] at hcollect
      split at hcollect
      case h_1 => cases hcollect
      case h_2 new _ => exact ih (head?_addNew h new) hcollect

/-- No names at all, and names that start with that of all targets or of the Verilog text, stand
for targets that start with the Verilog text. -/
theorem head?_ofNames {names : List String} {targets : List Target}
    (h : ofNames names = .ok targets)
    (hnames : ∀ name ∈ names.head?, name = allName ∨ name = verilog.name) :
    targets.head? = some .verilog := by
  cases names with
  | nil =>
      obtain rfl := Except.ok.inj h
      rfl
  | cons name rest =>
      obtain rfl | rfl := hnames name rfl
      · change collect all rest = .ok targets at h
        exact head?_collect rfl h
      · change collect [.verilog] rest = .ok targets at h
        exact head?_collect rfl h

end Target

namespace Run

open Job

section Putting

variable (toStdout : Bool) (folder : String) (s : Session) (o : Options) (rules : BoardRules)
  (b : Banner)

theorem putArtifacts_nil :
    (putArtifacts toStdout folder s o rules b [] : Job (StateM Tree) Unit) = pure () := by
  simp [putArtifacts, Project.deliver]

theorem putArtifacts_cons_of_fault {t : Target} {fault : CompileFault}
    (h : t.generate s.project o rules b = .error fault) (rest : List Target) :
    (putArtifacts toStdout folder s o rules b (t :: rest) : Job (StateM Tree) Unit) =
      Job.log (t.log s.project o rules) >>= fun _ => throw (.compile fault) := by
  simp [putArtifacts, Project.deliver, h]

theorem putArtifacts_cons {t : Target} {text : String}
    (h : t.generate s.project o rules b = .ok text) (rest : List Target) :
    (putArtifacts toStdout folder s o rules b (t :: rest) : Job (StateM Tree) Unit) =
      Job.log (t.log s.project o rules) >>= fun _ => putArtifact toStdout folder t text >>=
        fun _ => putArtifacts toStdout folder s o rules b rest := by
  simp [putArtifacts, Project.deliver, h]

end Putting

section Steps

variable (folder : String) (target : Target) (text : String) (tr : Transcript) (t : Tree)

theorem on_putArtifact_print :
    on (putArtifact true folder target text) tr t =
      ⟨.ok (), { tr with stdout := tr.stdout ++ text }, t⟩ := rfl

theorem on_putArtifact_write :
    on (putArtifact false folder target text) tr t =
      match t.writeText (Path.join folder target.fileName) text with
      | .ok t' =>
        ⟨.ok (), { tr with notes := tr.notes ++
          [.record ⟨.info, .compile, s!"Wrote {Path.join folder target.fileName}"⟩] }, t'⟩
      | .error fault => ⟨.error (.file fault), tr, t⟩ := by
  let path := Path.join folder target.fileName
  have hput : (FileSystem.writeText (m := StateM Tree) path text).run t =
      Tree.update (·.writeText path text) t := rfl
  cases h : t.writeText path text with
  | error fault => simp [putArtifact, on_bind, hput, Tree.update, h, orFail, path]
  | ok t' => simp [putArtifact, on_bind, hput, Tree.update, h, orFail, path]

end Steps

section Targets

variable {s : Session} {o : Options} {rules : BoardRules} {b : Banner} {text : Target → String}

/-- Printing goes through all targets and prints their texts in order. -/
theorem on_putArtifacts_print (folder : String)
    (h : ∀ target : Target, target.generate s.project o rules b = .ok (text target))
    (targets : List Target) (tr : Transcript) (t : Tree) :
    (on (putArtifacts true folder s o rules b targets) tr t).result = .ok () ∧
      (on (putArtifacts true folder s o rules b targets) tr t).transcript.stdout =
        tr.stdout ++ String.join (targets.map text) := by
  induction targets generalizing tr with
  | nil =>
      rw [putArtifacts_nil]
      simp
  | cons target rest ih =>
      rw [putArtifacts_cons true folder s o rules b (h target)]
      simp only [on_bind, on_log, on_putArtifact_print]
      obtain ⟨hresult, hprinted⟩ := ih _
      refine ⟨hresult, ?_⟩
      rw [hprinted]
      simp [String.append_assoc]

/-- The artifact that is written joins those that were written before. -/
theorem holds_of_write {folder : String} {done : List Target} {target : Target} {t t' : Tree}
    (hdone : ∀ d ∈ done, t.Holds (Path.join folder d.fileName) (text d))
    (hwrite : t.writeText (Path.join folder target.fileName) (text target) = .ok t') :
    ∀ d ∈ done ++ [target], t'.Holds (Path.join folder d.fileName) (text d) := by
  have hends (d : Target) : Tree.EndsIn (Path.join folder d.fileName) d.fileName :=
    Tree.endsIn_join folder d.isName_fileName
  intro d hd
  by_cases heq : d = target
  · rw [heq]
    exact Tree.holds_of_writeText hwrite (hends target)
  · have hbefore : d ∈ done := by simpa [heq] using hd
    have hne : d.fileName ≠ target.fileName := fun hname => heq (Target.fileName_inj hname)
    exact (hdone d hbefore).of_writeText hwrite (hends d) (hends target) hne

/-- Writing goes through all targets, unless a file cannot be written. -/
theorem on_putArtifacts_write (folder : String)
    (h : ∀ target : Target, target.generate s.project o rules b = .ok (text target))
    (targets : List Target) {done : List Target} (tr : Transcript) {t : Tree}
    (hdone : ∀ d ∈ done, t.Holds (Path.join folder d.fileName) (text d)) :
    (∃ fault, (on (putArtifacts false folder s o rules b targets) tr t).result =
      .error (.file fault)) ∨
    (on (putArtifacts false folder s o rules b targets) tr t).result = .ok () ∧
      ∀ d ∈ done ++ targets,
        (on (putArtifacts false folder s o rules b targets) tr t).tree.Holds
          (Path.join folder d.fileName) (text d) := by
  -- the targets gone through so far are in `done`, and the tree holds their artifacts
  induction targets generalizing done tr t with
  | nil =>
      rw [putArtifacts_nil]
      simpa using hdone
  | cons target rest ih =>
      rw [putArtifacts_cons false folder s o rules b (h target)]
      simp only [on_bind, on_log, on_putArtifact_write]
      cases hwrite : t.writeText (Path.join folder target.fileName) (text target) with
      | error fault => exact Or.inl ⟨fault, rfl⟩
      | ok t' =>
          have hrest (tr' : Transcript) := ih tr' (holds_of_write hdone hwrite)
          simp only [List.append_assoc] at hrest
          exact hrest _

end Targets

section Compiling

variable (c : CompileCommand) (line : CommandLine) (timestamp : String)

/-- Makes the folder that artifacts are written to. -/
def openFolder (c : CompileCommand) (s : Session) : Job (StateM Tree) Unit := do
  Job.log [⟨.info, .compile, heading s⟩]
  if !c.toStdout then
    Job.orFail .file (← FileSystem.makeFolders (m := StateM Tree) (s.outDir c.outDir))

/-- Reports how many artifacts were written. -/
def finish (c : CompileCommand) (line : CommandLine) (s : Session) (targets : List Target) :
    Job (StateM Tree) Unit := do
  if !line.quiet && !c.toStdout then
    Job.note (.line s!"    Finished {targets.length} artifact(s) in {s.outDir c.outDir}")

theorem compile_eq : compile c line timestamp = (do
    let s ← Session.start c.design line.config
    let targets ← Job.orFail .target (Target.ofNames (targetNames c s))
    let rules ← selectBoard s c.board
    openFolder c s
    putArtifacts c.toStdout (s.outDir c.outDir) s (options c s) rules
      ⟨toolName, toolVersion, timestamp⟩ targets
    finish c line s targets) := by
  cases hstdout : c.toStdout with
  | true => simp [compile, openFolder, finish, hstdout]
  | false => simp [compile, openFolder, finish, hstdout]

theorem quiet_selectBoard (s : Session) (asked : Option String) : Quiet (selectBoard s asked) := by
  apply (quiet_orFail id _).bind
  intro choice
  split
  · exact (quiet_log _).bind fun _ => quiet_pure _
  · exact quiet_pure _

/-- The rules that are used are those of the board that is chosen. -/
theorem exists_choice {s : Session} {asked : Option String} {rules : BoardRules}
    {tr tr' : Transcript} {t t' : Tree} (h : on (selectBoard s asked) tr t = ⟨.ok rules, tr', t'⟩) :
    ∃ choice, s.chooseBoard asked = .ok choice ∧ rules = choice.board.rules := by
  cases hchoice : s.chooseBoard asked with
  | error fault => simp [selectBoard, hchoice, orFail] at h
  | ok choice =>
      refine ⟨choice, rfl, ?_⟩
      simp only [selectBoard, hchoice, orFail, pure_bind] at h
      split at h
      · simp only [on_bind, on_log, on_pure, Ending.mk.injEq, Except.ok.injEq] at h
        exact h.1.symm
      · simp only [on_pure, Ending.mk.injEq, Except.ok.injEq] at h
        exact h.1.symm

theorem quiet_openFolder (s : Session) : Quiet (openFolder c s) := by
  apply (quiet_log _).bind
  intro _
  split
  · apply (quiet_lift (Tree.keeps_makeFolders _)).bind
    intro made
    exact quiet_orFail _ made
  · exact quiet_pure _

/-- The report at the end changes neither the result nor what was put out. -/
theorem on_bind_finish (s : Session) (targets : List Target) (x : Job (StateM Tree) Unit)
    (tr : Transcript) (t : Tree) : ∃ notes,
    on (x >>= fun _ => finish c line s targets) tr t =
      { on x tr t with transcript := { (on x tr t).transcript with notes := notes } } := by
  rw [on_bind]
  split
  case h_1 _ tr' t' hend =>
    rw [hend, finish]
    split
    · exact ⟨_, rfl⟩
    · exact ⟨tr'.notes, rfl⟩
  case h_2 fault tr' t' hend =>
    rw [hend]
    exact ⟨tr'.notes, rfl⟩

/-- Every target has its artifact: the texts were printed one after another, or each of them is in
its file. -/
structure Produced (c : CompileCommand) (s : Session) (rules : BoardRules) (b : Banner)
    (targets : List Target) (text : Target → String) (e : Ending Unit) : Prop where
  generated : ∀ target ∈ targets,
    target.generate s.project (options c s) rules b = .ok (text target)
  result : e.result = .ok ()
  printed : c.toStdout = true → e.transcript.stdout = String.join (targets.map text)
  written : c.toStdout = false → ∀ target ∈ targets,
    e.tree.readText (Path.join (s.outDir c.outDir) target.fileName) = .ok (text target)

/-- Targets that start with the Verilog text are put out to the end, unless it fails, or a file
cannot be written. -/
theorem on_putArtifacts_cases (s : Session) (rules : BoardRules) (b : Banner)
    {targets : List Target} (hhead : targets.head? = some .verilog) {tr : Transcript}
    (htr : tr.stdout = "") (t : Tree) {e : Ending Unit}
    (he : e = on (putArtifacts c.toStdout (s.outDir c.outDir) s (options c s) rules b targets >>=
      fun _ => finish c line s targets) tr t) :
    e.FailsQuietly tr t ∨ (∃ fault, e.result = .error (.file fault)) ∨
      ∃ text, Produced c s rules b targets text e := by
  obtain ⟨notes, hfinish⟩ := on_bind_finish c line s targets
    (putArtifacts c.toStdout (s.outDir c.outDir) s (options c s) rules b targets) tr t
  rw [hfinish] at he
  obtain ⟨fault, hfault⟩ | ⟨text, htext⟩ :=
    Target.generate_cases s.project (options c s) rules b
  · obtain ⟨rest, rfl⟩ : ∃ rest, targets = .verilog :: rest :=
      ⟨targets.tail, (List.cons_head?_tail hhead).symm⟩
    rw [putArtifacts_cons_of_fault c.toStdout (s.outDir c.outDir) s _ rules b hfault, on_bind] at he
    subst he
    exact Or.inl ⟨⟨_, rfl⟩, rfl, Tree.SameFiles.refl t⟩
  · cases hstdout : c.toStdout with
    | true =>
        obtain ⟨hresult, hprinted⟩ :=
          on_putArtifacts_print (s.outDir c.outDir) htext targets tr t
        rw [hstdout] at he
        subst he
        refine Or.inr (Or.inr ⟨text, fun target _ => htext target, hresult, ?_, ?_⟩)
        · intro _
          simpa [htr] using hprinted
        · simp [hstdout]
    | false =>
        rw [hstdout] at he
        subst he
        obtain hfails | ⟨hresult, hholds⟩ :=
          on_putArtifacts_write (s.outDir c.outDir) htext targets tr (List.forall_mem_nil _)
        · exact Or.inr (Or.inl hfails)
        · refine Or.inr (Or.inr ⟨text, fun target _ => htext target, hresult, ?_, ?_⟩)
          · simp [hstdout]
          · intro _ target htarget
            apply (hholds target htarget).readText_eq
            exact Tree.endsIn_join _ target.isName_fileName

/-- An ending with all artifacts made for the board that was chosen, or with a file that could not
be written. -/
def Delivers (c : CompileCommand) (s : Session) (b : Banner) (targets : List Target)
    (e : Ending Unit) : Prop :=
  (∃ fault, e.result = .error (.file fault)) ∨
    ∃ choice text, s.chooseBoard c.board = .ok choice ∧
      Produced c s choice.board.rules b targets text e

/-- Whatever a run does before it comes to its targets is quiet. -/
theorem on_compile_cases {s : Session} {targets : List Target} {t : Tree}
    (hs : (on (Session.start c.design line.config) {} t).result = .ok s)
    (htargets : Target.ofNames (targetNames c s) = .ok targets)
    (hhead : targets.head? = some .verilog) :
    (on (compile c line timestamp) {} t).FailsQuietly {} t ∨
      Delivers c s ⟨toolName, toolVersion, timestamp⟩ targets
        (on (compile c line timestamp) {} t) := by
  -- three quiet jobs in a row, then the artifacts, with still nothing printed
  rw [compile_eq]
  apply (quiet_start c.design line.config).fails_or
  intro s' tr₁ t₁ hstart htr₁
  rw [hstart] at hs
  obtain rfl := Except.ok.inj hs
  rw [htargets, orFail, pure_bind]
  apply (quiet_selectBoard s' c.board).fails_or
  intro rules tr₂ t₂ hselect htr₂
  obtain ⟨choice, hchoice, rfl⟩ := exists_choice hselect
  apply (quiet_openFolder c s').fails_or
  intro _ tr₃ t₃ _ htr₃
  have htr : tr₃.stdout = "" := by rw [htr₃, htr₂, htr₁]
  obtain hfails | hfile | ⟨text, hproduced⟩ :=
    on_putArtifacts_cases c line s' choice.board.rules ⟨toolName, toolVersion, timestamp⟩ hhead htr
      t₃ rfl
  · exact Or.inl hfails
  · exact Or.inr (Or.inl hfile)
  · exact Or.inr (Or.inr ⟨choice, text, hchoice, hproduced⟩)

/-- The other artifacts fail together, and the Verilog text fails with them. So a run whose targets
start with the Verilog text, as they do by default, puts out every artifact or none, unless the
file system fails. -/
theorem compile_all_or_none :
    (∀ (p : Project) (o : Options) (rules : BoardRules), p.FailTogether o rules) ∧
    (∀ (names : List String) (targets : List Target), Target.ofNames names = .ok targets →
      (∀ name ∈ names.head?, name = Target.allName ∨ name = Target.verilog.name) →
      targets.head? = some .verilog) ∧
    ∀ (c : CompileCommand) (line : CommandLine) (timestamp : String) (t : Tree) (s : Session)
      (targets : List Target),
      (on (Session.start c.design line.config) {} t).result = .ok s →
      Target.ofNames (targetNames c s) = .ok targets →
      targets.head? = some .verilog →
      (∀ fault, (on (compile c line timestamp) {} t).result ≠ .error (.file fault)) →
      (on (compile c line timestamp) {} t).FailsQuietly {} t ∨
        ∃ choice text, s.chooseBoard c.board = .ok choice ∧
          Produced c s choice.board.rules ⟨toolName, toolVersion, timestamp⟩ targets text
            (on (compile c line timestamp) {} t) := by
  refine ⟨Project.failTogether, fun names targets => Target.head?_ofNames, ?_⟩
  intro c line timestamp t s targets hs htargets hhead hfiles
  obtain hfails | ⟨fault, hfault⟩ | hproduced :=
    on_compile_cases c line timestamp hs htargets hhead
  · exact Or.inl hfails
  · exact absurd hfault (hfiles fault)
  · exact Or.inr hproduced

/-- A tree that holds a design with one block. -/
def oneBlock (type : String) : Tree :=
  Tree.addFile {} ["design.json"] ("[[null, [[[\"a\", \"" ++ type ++ "\"]], []]]]").toUTF8

def everything : CompileCommand := { design := some "design.json", targets := ["all", "pcf"] }

/-- A design with an input is put out as a whole, and one with a block of unknown type not at
all. -/
theorem compile_all_or_none_oneBlock :
    (∃ s, (on (Session.start everything.design none) {} (oneBlock "basic.input")).result = .ok s ∧
      ∃ choice text, s.chooseBoard none = .ok choice ∧
        Produced everything s choice.board.rules ⟨toolName, toolVersion, "now"⟩ Target.all text
          (on (compile everything { command := .compile everything } "now") {}
            (oneBlock "basic.input"))) ∧
    (on (compile everything { command := .compile everything } "now") {}
      (oneBlock "counter")).FailsQuietly {} (oneBlock "counter") := by
  have hopens (t : Tree)
      (h : (on (Session.start everything.design none) {} t).result.toOption.isSome = true) :
      ∃ s, (on (Session.start everything.design none) {} t).result = .ok s := by
    cases hstart : (on (Session.start everything.design none) {} t).result with
    | error fault => simp [hstart, Except.toOption] at h
    | ok s => exact ⟨s, rfl⟩
  constructor
  · obtain ⟨s, hs⟩ := hopens (oneBlock "basic.input") (by decide +kernel)
    have hresult : (on (compile everything { command := .compile everything } "now") {}
        (oneBlock "basic.input")).result = .ok () := by decide +kernel
    obtain hfails | hproduced := compile_all_or_none.2.2 everything
      { command := .compile everything } "now" (oneBlock "basic.input") s Target.all hs rfl rfl
      (by simp [hresult])
    · obtain ⟨fault, hfault⟩ := hfails.fails
      cases hresult.symm.trans hfault
    · exact ⟨s, hs, hproduced⟩
  · obtain ⟨s, hs⟩ := hopens (oneBlock "counter") (by decide +kernel)
    have hresult : (on (compile everything { command := .compile everything } "now") {}
        (oneBlock "counter")).result = .error (.compile (.missingType "a" "counter")) := by
      decide +kernel
    obtain hfails | ⟨choice, text, _, hproduced⟩ := compile_all_or_none.2.2 everything
      { command := .compile everything } "now" (oneBlock "counter") s Target.all hs rfl rfl
      (by simp [hresult])
    · exact hfails
    · cases hresult.symm.trans hproduced.result

end Compiling

end Run

end Schematic
