import Schematic.Workspace.Session
import Schematic.Proofs.Workspace.Tree

/-!
# Jobs on a tree

A job that is carried out on a tree ends with a result, a transcript and a tree. It is quiet if it
prints nothing and changes no file. Opening a session and making folders are quiet, whether they
succeed or not.
-/

namespace Schematic

namespace Tree

section Keeps

variable {α β : Type}

/-- An operation that changes no file. -/
def Keeps (x : StateM Tree α) : Prop := ∀ t, SameFiles t (x.run t).2

theorem keeps_pure (a : α) : Keeps (pure a) := SameFiles.refl

theorem Keeps.bind {x : StateM Tree α} {f : α → StateM Tree β} (hx : Keeps x)
    (hf : ∀ a, Keeps (f a)) : Keeps (x >>= f) :=
  fun t => (hx t).trans (hf (x.run t).1 (x.run t).2)

theorem keeps_workingFolder : Keeps FileSystem.workingFolder := SameFiles.refl

theorem keeps_isThere (path : String) : Keeps (FileSystem.isThere path) := SameFiles.refl

theorem keeps_isFile (path : String) : Keeps (FileSystem.isFile path) := SameFiles.refl

theorem keeps_isFolder (path : String) : Keeps (FileSystem.isFolder path) := SameFiles.refl

theorem keeps_readText (path : String) : Keeps (FileSystem.readText path) := SameFiles.refl

theorem keeps_makeFolder (path : String) : Keeps (FileSystem.makeFolder path) := by
  intro t
  change SameFiles t (update (·.makeFolder path) t).2
  unfold update
  split
  case h_1 t' hmade => exact sameFiles_makeFolder hmade
  case h_2 => exact SameFiles.refl t

theorem keeps_unlessFolder (path : String) (fault : FileFault) :
    Keeps (FileSystem.unlessFolder path fault) :=
  (keeps_isFolder path).bind fun _ => keeps_pure _

theorem keeps_makeFoldersUpTo (fuel : Nat) (path : String) :
    Keeps (FileSystem.makeFoldersUpTo fuel path) := by
  induction fuel generalizing path with
  | zero => exact keeps_pure _
  | succ fuel ih =>
      rw [FileSystem.makeFoldersUpTo]
      split
      · exact keeps_pure _
      · apply (keeps_makeFolder path).bind
        intro made
        split
        · exact keeps_pure _
        · split
          · exact keeps_pure _
          · apply (ih _).bind
            intro outer
            split
            · exact keeps_pure _
            · apply (keeps_makeFolder path).bind
              intro made
              split
              · exact keeps_pure _
              · exact keeps_unlessFolder path _
        · exact keeps_unlessFolder path _

theorem keeps_makeFolders (path : String) : Keeps (FileSystem.makeFolders path) :=
  keeps_makeFoldersUpTo _ path

theorem keeps_findRootUpTo (fuel : Nat) (folder : String) :
    Keeps (Workspace.findRootUpTo fuel folder) := by
  induction fuel generalizing folder with
  | zero => exact keeps_pure _
  | succ fuel ih =>
      rw [Workspace.findRootUpTo]
      apply (keeps_isThere _).bind
      intro found
      split
      · exact keeps_pure _
      · split
        · exact ih _
        · exact keeps_pure _

theorem keeps_resolveRoot (given : Option String) : Keeps (Workspace.resolveRoot given) := by
  unfold Workspace.resolveRoot
  split
  · apply (keeps_isFile _).bind
    intro file
    split <;> exact keeps_pure _
  · apply keeps_workingFolder.bind
    intro start
    apply (keeps_findRootUpTo _ start).bind
    intro root
    split <;> exact keeps_pure _

end Keeps

end Tree

namespace Job

variable {α β : Type}

/-- How a job ends. -/
structure Ending (α : Type) where
  result : Except SessionFault α
  transcript : Transcript
  tree : Tree

/-- Carries out a job, given what was printed and reported before it. -/
def on (job : Job (StateM Tree) α) (tr : Transcript) (t : Tree) : Ending α :=
  let ((result, tr'), t') := (job.run.run tr).run t
  ⟨result, tr', t'⟩

section Equations

variable (tr : Transcript) (t : Tree)

@[simp] theorem on_pure (a : α) : on (pure a) tr t = ⟨.ok a, tr, t⟩ := rfl

@[simp] theorem on_throw (fault : SessionFault) :
    on (throw fault : Job (StateM Tree) α) tr t = ⟨.error fault, tr, t⟩ := rfl

@[simp] theorem on_log (records : List Log.Record) :
    on (log records) tr t = ⟨.ok (), { tr with notes := tr.notes ++ records.map .record }, t⟩ := rfl

@[simp] theorem on_lift (x : StateM Tree α) :
    on (liftM x) tr t = ⟨.ok (x.run t).1, tr, (x.run t).2⟩ := rfl

/-- The second of two jobs goes on where the first ends, unless that fails. -/
theorem on_bind (x : Job (StateM Tree) α) (f : α → Job (StateM Tree) β) :
    on (x >>= f) tr t =
      match on x tr t with
      | ⟨.ok a, tr', t'⟩ => on (f a) tr' t'
      | ⟨.error fault, tr', t'⟩ => ⟨.error fault, tr', t'⟩ := by
  change on (ExceptT.bind x f) tr t = _
  have h : ((ExceptT.bind x f).run.run tr).run t =
      ((ExceptT.bindCont f ((x.run.run tr).run t).1.1).run ((x.run.run tr).run t).1.2).run
        ((x.run.run tr).run t).2 := rfl
  simp only [on, h]
  obtain ⟨⟨result, tr'⟩, t'⟩ := (x.run.run tr).run t
  cases result with
  | ok a => rfl
  | error fault => rfl

end Equations

/-- A job that prints nothing and changes no file. -/
def Quiet (job : Job (StateM Tree) α) : Prop :=
  ∀ tr t, (on job tr t).transcript.stdout = tr.stdout ∧ Tree.SameFiles t (on job tr t).tree

theorem quiet_pure (a : α) : Quiet (pure a) := fun _ t => ⟨rfl, Tree.SameFiles.refl t⟩

theorem quiet_throw (fault : SessionFault) : Quiet (throw fault : Job (StateM Tree) α) :=
  fun _ t => ⟨rfl, Tree.SameFiles.refl t⟩

theorem quiet_log (records : List Log.Record) : Quiet (log records) :=
  fun _ t => ⟨rfl, Tree.SameFiles.refl t⟩

theorem quiet_lift {x : StateM Tree α} (h : Tree.Keeps x) :
    Quiet (liftM x : Job (StateM Tree) α) :=
  fun _ t => ⟨rfl, h t⟩

theorem quiet_orFail {ε : Type} (wrap : ε → SessionFault) (x : Except ε α) :
    Quiet (orFail wrap x) := by
  cases x with
  | ok a => exact quiet_pure a
  | error e => exact quiet_throw (wrap e)

/-- An ending in failure, with nothing printed and no file changed. -/
structure Ending.FailsQuietly (e : Ending α) (tr : Transcript) (t : Tree) : Prop where
  fails : ∃ fault, e.result = .error fault
  printed : e.transcript.stdout = tr.stdout
  files : Tree.SameFiles t e.tree

/-- After a quiet job that succeeds, the next one starts from the same output and the same files. -/
theorem Quiet.on_bind_cases {x : Job (StateM Tree) α} (hx : Quiet x)
    (f : α → Job (StateM Tree) β) (tr : Transcript) (t : Tree) :
    (on (x >>= f) tr t).FailsQuietly tr t ∨
      ∃ a tr' t', on x tr t = ⟨.ok a, tr', t'⟩ ∧ tr'.stdout = tr.stdout ∧
        Tree.SameFiles t t' ∧ on (x >>= f) tr t = on (f a) tr' t' := by
  obtain ⟨hprinted, hfiles⟩ := hx tr t
  rw [on_bind]
  split
  case h_1 a tr' t' hend =>
    rw [hend] at hprinted hfiles
    exact Or.inr ⟨a, tr', t', hend, hprinted, hfiles, rfl⟩
  case h_2 fault tr' t' hend =>
    rw [hend] at hprinted hfiles
    exact Or.inl ⟨⟨fault, rfl⟩, hprinted, hfiles⟩

/-- What holds of the next job's ending holds in the end, unless something fails quietly. -/
theorem Quiet.fails_or {x : Job (StateM Tree) α} {f : α → Job (StateM Tree) β} {tr : Transcript}
    {t : Tree} {Q : Ending β → Prop} (hx : Quiet x)
    (hf : ∀ a tr' t', on x tr t = ⟨.ok a, tr', t'⟩ → tr'.stdout = tr.stdout →
      (on (f a) tr' t').FailsQuietly tr' t' ∨ Q (on (f a) tr' t')) :
    (on (x >>= f) tr t).FailsQuietly tr t ∨ Q (on (x >>= f) tr t) := by
  obtain hfails | ⟨a, tr', t', hend, hprinted, hfiles, hnext⟩ := hx.on_bind_cases f tr t
  · exact Or.inl hfails
  · rw [hnext]
    obtain hfails | hQ := hf a tr' t' hend hprinted
    · exact Or.inl ⟨hfails.fails, hfails.printed.trans hprinted, hfiles.trans hfails.files⟩
    · exact Or.inr hQ

theorem Quiet.bind {x : Job (StateM Tree) α} {f : α → Job (StateM Tree) β} (hx : Quiet x)
    (hf : ∀ a, Quiet (f a)) : Quiet (x >>= f) := by
  intro tr t
  obtain hfails | ⟨a, tr', t', _, hprinted, hfiles, hend⟩ := hx.on_bind_cases f tr t
  · exact ⟨hfails.printed, hfails.files⟩
  · obtain ⟨hprinted', hfiles'⟩ := hf a tr' t'
    rw [hend]
    exact ⟨hprinted'.trans hprinted, hfiles.trans hfiles'⟩

section Sessions

theorem quiet_load (root : String) : Quiet (Workspace.load root) := by
  apply (quiet_lift (Tree.keeps_readText _)).bind
  intro read
  apply (quiet_orFail _ read).bind
  intro text
  apply (quiet_orFail _ _).bind
  intro config
  exact quiet_pure _

theorem quiet_loadOptional (given : Option String) : Quiet (Workspace.loadOptional given) := by
  apply (quiet_lift (Tree.keeps_resolveRoot given)).bind
  intro root
  split
  · exact (quiet_load _).bind fun _ => quiet_pure _
  · split
    · exact (quiet_throw _).bind fun _ => (quiet_log _).bind fun _ => quiet_pure _
    · exact (quiet_log _).bind fun _ => quiet_pure _

theorem quiet_readDesign (path : String) : Quiet (Session.readDesign path) := by
  apply (quiet_lift (Tree.keeps_readText path)).bind
  intro read
  exact (quiet_orFail _ read).bind fun _ => quiet_orFail _ _

/-- Opening a session prints nothing and changes no file. -/
theorem quiet_start (design config : Option String) : Quiet (Session.start design config) := by
  unfold Session.start
  split
  · apply (quiet_loadOptional config).bind
    intro workspace
    exact (quiet_readDesign _).bind fun _ => quiet_pure _
  · apply (quiet_lift (Tree.keeps_resolveRoot config)).bind
    intro found
    apply (quiet_orFail id found).bind
    intro root
    apply (quiet_load root).bind
    intro w
    exact (quiet_readDesign _).bind fun _ => quiet_pure _

end Sessions

end Job

end Schematic
