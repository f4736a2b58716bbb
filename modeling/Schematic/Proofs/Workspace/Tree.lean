import Schematic.Workspace.Tree
import Schematic.Proofs.Outcome

/-!
# Files of a tree before and after a change

Writing a file changes the entry of one place. A walk to any other place comes across the same
folders as before, so every other file reads as it did, and the new one reads as what was written.
Making a folder changes no file at all.
-/

namespace Schematic

namespace Path

theorem splitFrom_append_slash (part cs rest : List Char) :
    splitFrom part (cs ++ '/' :: rest) = splitFrom part cs ++ splitFrom [] rest := by
  induction cs generalizing part with
  | nil => simp [splitFrom]
  | cons c cs ih =>
      rw [List.cons_append, splitFrom, splitFrom]
      split
      · rw [ih, List.cons_append]
      · exact ih (c :: part)

theorem splitFrom_of_not_mem (part : List Char) {cs : List Char} (h : '/' ∉ cs) :
    splitFrom part cs = [part.reverse ++ cs] := by
  induction cs generalizing part with
  | nil => simp [splitFrom]
  | cons c cs ih =>
      have hc : c ≠ '/' := fun heq => h (heq ▸ List.mem_cons_self)
      rw [splitFrom, if_neg hc, ih (c :: part) fun hcs => h (List.mem_cons_of_mem c hcs)]
      simp

/-- The last part of a path below a folder is the name that was joined to it. -/
theorem exists_parts_join (folder : String) {name : String} (h : '/' ∉ name.toList) :
    ∃ outer, parts (join folder name) = outer ++ [name] := by
  have hname : (splitFrom [] name.toList).map String.ofList = [name] := by
    simp [splitFrom_of_not_mem [] h]
  have hrelative : isAbsolute name = false := by
    rw [isAbsolute, beq_eq_false_iff_ne]
    exact fun hhead => h (List.mem_of_head? hhead)
  -- after a slash the name is split off, whatever comes before it
  have hsplit (cs : List Char) : (splitFrom [] (cs ++ '/' :: name.toList)).map String.ofList =
      (splitFrom [] cs).map String.ofList ++ [name] := by
    rw [splitFrom_append_slash, List.map_append, hname]
  rw [join, if_neg (by simp [hrelative]), parts]
  split
  case isTrue hfolder =>
    rcases hfolder with rfl | hlast
    · exact ⟨[], by simpa using hname⟩
    · obtain ⟨cs, hcs⟩ := List.getLast?_eq_some_iff.mp hlast
      refine ⟨(splitFrom [] cs).map String.ofList, ?_⟩
      rw [String.toList_append, hcs, List.append_assoc]
      exact hsplit cs
  case isFalse =>
    refine ⟨(splitFrom [] folder.toList).map String.ofList, ?_⟩
    rw [String.toList_append, String.toList_append, List.append_assoc]
    exact hsplit folder.toList

end Path

namespace Tree

section Entries

theorem lookup_filter_of_ne {β : Type} (l : List (List String × β)) {place other : List String}
    (h : other ≠ place) : (l.filter (·.1 ≠ place)).lookup other = l.lookup other := by
  induction l with
  | nil => rfl
  | cons e rest ih =>
      obtain ⟨key, value⟩ := e
      by_cases hkey : key = place
      · have hother : (other == key) = false := by simpa [hkey] using h
        rw [List.filter_cons_of_neg (by simp [hkey]), ih, List.lookup_cons, hother]
      · rw [List.filter_cons_of_pos (by simp [hkey]), List.lookup_cons, List.lookup_cons, ih]

theorem entry?_put_self (t : Tree) {place : List String} (h : place ≠ []) (e : TreeEntry) :
    Tree.entry? (t.put place e) place = some e := by
  have hnone : (t.entries.filter (·.1 ≠ place)).lookup place = none := by
    apply List.lookup_eq_none_iff.mpr
    intro x hx
    have hne : x.1 ≠ place := of_decide_eq_true (List.mem_filter.mp hx).2
    exact bne_iff_ne.mpr hne.symm
  rw [Tree.entry?, if_neg h, put, List.lookup_append, hnone]
  simp

theorem entry?_put_of_ne (t : Tree) {place other : List String} (h : other ≠ place)
    (e : TreeEntry) : Tree.entry? (t.put place e) other = t.entry? other := by
  have hother : (other == place) = false := by simpa using h
  rw [Tree.entry?, Tree.entry?, put, List.lookup_append, lookup_filter_of_ne t.entries h]
  simp [List.lookup_cons, hother]

end Entries

section Walks

theorem enter_eq_ok_iff (t : Tree) (place : List String) :
    t.enter place = .ok () ↔ t.entry? place = some .folder := by
  unfold enter
  split <;> simp_all

/-- A name that leads on to an entry of a folder. -/
structure IsName (name : String) : Prop where
  ne_empty : name ≠ ""
  ne_dot : name ≠ "."
  ne_dots : name ≠ ".."
  no_slash : '/' ∉ name.toList

/-- Where one step of a walk leads. -/
def next (t : Tree) (place : List String) (step : String) : Except FileFault (List String) :=
  match t.enter place with
  | .error fault => .error fault
  | .ok () =>
    if step = "" ∨ step = "." then .ok place
    else if step = ".." then .ok place.dropLast
    else if maxNameBytes < step.utf8ByteSize then .error .nameTooLong
    else if (t.entry? (place ++ [step])).isSome then .ok (place ++ [step])
    else .error .notFound

theorem walk_cons (t : Tree) (place rest : List String) (step : String) :
    t.walk place (step :: rest) = (t.next place step).bind fun q => t.walk q rest := by
  rw [walk, next]
  cases t.enter place with
  | error fault => rfl
  | ok =>
      simp only
      repeat' split
      all_goals rfl

theorem walk_append (t : Tree) (place xs ys : List String) :
    t.walk place (xs ++ ys) = (t.walk place xs).bind fun q => t.walk q ys := by
  induction xs generalizing place with
  | nil => rfl
  | cons step rest ih =>
      rw [List.cons_append, walk_cons, walk_cons]
      cases t.next place step with
      | error fault => rfl
      | ok q => exact ih q

/-- A name leads from a folder to an entry in it. -/
theorem next_eq_ok_iff_of_isName {name : String} (h : IsName name) (t : Tree)
    (place q : List String) :
    t.next place name = .ok q ↔ t.entry? place = some .folder ∧
      ¬ maxNameBytes < name.utf8ByteSize ∧ (t.entry? (place ++ [name])).isSome ∧
      q = place ++ [name] := by
  rw [next, ← enter_eq_ok_iff]
  cases t.enter place with
  | error fault => simp
  | ok =>
      simp only [h.ne_empty, h.ne_dot, h.ne_dots, or_self, if_false, true_and]
      split
      case isTrue hlong => simp [hlong]
      case isFalse hlong =>
        split
        case isTrue hthere => simp [hlong, hthere, eq_comm]
        case isFalse hthere => simp [hthere]

/-- One tree has grown out of another: folders are still folders, and where something was there is
something. -/
structure Extends (t t' : Tree) : Prop where
  here : t'.here = t.here
  folder : ∀ place, t.entry? place = some .folder → t'.entry? place = some .folder
  isSome : ∀ place, (t.entry? place).isSome → (t'.entry? place).isSome

variable {t t' : Tree}

theorem Extends.next_eq (h : Extends t t') {place q : List String} {step : String}
    (hnext : t.next place step = .ok q) : t'.next place step = .ok q := by
  rw [next] at hnext ⊢
  cases henter : t.enter place with
  | error fault => simp [henter] at hnext
  | ok =>
      have henter' : t'.enter place = .ok () :=
        (t'.enter_eq_ok_iff place).mpr (h.folder place ((t.enter_eq_ok_iff place).mp henter))
      simp only [henter, henter'] at hnext ⊢
      repeat' split at hnext
      all_goals simp_all [h.isSome]

/-- A walk leads to the same place in a tree that has grown. -/
theorem Extends.walk_eq (h : Extends t t') {place steps q : List String}
    (hwalk : t.walk place steps = .ok q) : t'.walk place steps = .ok q := by
  induction steps generalizing place with
  | nil => exact hwalk
  | cons step rest ih =>
      rw [walk_cons] at hwalk ⊢
      cases hnext : t.next place step with
      | error fault => simp [hnext, Except.bind] at hwalk
      | ok between =>
          rw [hnext] at hwalk
          rw [h.next_eq hnext]
          exact ih hwalk

end Walks

section Places

/-- A path whose last part is a name. -/
structure EndsIn (path name : String) : Prop where
  isName : IsName name
  parts : ∃ outer, Path.parts path = outer ++ [name]

theorem endsIn_join (folder : String) {name : String} (h : IsName name) :
    EndsIn (Path.join folder name) name :=
  ⟨h, Path.exists_parts_join folder h.no_slash⟩

variable {t t' : Tree} {path name : String} {place : List String}

/-- The place for an entry lies in a folder that the rest of the path leads to. -/
theorem newPlace_eq_ok_iff {outer : List String} (hname : IsName name)
    (hparts : Path.parts path = outer ++ [name]) (t : Tree) (place : List String) :
    t.newPlace path = .ok place ↔ checkPath path = .ok () ∧
      ∃ folder, t.walk (t.start path) outer = .ok folder ∧ t.entry? folder = some .folder ∧
        ¬ maxNameBytes < name.utf8ByteSize ∧ place = folder ++ [name] := by
  have hlast : (Path.parts path).reverse.dropWhile (· = "") = name :: outer.reverse := by
    simp [hparts, hname.ne_empty]
  unfold newPlace
  simp only [hlast, bind_eq_ok_iff, List.reverse_reverse, hname.ne_dot, hname.ne_dots, or_self,
    if_false]
  constructor
  · rintro ⟨_, hcheck, folder, hwalk, _, henter, hplace⟩
    split at hplace
    case isTrue => cases hplace
    case isFalse hlong =>
      exact ⟨hcheck, folder, hwalk, (t.enter_eq_ok_iff folder).mp henter, hlong,
        (Except.ok.inj hplace).symm⟩
  · rintro ⟨hcheck, folder, hwalk, hfolder, hlong, rfl⟩
    refine ⟨(), hcheck, folder, hwalk, (), (t.enter_eq_ok_iff folder).mpr hfolder, ?_⟩
    rw [if_neg hlong]

/-- What is at a path is found where an entry would be made. -/
theorem locate_eq_ok_iff (h : EndsIn path name) (t : Tree) (place : List String) :
    t.locate path = .ok place ↔ t.newPlace path = .ok place ∧ (t.entry? place).isSome := by
  obtain ⟨outer, hparts⟩ := h.parts
  have hwalk : t.walk (t.start path) (outer ++ [name]) =
      t.walk (t.start path) outer >>= fun folder => t.next folder name := by
    rw [walk_append]
    apply congrArg (Except.bind (t.walk (t.start path) outer))
    funext folder
    rw [walk_cons]
    cases t.next folder name <;> rfl
  simp only [newPlace_eq_ok_iff h.isName hparts, locate, bind_eq_ok_iff, hparts, hwalk,
    next_eq_ok_iff_of_isName h.isName]
  constructor
  · rintro ⟨_, hcheck, folder, hfolder, hentry, hlong, hsome, rfl⟩
    exact ⟨⟨hcheck, folder, hfolder, hentry, hlong, rfl⟩, hsome⟩
  · rintro ⟨⟨hcheck, folder, hfolder, hentry, hlong, rfl⟩, hsome⟩
    exact ⟨(), hcheck, folder, hfolder, hentry, hlong, hsome, rfl⟩

theorem Extends.newPlace_eq (h : Extends t t') (hpath : EndsIn path name)
    (hplace : t.newPlace path = .ok place) : t'.newPlace path = .ok place := by
  obtain ⟨outer, hparts⟩ := hpath.parts
  rw [newPlace_eq_ok_iff hpath.isName hparts] at hplace ⊢
  obtain ⟨hcheck, folder, hwalk, hfolder, hlong, rfl⟩ := hplace
  have hstart : t'.start path = t.start path := by rw [start, start, h.here]
  exact ⟨hcheck, folder, hstart ▸ h.walk_eq hwalk, h.folder folder hfolder, hlong, rfl⟩

end Places

section Files

variable {t t' : Tree} {path name text : String} {place : List String}

/-- A new place is never the top folder. -/
theorem ne_nil_of_newPlace (h : t.newPlace path = .ok place) : place ≠ [] := by
  unfold newPlace at h
  obtain ⟨_, _, h⟩ := bind_eq_ok_iff.mp h
  split at h
  · cases h
  · obtain ⟨folder, _, h⟩ := bind_eq_ok_iff.mp h
    obtain ⟨_, _, h⟩ := bind_eq_ok_iff.mp h
    split at h
    · cases h
    · split at h
      · cases h
      · rw [← Except.ok.inj h]
        simp

theorem writeText_eq_ok_iff (t t' : Tree) (path text : String) :
    t.writeText path text = .ok t' ↔ ∃ place, t.newPlace path = .ok place ∧
      t.entry? place ≠ some .folder ∧ t' = t.put place (.file text.toUTF8) := by
  rw [writeText, bind_eq_ok_iff]
  apply exists_congr
  intro place
  apply and_congr_right
  intro _
  split
  case h_1 hfolder => simp [hfolder]
  case h_2 hother =>
    constructor
    · exact fun heq => ⟨hother, (Except.ok.inj heq).symm⟩
    · rintro ⟨_, rfl⟩
      rfl

/-- Putting a file where no folder is leaves all folders. -/
theorem extends_put (t : Tree) (hplace : place ≠ []) (h : t.entry? place ≠ some .folder)
    (content : ByteArray) : Extends t (t.put place (.file content)) where
  here := rfl
  folder other hother := by
    have hne : other ≠ place := fun heq => h (heq ▸ hother)
    rwa [entry?_put_of_ne t hne]
  isSome other hother := by
    by_cases heq : other = place
    · rw [heq, entry?_put_self t hplace]
      rfl
    · rwa [entry?_put_of_ne t heq]

/-- The file at a path has a text for its content. -/
def Holds (t : Tree) (path text : String) : Prop :=
  ∃ place, t.newPlace path = .ok place ∧ t.entry? place = some (.file text.toUTF8)

theorem fromUTF8?_toUTF8 (text : String) : String.fromUTF8? text.toUTF8 = some text :=
  dif_pos text.isValidUTF8

/-- A text that a file holds is what is read from it. -/
theorem Holds.readText_eq (h : t.Holds path text) (hpath : EndsIn path name) :
    t.readText path = .ok text := by
  obtain ⟨place, hplace, hentry⟩ := h
  have hlocate := (locate_eq_ok_iff hpath t place).mpr ⟨hplace, by simp [hentry]⟩
  rw [readText, hlocate]
  simp only [bind, Except.bind, hentry, fromUTF8?_toUTF8]

/-- A text that was written is held. -/
theorem holds_of_writeText (h : t.writeText path text = .ok t') (hpath : EndsIn path name) :
    t'.Holds path text := by
  obtain ⟨place, hplace, hentry, rfl⟩ := (writeText_eq_ok_iff t t' path text).mp h
  have hne := ne_nil_of_newPlace hplace
  exact ⟨place, (extends_put t hne hentry _).newPlace_eq hpath hplace, entry?_put_self t hne _⟩

/-- Writing a file leaves a file of another name. -/
theorem Holds.of_writeText {other otherName content : String} (h : t.Holds path text)
    (hwrite : t.writeText other content = .ok t') (hpath : EndsIn path name)
    (hother : EndsIn other otherName) (hne : name ≠ otherName) : t'.Holds path text := by
  obtain ⟨place, hplace, hentry⟩ := h
  obtain ⟨place', hplace', hentry', rfl⟩ := (writeText_eq_ok_iff t t' other content).mp hwrite
  have hextends := extends_put t (ne_nil_of_newPlace hplace') hentry' content.toUTF8
  refine ⟨place, hextends.newPlace_eq hpath hplace, ?_⟩
  rw [entry?_put_of_ne]
  · exact hentry
  · intro heq
    obtain ⟨outer, hparts⟩ := hpath.parts
    obtain ⟨outer', hparts'⟩ := hother.parts
    obtain ⟨_, folder, _, _, _, rfl⟩ := (newPlace_eq_ok_iff hpath.isName hparts t place).mp hplace
    obtain ⟨_, folder', _, _, _, rfl⟩ :=
      (newPlace_eq_ok_iff hother.isName hparts' t place').mp hplace'
    exact hne (List.singleton_inj.mp (List.append_inj_right' heq rfl))

/-- Two trees have the same files; their folders may differ. -/
def SameFiles (t t' : Tree) : Prop :=
  ∀ place content, t'.entry? place = some (.file content) ↔ t.entry? place = some (.file content)

theorem SameFiles.refl (t : Tree) : SameFiles t t := fun _ _ => Iff.rfl

theorem SameFiles.trans {t'' : Tree} (h : SameFiles t t') (h' : SameFiles t' t'') :
    SameFiles t t'' :=
  fun place content => (h' place content).trans (h place content)

/-- Making a folder changes no file. -/
theorem sameFiles_makeFolder (h : t.makeFolder path = .ok t') : SameFiles t t' := by
  rw [makeFolder] at h
  obtain ⟨place, hplace, h⟩ := bind_eq_ok_iff.mp h
  split at h
  case h_1 => cases h
  case h_2 hnone =>
    obtain rfl := Except.ok.inj h
    intro other content
    by_cases heq : other = place
    · rw [heq, entry?_put_self t (ne_nil_of_newPlace hplace), hnone]
      simp
    · rw [entry?_put_of_ne t heq]

end Files

end Tree

end Schematic
