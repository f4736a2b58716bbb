import Schematic.Toml.Basic

/-!
# Building tables

A text describes its tables piece by piece. No key is set twice, a table gets at most one
header, and dotted keys add only to tables that dotted keys have made. A path that meets a list
of tables goes on in the last of them.
-/

namespace Schematic.Toml

namespace Entries

/-- Sets the value of a key, in place if there is one already. -/
def set (key : String) (v : Toml) : Entries → Entries
  | [] => [(key, v)]
  | entry :: rest => if entry.1 = key then (key, v) :: rest else entry :: set key v rest

@[simp] theorem lookup_set_self (key : String) (v : Toml) (entries : Entries) :
    (set key v entries).lookup key = some v := by
  induction entries with
  | nil => simp [set]
  | cons entry rest ih =>
    obtain ⟨k, w⟩ := entry
    by_cases h : k = key
    · simp [set, h]
    · have hk : (key == k) = false := by simpa using Ne.symm h
      simp [set, h, List.lookup_cons, hk, ih]

theorem lookup_set_of_ne {key other : String} (h : other ≠ key) (v : Toml) (entries : Entries) :
    (set key v entries).lookup other = entries.lookup other := by
  have hk : (other == key) = false := by simpa using h
  induction entries with
  | nil => simp [set, List.lookup_cons, hk]
  | cons entry rest ih =>
    obtain ⟨k, w⟩ := entry
    by_cases he : k = key
    · subst he
      simp [set, List.lookup_cons, hk]
    · simp [set, he, List.lookup_cons, ih]

/-- Changes the last of a list of tables. -/
def changeLast (f : Entries → Option Entries) : List Entries → Option (List Entries)
  | [] => none
  | [last] => (f last).map ([·])
  | first :: rest => (changeLast f rest).map (first :: ·)

/-- Changes the table at a path of headers; tables that are missing on the way are made. -/
def changeAt (f : Entries → Option Entries) : List String → Entries → Option Entries
  | [], entries => f entries
  | key :: rest, entries =>
    match entries.lookup key with
    | none => (changeAt f rest []).map fun inner => entries.set key (.table .path inner)
    | some (.table .inline _) => none
    | some (.table origin inner) =>
      (changeAt f rest inner).map fun inner => entries.set key (.table origin inner)
    | some (.tables list) =>
      (changeLast (changeAt f rest) list).map fun list => entries.set key (.tables list)
    | some _ => none

/-- Gives a key a table with a header. One that is there may only have been passed through. -/
def openTable (key : String) (entries : Entries) : Option Entries :=
  match entries.lookup key with
  | none => some (entries.set key (.table .header []))
  | some (.table .path inner) => some (entries.set key (.table .header inner))
  | some _ => none

/-- Adds an empty table to the list of tables of a key. -/
def openItem (key : String) (entries : Entries) : Option Entries :=
  match entries.lookup key with
  | none => some (entries.set key (.tables [[]]))
  | some (.tables list) => some (entries.set key (.tables (list ++ [[]])))
  | some _ => none

/-- Sets a key that has no value yet. -/
def add (key : String) (v : Toml) (entries : Entries) : Option Entries :=
  match entries.lookup key with
  | none => some (entries.set key v)
  | some _ => none

/-- Sets a key below a path of dotted keys. `accepts` says whether keys may be added to the
table the path starts from. -/
def assign (accepts : Bool) (key : String) (v : Toml) : List String → Entries → Option Entries
  | [], entries => if accepts then entries.add key v else none
  | step :: rest, entries =>
    match entries.lookup step with
    | none => (assign true key v rest []).map fun inner => entries.set step (.table .key inner)
    | some (.table .key inner) =>
      (assign true key v rest inner).map fun inner => entries.set step (.table .key inner)
    | some (.table .path inner) =>
      (assign false key v rest inner).map fun inner => entries.set step (.table .path inner)
    | some (.tables list) =>
      (changeLast (assign false key v rest) list).map fun list => entries.set step (.tables list)
    | some _ => none

/-- Sets a dotted key. -/
def assignKey (path : List String) (v : Toml) (entries : Entries) : Option Entries :=
  match path.getLast? with
  | some key => entries.assign true key v path.dropLast
  | none => none

end Entries

/-- The content of a text so far and the path of its last header. -/
structure Outline where
  root : Entries := []
  place : List String := []

namespace Outline

/-- A header opens a table. -/
def openTable (o : Outline) (path : List String) : Option Outline :=
  match path.getLast? with
  | some key => (o.root.changeAt (·.openTable key) path.dropLast).map (⟨·, path⟩)
  | none => none

/-- A repeated header opens one more table of a list. -/
def openItem (o : Outline) (path : List String) : Option Outline :=
  match path.getLast? with
  | some key => (o.root.changeAt (·.openItem key) path.dropLast).map (⟨·, path⟩)
  | none => none

/-- A dotted key is set in the table that was opened last. -/
def assign (o : Outline) (path : List String) (v : Toml) : Option Outline :=
  (o.root.changeAt (·.assignKey path v) o.place).map fun root => { o with root := root }

end Outline

end Schematic.Toml
