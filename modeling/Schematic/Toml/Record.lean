import Schematic.Toml.Basic

/-!
# Records in TOML

A record is a table, whose other keys are ignored, or an array of the fields in the order of their
declaration, whose further items are ignored. A date or time counts as a record without fields.
-/

namespace Schematic.Toml

/-- A declared field of a record under construction. -/
structure RecordField (σ : Type) where
  name : String
  read : Toml → Option (σ → σ)

variable {σ α : Type}

/-- A field whose value is stored by `set`. -/
def field (name : String) (read : Toml → Option α) (set : α → σ → σ) : RecordField σ where
  name := name
  read := fun v => (read v).map set

/-- The items of an array. -/
def items? : Toml → Option (List Toml)
  | .array items => some items
  | .tables list => some (list.map (.table .header))
  | _ => none

/-- Reads the fields a table has. -/
def readEntries (entries : Entries) (record : σ) : List (RecordField σ) → Option σ
  | [] => some record
  | f :: fields =>
    match entries.lookup f.name with
    | none => readEntries entries record fields
    | some v =>
      match f.read v with
      | none => none
      | some update => readEntries entries (update record) fields

/-- Reads items into the fields in order. -/
def readInOrder (record : σ) : List (RecordField σ) → List Toml → Option σ
  | f :: fields, v :: rest =>
    match f.read v with
    | none => none
    | some update => readInOrder (update record) fields rest
  | _, _ => some record

def readRecord (fields : List (RecordField σ)) (start : σ) (v : Toml) : Option σ :=
  match v with
  | .table _ entries => readEntries entries start fields
  | .moment _ => some start
  | _ => (items? v).bind (readInOrder start fields)

/-- Reads every item of an array. -/
def readList (read : Toml → Option α) (v : Toml) : Option (List α) :=
  (items? v).bind (·.mapM read)

/-- Reads every entry of a table. -/
def readMap (read : Toml → Option α) : Toml → Option (List (String × α))
  | .table _ entries => entries.mapM fun (key, v) => (read v).map fun a => (key, a)
  | _ => none

def text? : Toml → Option String
  | .text s => some s
  | _ => none

def flag? : Toml → Option Bool
  | .flag b => some b
  | _ => none

/-- A text, or several in an array. -/
def texts? (v : Toml) : Option (List String) :=
  match v with
  | .text s => some [s]
  | _ => readList text? v

end Schematic.Toml
