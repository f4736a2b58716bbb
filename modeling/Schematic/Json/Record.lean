import Schematic.Json.Document

/-!
# Records

A record is written either as an object, its fields by name in any order, or as an array, its
fields in the order of their declaration. Fields an object has beyond the declared ones are
skipped without a look at their values; a declared field that occurs twice is refused.
Everything is read from left to right and the first refusal decides.

Readers are given the number of containers that may still be opened.
-/

namespace Schematic.Json

/-- Why a tree was refused: it has the wrong shape, or its content is refused for a reason of
type `ρ`. -/
inductive Refusal (ρ : Type) where
  | malformed
  | because (reason : ρ)
deriving DecidableEq, Inhabited

/-- How many arrays and objects may be open at once. -/
def maxLevels : Nat := 127

/-- A declared field of a record under construction. -/
structure RecordField (ρ σ : Type) where
  name : String
  read : Json → Except (Refusal ρ) (σ → σ)

variable {ρ σ α : Type}

/-- A field whose value is stored by `set`. -/
def field (name : String) (read : Json → Except (Refusal ρ) α) (set : α → σ → σ) :
    RecordField ρ σ where
  name := name
  read := fun j => (read j).map set

/-- Reads the members of an object into a record. `seen` holds the declared fields read before. -/
def readFields (fields : List (RecordField ρ σ)) (seen : List String) (record : σ) :
    List Member → Except (Refusal ρ) σ
  | [] => .ok record
  | (none, _) :: _ => .error .malformed
  | (some key, value) :: rest =>
    match fields.find? (·.name == key) with
    | none => readFields fields seen record rest
    | some f =>
      if key ∈ seen then .error .malformed
      else
        match f.read value with
        | .error e => .error e
        | .ok update => readFields fields (key :: seen) (update record) rest

/-- Reads the items of an array into the fields in order; there may be fewer items, not more. -/
def readItems (record : σ) : List (RecordField ρ σ) → List Json → Except (Refusal ρ) σ
  | _, [] => .ok record
  | [], _ :: _ => .error .malformed
  | f :: fields, value :: rest =>
    match f.read value with
    | .error e => .error e
    | .ok update => readItems (update record) fields rest

/-- Reads a record. The fields are told how many levels are left inside it. -/
def readRecord (levels : Nat) (fields : Nat → List (RecordField ρ σ)) (start : σ) :
    Json → Except (Refusal ρ) σ
  | .object members =>
    match levels with
    | 0 => .error .malformed
    | inner + 1 => readFields (fields inner) [] start members
  | .array items =>
    match levels with
    | 0 => .error .malformed
    | inner + 1 => readItems start (fields inner) items
  | _ => .error .malformed

/-- Reads every item of an array. -/
def readList (levels : Nat) (read : Nat → Json → Except (Refusal ρ) α) :
    Json → Except (Refusal ρ) (List α)
  | .array items =>
    match levels with
    | 0 => .error .malformed
    | inner + 1 => items.mapM (read inner)
  | _ => .error .malformed

/-- Reads a map from names, in the order of their first occurrence; a repeated name takes its last
value. -/
def readEntries (read : Json → Except (Refusal ρ) α) (entries : List (String × α)) :
    List Member → Except (Refusal ρ) (List (String × α))
  | [] => .ok entries
  | (none, _) :: _ => .error .malformed
  | (some key, value) :: rest =>
    match read value with
    | .error e => .error e
    | .ok a =>
      let updated :=
        if entries.any (·.1 == key) then
          entries.map fun entry => if entry.1 == key then (key, a) else entry
        else entries ++ [(key, a)]
      readEntries read updated rest

def readMap (levels : Nat) (read : Nat → Json → Except (Refusal ρ) α) :
    Json → Except (Refusal ρ) (List (String × α))
  | .object members =>
    match levels with
    | 0 => .error .malformed
    | inner + 1 => readEntries (read inner) [] members
  | _ => .error .malformed

/-- A string. -/
def readText : Json → Except (Refusal ρ) String
  | .string (some s) => .ok s
  | _ => .error .malformed

def readFlag : Json → Except (Refusal ρ) Bool
  | .bool b => .ok b
  | _ => .error .malformed

/-- A string, or a number or truth value by its text. -/
def readScalar : Json → Except (Refusal ρ) String
  | .string (some s) => .ok s
  | .number n =>
    match n.text? with
    | some s => .ok s
    | none => .error .malformed
  | .bool b => .ok (if b then "1" else "0")
  | _ => .error .malformed

/-- A natural number below a bound. -/
def readNat (bound : Nat) : Json → Except (Refusal ρ) Nat
  | .number n =>
    match n.natBelow? bound with
    | some k => .ok k
    | none => .error .malformed
  | _ => .error .malformed

/-- A value, or nothing for `null`. -/
def readOptional (read : Json → Except (Refusal ρ) α) : Json → Except (Refusal ρ) (Option α)
  | .null => .ok none
  | j => (read j).map some

/-- A scalar, or nothing for `null` and for the empty string. -/
def readLabel (j : Json) : Except (Refusal ρ) (Option String) :=
  (readOptional readScalar j).map fun s => s.filter (· ≠ "")

/-- A field that has to be present. -/
def require : Option α → Except (Refusal ρ) α
  | some a => .ok a
  | none => .error .malformed

/-- Reads the tree of a text and then asks whether the text was well-formed to its end. -/
def readDocument (read : Nat → Json → Except (Refusal ρ) α) (text : String) :
    Except (Refusal ρ) α :=
  let document := Document.ofText text
  match read maxLevels document.root with
  | .error e => .error e
  | .ok a => if document.wellFormed then .ok a else .error .malformed

end Schematic.Json
