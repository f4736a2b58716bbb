/-!
# TOML values

The values of a configuration text. A table remembers how it came about, since that decides
whether a later part of the text may add to it.
-/

namespace Schematic

/-- How a table came about. -/
inductive Toml.Origin where
  /-- It was written between braces. -/
  | inline
  /-- It has a header of its own. -/
  | header
  /-- A longer header passes through it. -/
  | path
  /-- A dotted key passes through it. -/
  | key
deriving DecidableEq, Inhabited

inductive Toml where
  | text (value : String)
  | integer (value : Int)
  /-- A floating-point number as written. -/
  | float (written : String)
  | flag (value : Bool)
  /-- A date, a time or both, as written. -/
  | moment (written : String)
  | array (items : List Toml)
  | table (origin : Toml.Origin) (entries : List (String × Toml))
  /-- Tables that were added one by one under a repeated header. -/
  | tables (list : List (List (String × Toml)))

namespace Toml

instance : Inhabited Toml := ⟨.table .header []⟩

/-- The content of a table. -/
abbrev Entries := List (String × Toml)

end Toml

end Schematic
