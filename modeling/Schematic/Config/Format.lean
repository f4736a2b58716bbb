import Schematic.Config.Basic
import Schematic.Toml.Document
import Schematic.Toml.Record

/-!
# The configuration format

Reading configurations from TOML, and the configuration text of a sample board.
-/

namespace Schematic.Config

open Toml

structure ProjectFields where
  name : Option String := none
  version : Option String := none
  description : String := ""
  design : Option String := none

def projectFields : List (RecordField ProjectFields) :=
  [field "name" text? fun x r => { r with name := some x },
   field "version" text? fun x r => { r with version := some x },
   field "description" text? fun x r => { r with description := x },
   field "design" text? fun x r => { r with design := some x }]

def readProject (v : Toml) : Option ProjectInfo := do
  let r ← readRecord projectFields {} v
  return ⟨← r.name, ← r.version, r.description, ← r.design⟩

structure PairFields where
  first : Option String := none
  second : Option String := none

def pairFields (first second : String) : List (RecordField PairFields) :=
  [field first text? fun x r => { r with first := some x },
   field second text? fun x r => { r with second := some x }]

def readOutputRule (v : Toml) : Option OutputRule := do
  let r ← readRecord (pairFields "pin" "bit") {} v
  return ⟨← r.first, ← r.second⟩

def readInputRule (v : Toml) : Option InputRule := do
  let r ← readRecord (pairFields "port" "pin") {} v
  return ⟨← r.first, ← r.second⟩

def rulesFields : List (RecordField BoardRules) :=
  [field "output" (readList readOutputRule) fun x r => { r with outputs := x },
   field "input" (readList readInputRule) fun x r => { r with inputs := x }]

def boardFields : List (RecordField Board) :=
  [field "description" text? fun x r => { r with description := x },
   field "rules" (readRecord rulesFields {}) fun x r => { r with rules := x }]

def buildFields : List (RecordField BuildSettings) :=
  [field "board" text? fun x r => { r with board := some x },
   field "board_rules" flag? fun x r => { r with boardRules := x },
   field "targets" texts? fun x r => { r with targets := x },
   field "out_dir" text? fun x r => { r with outDir := x }]

/-- Boards in the order of their names. -/
def sortBoards (boards : List (String × Board)) : List (String × Board) :=
  boards.mergeSort fun a b => !decide (b.1 < a.1)

structure ConfigFields where
  project : Option ProjectInfo := none
  boards : List (String × Board) := []
  build : BuildSettings := {}

def configFields : List (RecordField ConfigFields) :=
  [field "project" readProject fun x r => { r with project := some x },
   field "boards" (readMap (readRecord boardFields {})) fun x r =>
     { r with boards := sortBoards x },
   field "build" (readRecord buildFields {}) fun x r => { r with build := x }]

/-- The configuration a document describes. -/
def read (v : Toml) : Option Config := do
  let r ← readRecord configFields {} v
  return ⟨← r.project, r.boards, r.build⟩

/-- The configuration of a text. -/
def ofText (text : String) : Except ConfigFault Config :=
  match (Toml.ofText? text).bind read with
  | some c => c.validate
  | none => .error .malformed

/-- The text of a configuration with one board that has the given output rules. -/
def sampleText (board : String) (outputs : List OutputRule) : String :=
  "\n[project]\nname = \"sample\"\nversion = \"0.1.0\"\ndesign = \"design.ice\"\n" ++
    String.join (outputs.map fun rule =>
      "\n[[boards." ++ board ++ ".rules.output]]\npin = \"" ++ rule.pin ++ "\"\nbit = \"" ++
        rule.bit ++ "\"\n")

/-- The rules of a sample board, as its configuration text gives them. A board that the text
does not define has none. -/
def sampleRules (board : String) (outputs : List OutputRule) : Except ConfigFault BoardRules :=
  (ofText (sampleText board outputs)).map fun c =>
    match c.choose (some board) with
    | .ok choice => choice.board.rules
    | .error _ => {}

end Schematic.Config
