import Schematic.Board.Rules
import Schematic.Artifact.Target

/-!
# Project configuration

The configuration of a project names its design, lists the boards it knows and says how it is built.
-/

namespace Schematic

structure ProjectInfo where
  name : String
  version : String
  description : String := ""
  /-- The path of the design. -/
  design : String
deriving DecidableEq, Inhabited

structure Board where
  description : String := ""
  rules : BoardRules := {}
deriving DecidableEq, Inhabited

structure BuildSettings where
  /-- The board that is used when none is asked for. -/
  board : Option String := none
  boardRules : Bool := false
  targets : List String := []
  outDir : String := "build"
deriving DecidableEq, Inhabited

structure Config where
  project : ProjectInfo
  /-- Boards by name, in the order of their names. -/
  boards : List (String × Board) := []
  build : BuildSettings := {}
deriving DecidableEq, Inhabited

/-- Why a configuration is refused. -/
inductive ConfigFault where
  /-- The text is no configuration. -/
  | malformed
  | missingField (name : String)
  | badBit (board pin bit : String)
  | repeatedPin (board pin : String)
  | unknownBoard (name : String)
  | unknownTarget (name : String)
deriving DecidableEq, Inhabited

namespace Config

/-- The names that may stand in a list of build targets. -/
def targetNames : List String := Target.all.map Target.name ++ [Target.allName]

end Config

def ConfigFault.message : ConfigFault → String
  | .malformed => "failed to parse configuration"
  | .missingField name => s!"missing required field: {name}"
  | .badBit board pin bit =>
    s!"validation error: board '{board}': output pin {pin} has bit '{bit}', expected 0 or 1"
  | .repeatedPin board pin => s!"validation error: board '{board}': output pin {pin} listed twice"
  | .unknownBoard name => s!"unknown board '{name}'"
  | .unknownTarget name =>
    s!"validation error: unknown build target '{name}' (expected one of " ++
      ", ".intercalate Config.targetNames ++ ")"

namespace Config

/-- The first fault in the output rules of a board. `seen` holds the pins listed before. -/
def outputFault? (board : String) (seen : List String) : List OutputRule → Option ConfigFault
  | [] => none
  | rule :: rest =>
    if rule.bit ≠ "0" ∧ rule.bit ≠ "1" then some (.badBit board rule.pin rule.bit)
    else if rule.pin ∈ seen then some (.repeatedPin board rule.pin)
    else outputFault? board (rule.pin :: seen) rest

/-- The first fault of a configuration, if it has one. -/
def fault? (c : Config) : Option ConfigFault :=
  if c.project.name = "" then some (.missingField "project.name")
  else if c.project.design = "" then some (.missingField "project.design")
  else
    let boardFault := c.boards.findSome? fun (name, board) =>
      outputFault? name [] board.rules.outputs
    let defaultFault := match c.build.board with
      | some name => if (c.boards.lookup name).isSome then none else some (.unknownBoard name)
      | none => none
    let targetFault := (c.build.targets.find? (· ∉ targetNames)).map .unknownTarget
    (boardFault.or defaultFault).or targetFault

/-- A configuration without faults. -/
def validate (c : Config) : Except ConfigFault Config :=
  match c.fault? with
  | some fault => .error fault
  | none => .ok c

theorem validate_eq_ok_iff {c d : Config} : c.validate = .ok d ↔ c.fault? = none ∧ c = d := by
  unfold validate
  split <;> simp_all

end Config

/-- The board chosen for a compilation; it has no name when none was asked for. -/
structure BoardChoice where
  name : Option String := none
  board : Board := {}
deriving DecidableEq, Inhabited

/-- The board asked for, or else the one the configuration builds for. -/
def Config.choose (c : Config) (asked : Option String) : Except ConfigFault BoardChoice :=
  match asked.or c.build.board with
  | none => .ok {}
  | some name =>
    match c.boards.lookup name with
    | some board => .ok ⟨some name, board⟩
    | none => .error (.unknownBoard name)

end Schematic
