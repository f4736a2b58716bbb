import Schematic.Log

/-!
# Command lines

What a user can ask for: compiling a design, or a summary of it.
-/

namespace Schematic

structure CompileCommand where
  design : Option String := none
  targets : List String := []
  board : Option String := none
  boardRules : Bool := false
  noBoardRules : Bool := false
  outDir : Option String := none
  /-- Artifacts are printed, not written to files. -/
  toStdout : Bool := false
deriving DecidableEq, Inhabited

structure InspectCommand where
  design : Option String := none
  board : Option String := none
deriving DecidableEq, Inhabited

inductive Command where
  | compile (command : CompileCommand)
  | inspect (command : InspectCommand)
deriving DecidableEq, Inhabited

structure CommandLine where
  quiet : Bool := false
  verbose : Bool := false
  logLevel : Log.Threshold := .upTo .warn
  /-- The path given for the configuration. -/
  config : Option String := none
  command : Command
deriving DecidableEq, Inhabited

/-- How much is logged. Being quiet wins over being verbose. -/
def CommandLine.threshold (c : CommandLine) : Log.Threshold :=
  if c.quiet then .upTo .error
  else if c.verbose then c.logLevel.max (.upTo .info)
  else c.logLevel

/-- Why a command line is not carried out. Asking for help or for the version is among the
reasons. -/
inductive UsageFault where
  | unknownArgument
  | unknownCommand
  | missingCommand
  | nothingGiven
  | badValue
  | conflict
  | surplusValue
  | help
  | version
deriving DecidableEq, Inhabited

end Schematic
