import Schematic.CommandLine.Basic

/-!
# Arguments

The flags and options of each command. Some belong to all of them and may stand before the
command as well as after it.
-/

namespace Schematic

inductive Argument where
  | quiet
  | verbose
  | logLevel
  | config
  | help
  | version
  | design
  | target
  | board
  | boardRules
  | noBoardRules
  | outDir
  | stdout
deriving DecidableEq, Inhabited

/-- Where an argument stands: before the command or after it. -/
inductive CommandLevel where
  | top
  | compile
  | inspect
deriving DecidableEq, Inhabited

namespace Argument

def long? : Argument → Option String
  | .quiet => some "quiet"
  | .verbose => some "verbose"
  | .logLevel => some "log-level"
  | .config => some "config"
  | .help => some "help"
  | .version => some "version"
  | .design => none
  | .target => some "target"
  | .board => some "board"
  | .boardRules => some "board-rules"
  | .noBoardRules => some "no-board-rules"
  | .outDir => some "out-dir"
  | .stdout => some "stdout"

def short? : Argument → Option Char
  | .quiet => some 'q'
  | .verbose => some 'v'
  | .help => some 'h'
  | .version => some 'V'
  | .target => some 't'
  | .board => some 'b'
  | .outDir => some 'o'
  | _ => none

def takesValue : Argument → Bool
  | .logLevel | .config | .design | .target | .board | .outDir => true
  | _ => false

/-- It may be given several times at one level. -/
def isRepeatable : Argument → Bool
  | .target => true
  | _ => false

/-- The value is one the argument can have. Paths are not empty. -/
def accepts (a : Argument) (value : String) : Bool :=
  match a with
  | .logLevel => (Log.Threshold.ofName? value).isSome
  | .design | .outDir => value ≠ ""
  | _ => true

end Argument

namespace CommandLevel

/-- The arguments that can be given at a level. -/
def arguments : CommandLevel → List Argument
  | .top => [.quiet, .verbose, .logLevel, .config, .help, .version]
  | .compile => [.quiet, .verbose, .logLevel, .config, .help, .design, .target, .board, .boardRules,
      .noBoardRules, .outDir, .stdout]
  | .inspect => [.quiet, .verbose, .logLevel, .config, .help, .design, .board]

def long? (level : CommandLevel) (name : String) : Option Argument :=
  level.arguments.find? (·.long? == some name)

def short? (level : CommandLevel) (c : Char) : Option Argument :=
  level.arguments.find? (·.short? == some c)

end CommandLevel

end Schematic
