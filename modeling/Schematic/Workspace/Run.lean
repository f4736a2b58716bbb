import Schematic.CommandLine.Words
import Schematic.Summary.Report
import Schematic.Workspace.Session

/-!
# Runs

A run carries out a command line and leaves an exit code, what it printed and what it reported.
Files that were written before a failure stay.
-/

namespace Schematic

/-- The name and version under which artifacts are made. -/
def toolName : String := "weft"

def toolVersion : String := "0.1.0"

namespace Run

variable {m : Type → Type} [Monad m] [FileSystem m]

/-- The board for a session, reported when it has a name. -/
def selectBoard (s : Session) (asked : Option String) : Job m BoardRules := do
  let choice ← Job.orFail id (s.chooseBoard asked)
  if let some name := choice.name then
    Job.log [⟨.info, .session, s!"Using board {name}"⟩]
  return choice.board.rules

/-- The names of the targets to make. -/
def targetNames (c : CompileCommand) (s : Session) : List String :=
  if c.targets.isEmpty then s.build.targets else c.targets

/-- Board defaults take part when they are asked for, or configured and not declined. -/
def options (c : CompileCommand) (s : Session) : Options :=
  { boardRules := c.boardRules || (!c.noBoardRules && s.build.boardRules) }

/-- What is being compiled. -/
def heading (s : Session) : String :=
  match s.workspace with
  | some w =>
    let info := w.config.project
    s!"Compiling {info.name} v{info.version} ({s.designPath})"
  | none => s!"Compiling {s.designPath}"

/-- Prints an artifact or writes it to its file. -/
def putArtifact (toStdout : Bool) (folder : String) (t : Target) (text : String) : Job m Unit := do
  if toStdout then Job.print text
  else
    let path := Path.join folder t.fileName
    Job.orFail .file (← FileSystem.writeText (m := m) path text)
    Job.log [⟨.info, .compile, s!"Wrote {path}"⟩]

/-- Makes the artifacts of targets. -/
def putArtifacts (toStdout : Bool) (folder : String) (s : Session) (o : Options)
    (rules : BoardRules) (b : Banner) (targets : List Target) : Job m Unit := do
  let delivery := s.project.deliver o rules b targets
  for (t, text) in delivery.artifacts do
    Job.log (t.log s.project o rules)
    putArtifact toStdout folder t text
  if let some fault := delivery.fault then
    if let some t := targets[delivery.artifacts.length]? then
      Job.log (t.log s.project o rules)
    throw (.compile fault)

def compile (c : CompileCommand) (line : CommandLine) (timestamp : String) : Job m Unit := do
  let s ← Session.start c.design line.config
  let targets ← Job.orFail .target (Target.ofNames (targetNames c s))
  let rules ← selectBoard s c.board
  Job.log [⟨.info, .compile, heading s⟩]
  let folder := s.outDir c.outDir
  if !c.toStdout then
    Job.orFail .file (← FileSystem.makeFolders (m := m) folder)
  putArtifacts c.toStdout folder s (options c s) rules ⟨toolName, toolVersion, timestamp⟩ targets
  if !line.quiet && !c.toStdout then
    Job.note (.line s!"    Finished {targets.length} artifact(s) in {folder}")

def inspect (c : InspectCommand) (line : CommandLine) : Job m Unit := do
  let s ← Session.start c.design line.config
  let rules ← selectBoard s c.board
  let summary ← Job.orFail .compile (Summary.ofProject s.project rules)
  Job.log (Summary.log s.project rules)
  Job.print summary.report

def command (line : CommandLine) (timestamp : String) : Job m Unit :=
  match line.command with
  | .compile c => compile c line timestamp
  | .inspect c => inspect c line

/-- What a run leaves. -/
structure Outcome where
  exitCode : UInt32
  stdout : String := ""
  stderr : String := ""
deriving DecidableEq, Inhabited

/-- The text of what was reported. Records have to pass the threshold and are shown in plain text,
other lines as they are. -/
def notesText (threshold : Log.Threshold) (notes : List Note) : String :=
  String.join (notes.filterMap fun
    | .record r => if threshold.admits r then some r.report else none
    | .line text => some (text ++ "\n"))

/-- How the program is called. -/
def usageText : String :=
  "Usage: weft [OPTIONS] <COMMAND>\n\n" ++
    "Commands:\n" ++
    "  compile [DESIGN]  generate artifacts from a design\n" ++
    "  inspect [DESIGN]  print a design's interface and board defaults as JSON\n\n" ++
    "Options:\n" ++
    "  -q, --quiet              report errors only\n" ++
    "  -v, --verbose            report progress\n" ++
    "      --log-level <LEVEL>  off, error, warn, info, debug or trace\n" ++
    "      --config <PATH>      configuration file or its folder\n" ++
    "  -h, --help               print this text\n" ++
    "  -V, --version            print the version\n\n" ++
    "Options of compile:\n" ++
    "  -t, --target <TARGET>    verilog, pcf, testbench, gtkwave or all\n" ++
    "  -b, --board <BOARD>      board whose rules apply\n" ++
    "      --board-rules        apply board defaults\n" ++
    "      --no-board-rules     apply no board defaults\n" ++
    "  -o, --out-dir <FOLDER>   folder for artifacts\n" ++
    "      --stdout             print artifacts\n\n" ++
    "Options of inspect:\n" ++
    "  -b, --board <BOARD>      board whose unused pins are reported\n"

/-- What a command line that is not carried out leaves. -/
def declined : UsageFault → Outcome
  | .help => { exitCode := 0, stdout := usageText }
  | .version => { exitCode := 0, stdout := toolName ++ " " ++ toolVersion ++ "\n" }
  | _ => { exitCode := 2, stderr := usageText }

/-- Runs the program on a list of words. -/
def program (timestamp : String) (words : List String) : m Outcome := do
  match CommandLine.ofWords words with
  | .error fault => return declined fault
  | .ok line =>
    let (result, transcript) ← ((command line timestamp).run).run {}
    let shown := notesText line.threshold
    match result with
    | .ok () =>
      return { exitCode := 0
               stdout := transcript.stdout
               stderr := shown transcript.notes }
    | .error fault =>
      return { exitCode := 1
               stdout := transcript.stdout
               stderr := shown (transcript.notes ++ [.line ("error: " ++ fault.message)]) }

end Run

end Schematic
