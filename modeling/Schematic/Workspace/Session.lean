import Schematic.Artifact.Generate
import Schematic.Config.Format
import Schematic.Design.Format
import Schematic.Workspace.Files

/-!
# Sessions

A session is a design that was opened, with the configuration around it. The configuration is
looked for in the working folder and upwards from there, unless a path is given for it. A design
that is named may do without a configuration.
-/

namespace Schematic

/-- Why a session cannot be opened or used. -/
inductive SessionFault where
  | noConfig (start : String)
  | unreadableConfig (fault : FileFault)
  | config (fault : ConfigFault)
  | unreadableDesign (path : String) (fault : FileFault)
  | malformedDesign (path : String) (reason : Json.Refusal BlockFault)
  | boardWithoutConfig (board : String)
  | target (fault : Target.Unknown)
  | compile (fault : CompileFault)
  | file (fault : FileFault)
deriving DecidableEq, Inhabited

/-- The file that holds the configuration of a project. -/
def Config.fileName : String := "weft.toml"

def SessionFault.message : SessionFault → String
  | .noConfig start => s!"could not find {Config.fileName} in {start} or any parent directory"
  | .unreadableConfig fault => s!"failed to read configuration: {fault.message}"
  | .config fault => fault.message
  | .unreadableDesign path fault => s!"{path}: failed to read design: {fault.message}"
  | .malformedDesign path .malformed => s!"{path}: failed to parse design"
  | .malformedDesign path (.because fault) => s!"{path}: failed to parse design: {fault.message}"
  | .boardWithoutConfig board => s!"board '{board}' given but no {Config.fileName} was found"
  | .target fault => fault.message
  | .compile fault => fault.message
  | .file fault => fault.message

/-- A configuration and the folder it was found in. -/
structure Workspace where
  root : String
  config : Config
deriving DecidableEq, Inhabited

structure Session where
  workspace : Option Workspace
  designPath : String
  project : Project

namespace Session

/-- The build settings; without a configuration, the usual ones. -/
def build (s : Session) : BuildSettings :=
  match s.workspace with
  | some w => w.config.build
  | none => {}

/-- The board recorded in the design, if the configuration knows it. -/
def recordedBoard (s : Session) (c : Config) : Option String :=
  s.project.design.board.filter fun name => (c.boards.lookup name).isSome

/-- The board asked for, or else the one to build for, or else the one recorded in the design. -/
def chooseBoard (s : Session) (asked : Option String) : Except SessionFault BoardChoice :=
  match s.workspace with
  | none =>
    match asked with
    | some board => .error (.boardWithoutConfig board)
    | none => .ok {}
  | some w =>
    let name := (asked.or w.config.build.board).or (s.recordedBoard w.config)
    (w.config.choose name).mapError .config

/-- The folder artifacts are written to. -/
def outDir (s : Session) (asked : Option String) : String :=
  match asked with
  | some path => path
  | none =>
    match s.workspace with
    | some w => Path.join w.root w.config.build.outDir
    | none =>
      match Path.parent? s.designPath with
      | some folder => Path.join folder "build"
      | none => "build"

end Session

/-- What a run leaves on its two output streams. -/
inductive Note where
  | record (r : Log.Record)
  | line (text : String)
deriving DecidableEq, Inhabited

structure Transcript where
  stdout : String := ""
  /-- What goes to the error stream, in order. -/
  notes : List Note := []
deriving DecidableEq, Inhabited

/-- Work on files that keeps a transcript and may fail. -/
abbrev Job (m : Type → Type) := ExceptT SessionFault (StateT Transcript m)

namespace Job

variable {m : Type → Type} [Monad m]

def note (n : Note) : Job m Unit := modify fun t => { t with notes := t.notes ++ [n] }

def log (records : List Log.Record) : Job m Unit :=
  modify fun t => { t with notes := t.notes ++ records.map .record }

def print (text : String) : Job m Unit := modify fun t => { t with stdout := t.stdout ++ text }

def orFail {ε α : Type} (wrap : ε → SessionFault) : Except ε α → Job m α
  | .ok a => pure a
  | .error e => throw (wrap e)

end Job

namespace Workspace

variable {m : Type → Type} [Monad m] [FileSystem m]

/-- The first folder that holds a configuration, from a folder upwards, among at most `fuel`. -/
def findRootUpTo : (fuel : Nat) → String → m (Option String)
  | 0, _ => return none
  | fuel + 1, folder => do
    if ← FileSystem.isThere (Path.join folder Config.fileName) then return some folder
    match Path.parent? folder with
    | some outer => findRootUpTo fuel outer
    | none => return none

/-- The folder of the configuration. A path given for it may be that of a file in this folder. -/
def resolveRoot (given : Option String) : m (Except SessionFault String) := do
  match given with
  | some path =>
    if ← FileSystem.isFile path then return .ok ((Path.parent? path).getD ".")
    return .ok path
  | none =>
    let start ← FileSystem.workingFolder
    match ← findRootUpTo (start.length + 1) start with
    | some root => return .ok root
    | none => return .error (.noConfig start)

/-- The configuration in a folder. -/
def load (root : String) : Job m Workspace := do
  let text ← Job.orFail .unreadableConfig
    (← FileSystem.readText (m := m) (Path.join root Config.fileName))
  let config ← Job.orFail .config (Config.ofText text)
  return ⟨root, config⟩

/-- The configuration around a design that is named. There need not be one, unless a path is
given. -/
def loadOptional (given : Option String) : Job m (Option Workspace) := do
  match ← resolveRoot (m := m) given with
  | .ok root => return some (← load root)
  | .error fault =>
    if given.isSome then throw fault
    Job.log [⟨.debug, .session, s!"no project configuration: {fault.message}"⟩]
    return none

end Workspace

namespace Session

variable {m : Type → Type} [Monad m] [FileSystem m]

/-- The design at a path. -/
def readDesign (path : String) : Job m Project := do
  let text ← Job.orFail (.unreadableDesign path) (← FileSystem.readText (m := m) path)
  Job.orFail (.malformedDesign path) (Project.ofText text)

/-- Opens a design that is named, or else the one the configuration names. -/
def start (design : Option String) (config : Option String) : Job m Session := do
  match design with
  | some path =>
    let workspace ← Workspace.loadOptional config
    return ⟨workspace, path, ← readDesign path⟩
  | none =>
    let root ← Job.orFail id (← Workspace.resolveRoot (m := m) config)
    let w ← Workspace.load root
    let path := Path.join root w.config.project.design
    return ⟨some w, path, ← readDesign path⟩

end Session

end Schematic
