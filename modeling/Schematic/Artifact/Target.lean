/-!
# Targets

The kinds of artifacts, their names and the files they go to.
-/

namespace Schematic

inductive Target where
  | verilog
  | constraints
  | testbench
  | waves
deriving DecidableEq, Inhabited

namespace Target

/-- All targets, in the order of generation. -/
def all : List Target := [.verilog, .constraints, .testbench, .waves]

def name : Target → String
  | .verilog => "verilog"
  | .constraints => "pcf"
  | .testbench => "testbench"
  | .waves => "gtkwave"

def fileName : Target → String
  | .verilog => "main.v"
  | .constraints => "main.pcf"
  | .testbench => "main_tb.v"
  | .waves => "main_tb.gtkw"

/-- What starts a comment line. -/
def comment : Target → String
  | .verilog => "//"
  | .constraints => "#"
  | .testbench => "//"
  | .waves => "[*]"

/-- The target of a name. -/
def ofName? (s : String) : Option Target := all.find? (·.name == s)

/-- The name that stands for all targets. -/
def allName : String := "all"

/-- A name that is no target. -/
structure Unknown where
  name : String
deriving DecidableEq, Inhabited

def Unknown.message (u : Unknown) : String :=
  s!"unknown target '{u.name}' (expected verilog, pcf, testbench or gtkwave)"

def parse (s : String) : Except Unknown Target :=
  match ofName? s with
  | some t => .ok t
  | none => .error ⟨s⟩

@[simp] theorem parse_name (t : Target) : parse t.name = .ok t := by
  cases t <;> rfl

/-- The targets one name stands for. -/
def expand (s : String) : Except Unknown (List Target) :=
  if s = allName then .ok all else (parse s).map ([·])

/-- Adds targets that are not yet in a list. -/
def addNew (list new : List Target) : List Target :=
  new.foldl (fun list t => if t ∈ list then list else list ++ [t]) list

/-- The targets of names after those in a list. -/
def collect (list : List Target) : List String → Except Unknown (List Target)
  | [] => .ok list
  | s :: rest =>
    match expand s with
    | .error e => .error e
    | .ok new => collect (addNew list new) rest

/-- The targets of names, each once, by first mention. No names at all stand for all targets. -/
def ofNames (names : List String) : Except Unknown (List Target) :=
  if names.isEmpty then .ok all else collect [] names

end Target

/-- Who made an artifact and when. -/
structure Banner where
  tool : String
  version : String
  timestamp : String
deriving DecidableEq, Inhabited

/-- Two comment lines and a blank one. -/
def Banner.text (b : Banner) (comment : String) : String :=
  comment ++ " Code generated by " ++ b.tool ++ " " ++ b.version ++ "\n" ++
    comment ++ " " ++ b.timestamp ++ "\n\n"

end Schematic
