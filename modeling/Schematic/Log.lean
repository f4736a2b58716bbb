import Schematic.Text.Plain

/-!
# Log records

Progress of a compilation as data. Records are ordered as they arise; which of them are shown is
decided by a level.
-/

namespace Schematic.Log

inductive Level where
  | error
  | warn
  | info
  | debug
  | trace
deriving DecidableEq, Inhabited

/-- The part of the program that speaks. -/
inductive Source where
  | boardDefaults
  | netlist
  | summary
  | compile
  | session
deriving DecidableEq, Inhabited

structure Record where
  level : Level
  source : Source
  text : String
deriving DecidableEq, Inhabited

/-- Levels by increasing detail. -/
def Level.detail : Level → Nat
  | .error => 1
  | .warn => 2
  | .info => 3
  | .debug => 4
  | .trace => 5

def Level.label : Level → String
  | .error => "ERROR"
  | .warn => "WARN"
  | .info => "INFO"
  | .debug => "DEBUG"
  | .trace => "TRACE"

/-- The name under which a source appears. -/
def Source.label : Source → String
  | .boardDefaults => "weft_codegen::defaults"
  | .netlist => "weft_codegen::verilog"
  | .summary => "weft_codegen::report"
  | .compile => "weft::compile"
  | .session => "weft::pipeline"

/-- Further lines of a text are indented by four spaces. -/
def indentRest (text : String) : String :=
  String.ofList <| text.toList.flatMap fun c =>
    if c = '\n' then '\n' :: List.replicate 4 ' ' else [c]

/-- A record as a line, the level padded to five characters. -/
def Record.line (r : Record) : String :=
  let label := r.level.label
  let padding := String.ofList (List.replicate (5 - label.length) ' ')
  "[" ++ label ++ padding ++ " " ++ r.source.label ++ "] " ++ indentRest r.text

/-- A record as it is reported, in plain text. A string that the record leaves open takes the line
end with it. -/
def Record.report (r : Record) : String := Text.plain (r.line ++ "\n")

/-- How much is shown. -/
inductive Threshold where
  | off
  | upTo (level : Level)
deriving DecidableEq, Inhabited

namespace Threshold

/-- All thresholds, by increasing detail. -/
def all : List Threshold :=
  [.off, .upTo .error, .upTo .warn, .upTo .info, .upTo .debug, .upTo .trace]

def name : Threshold → String
  | .off => "off"
  | .upTo .error => "error"
  | .upTo .warn => "warn"
  | .upTo .info => "info"
  | .upTo .debug => "debug"
  | .upTo .trace => "trace"

def ofName? (s : String) : Option Threshold := all.find? (·.name == s)

@[simp] theorem ofName?_name (t : Threshold) : ofName? t.name = some t := by
  rcases t with _ | (_ | _ | _ | _ | _) <;> rfl

def detail : Threshold → Nat
  | .off => 0
  | .upTo level => level.detail

/-- The record is shown. -/
def admits (t : Threshold) (r : Record) : Bool := r.level.detail ≤ t.detail

/-- The more detailed of two thresholds. -/
def max (a b : Threshold) : Threshold := if a.detail < b.detail then b else a

end Threshold

end Schematic.Log
