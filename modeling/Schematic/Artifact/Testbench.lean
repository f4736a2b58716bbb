import Schematic.Interface

/-!
# The testbench

A module that uses the top module, runs its clock if it has one, and records all signals. The
list of these signals for a wave viewer goes with it.
-/

namespace Schematic

/-- What a testbench is made for. -/
structure Testbench where
  parameters : List TestParameter
  interface : Interface
deriving DecidableEq, Inhabited

namespace Testbench

def moduleName : String := "main_tb"

/-- How long the simulation runs. -/
def duration : Nat := 10

def header : String :=
  "// Testbench template\n\n`default_nettype none\n`define DUMPSTR(x) `\"x.vcd`\"\n" ++
    "`timescale 10 ns / 1 ns\n\n"

/-- The use of the top module. -/
def topInstance (t : Testbench) : Instance where
  target := Top.moduleName
  name := "MAIN"
  parameters := t.parameters.map fun p => ⟨p.id, .name p.name⟩
  ports := t.interface.signals.map fun s => ⟨s.id, .name s.name⟩

/-- The input that a clock is run on: its name is `clk` in any case. -/
def clock? (t : Testbench) : Option Signal :=
  t.interface.inputs.find? fun s => s.name.toList.map Char.toLower == ['c', 'l', 'k']

def declaration (kind : String) (s : Signal) : String :=
  match s.range with
  | some range => kind ++ " " ++ range ++ " " ++ s.name ++ ";\n"
  | none => kind ++ " " ++ s.name ++ ";\n"

/-- The declarations of all signals: registers for the inputs, then wires for the outputs. -/
def declarations (t : Testbench) : List String :=
  t.interface.inputs.map (declaration "reg") ++ t.interface.outputs.map (declaration "wire")

def timeLines : String :=
  "\n// Simulation time: " ++ toString (duration * 10) ++ "ns (" ++ toString duration ++
    " * 10ns)\nparameter DURATION = " ++ toString duration ++ ";\n"

def parameterLines (t : Testbench) : String :=
  if t.parameters.isEmpty then ""
  else
    "\n// Edit the module parameters here\n// e.g. localparam constant_value = 1;\n" ++
      String.join (t.parameters.map fun p => "localparam " ++ p.name ++ " = " ++ p.value ++ ";\n")

def clockLines (t : Testbench) : String :=
  match t.clock? with
  | some s => "\n// Clock signal\nalways #0.5 " ++ s.name ++ " = ~" ++ s.name ++ ";\n"
  | none => ""

def initialLines (t : Testbench) : String :=
  "\ninitial begin\n // File where to store the simulation results\n" ++
    " $dumpfile(`DUMPSTR(`VCD_OUTPUT));\n $dumpvars(0, " ++ moduleName ++ ");\n\n" ++
    " // Initialize the registers here\n // e.g. value = 1;\n // e.g. #2 value = 0;\n" ++
    String.join (t.interface.inputs.map fun s => " " ++ s.name ++ " = 0;\n") ++
    "\n #(DURATION) $display(\"End of simulation\");\n $finish;\nend\n"

def body (t : Testbench) : String :=
  timeLines ++ t.parameterLines ++
    "\n// Input/Output\n" ++ String.join t.declarations ++
    "\n// Module instance\n" ++ t.topInstance.text ++ "\n" ++
    t.clockLines ++ t.initialLines

def text (t : Testbench) : String :=
  header ++ Module.text { name := moduleName, body := .text t.body }

/-- The path of a signal in the recording of the testbench. -/
def wavePath (s : Signal) : String := moduleName ++ "." ++ s.name ++ s.range.getD ""

/-- The list of signals for a wave viewer. -/
def waves (t : Testbench) : String :=
  String.join (t.interface.signals.map fun s => wavePath s ++ "\n")

end Testbench

/-- The testbench of a project. Its parameters do not depend on board defaults. -/
def Top.testbench (t : Top) (p : Project) : Testbench where
  parameters := p.graph.testParameters
  interface := t.interface

end Schematic
