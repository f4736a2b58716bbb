import Schematic.Json.Printer
import Schematic.Summary

/-!
# Summaries as JSON
-/

namespace Schematic

/-- An object from names and values. -/
def Json.record (fields : List (String × Json)) : Json :=
  .object (fields.map fun (name, value) => (some name, value))

def Signal.toJson (s : Signal) : Json :=
  .record [("id", .ofText s.id), ("name", .ofText s.name),
    ("range", (s.range.map Json.ofText).getD .null)]

def Interface.toJson (i : Interface) : Json :=
  .record [("inputs", .array (i.inputs.map Signal.toJson)),
    ("outputs", .array (i.outputs.map Signal.toJson))]

def TestParameter.toJson (p : TestParameter) : Json :=
  .record [("id", .ofText p.id), ("name", .ofText p.name), ("value", .ofText p.value)]

def Request.toJson (r : Request) : Json :=
  .record [("block", .ofText r.block), ("port", .ofText r.port), ("name", .ofText r.name),
    ("pin", .ofText r.pin)]

def OutputRule.toJson (r : OutputRule) : Json :=
  .record [("pin", .ofText r.pin), ("bit", .ofText r.bit)]

def PinMismatch.toJson (m : PinMismatch) : Json :=
  .record [("port", m.request.toJson), ("board_pin", .ofText m.boardPin)]

namespace Summary

def toJson (s : Summary) : Json :=
  .record [("io", s.interface.toJson),
    ("params", .array (s.parameters.map TestParameter.toJson)),
    ("init_ports", .array (s.requests.map Request.toJson)),
    ("init_pins", .array (s.idlePins.map OutputRule.toJson)),
    ("pin_mismatches", .array (s.mismatches.map PinMismatch.toJson))]

/-- The text of a summary. -/
def report (s : Summary) : String := s.toJson.pretty ++ "\n"

end Summary

end Schematic
