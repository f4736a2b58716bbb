/-!
# Board rules

What a board prescribes: the level of output pins that a design leaves unused, and the pins of
its own input sources.
-/

namespace Schematic

/-- An output pin and the level it has when no design uses it. -/
structure OutputRule where
  pin : String
  bit : String
deriving DecidableEq, Inhabited

/-- A source of the board and its pin. -/
structure InputRule where
  port : String
  pin : String
deriving DecidableEq, Inhabited

structure BoardRules where
  outputs : List OutputRule := []
  inputs : List InputRule := []
deriving DecidableEq, Inhabited

end Schematic
