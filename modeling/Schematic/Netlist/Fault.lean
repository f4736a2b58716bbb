/-!
# Compilation faults
-/

namespace Schematic

/-- Why a project cannot be compiled. -/
inductive CompileFault where
  /-- A block uses a type that no visible library holds. -/
  | missingType (block type : String)
  /-- A type occurs among the types it is nested in. -/
  | nestedInItself (type : String)
deriving DecidableEq, Inhabited

def CompileFault.message : CompileFault → String
  | .missingType block type => s!"block '{block}' instantiates unknown sub-circuit type '{type}'"
  | .nestedInItself type => s!"sub-circuit type '{type}' depends on itself"

end Schematic
