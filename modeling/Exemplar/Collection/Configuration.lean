import Exemplar.Scope.Bindings

/-! Configurations of a test session.

A session that asks for global mode switches it on when it is configured, and the mode that
was there before comes back when it ends. Each configuration keeps the mode it found. -/
namespace Exemplar

/-- A command-line option of a test session. -/
structure SessionOption where
  names : List String
  action : String
  destination : String
  default : Bool

def globalOption : SessionOption := ⟨["--specify-global-api"], "store_true", "specify_global_api", false⟩

structure Configurations where
  globalMode : Bool := false
  /-- The modes that the configurations found. -/
  found : Bindings Bool := []

namespace Configurations

def configure (c : Configurations) (name : String) (asked : Bool) : Configurations :=
  { found := c.found.set name c.globalMode, globalMode := asked || c.globalMode }

/-- Brings back the mode that a configuration found. One that was never made changes nothing. -/
def unconfigure (c : Configurations) (name : String) : Configurations :=
  { c with globalMode := (c.found.lookup name).getD c.globalMode }

end Configurations

end Exemplar
