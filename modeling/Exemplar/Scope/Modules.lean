import Exemplar.Failure
import Exemplar.Scope.Bindings

/-! Modules by name.

A builder that is not a function names its module, and verbs are merged into that one. -/
namespace Exemplar

abbrev Modules (α : Type) := Bindings (Bindings α)

namespace Modules

variable {α : Type}

/-- Merges verbs into the module of a builder, which is shown so if it has none. -/
def merge (ms : Modules α) (module : Option String) (shown : String) (verbs : Bindings α) :
    Except Failure (Modules α) :=
  match module.bind fun n => (ms.lookup n).map (n, ·) with
  | some (n, names) => .ok (ms.set n (names.setAll verbs))
  | none => .error (.misuse (.noNamespace shown) none)

end Modules

end Exemplar
