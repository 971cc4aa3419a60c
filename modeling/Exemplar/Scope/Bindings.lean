/-! Names and what they stand for.

Bindings keep the order in which their names were first set; setting a name again keeps its
place, and a name that was erased and is set again comes last. -/
namespace Exemplar

abbrev Bindings (α : Type) := List (String × α)

namespace Bindings

variable {α : Type}

/-- Sets what a name stands for. -/
def set (b : Bindings α) (name : String) (a : α) : Bindings α :=
  if b.any (·.1 = name) then b.map fun (n, old) => if n = name then (n, a) else (n, old)
  else b ++ [(name, a)]

def setAll (b more : Bindings α) : Bindings α := more.foldl (fun b (n, a) => b.set n a) b

def erase (b : Bindings α) (name : String) : Bindings α := b.filter (·.1 ≠ name)

def names (b : Bindings α) : List String := b.map (·.1)

def has (b : Bindings α) (name : String) : Bool := b.any (·.1 = name)

end Bindings

end Exemplar
