import Exemplar.Scope.Bindings

/-! The names that a builder function sees.

A function in a scope of its own looks a name up in three layers: first what it has set
itself, then the verbs, then the names of its module. All layers are read when a name is
looked up, so a later change of the verbs or of the module is seen. It writes to the first
layer only, and the module stays as it is. Merging the verbs into the module instead makes
them names like any other there.

The body of a class looks names up in the first layer alone, as it goes past the way in which the
others are consulted. In a module it finds what functions find. -/
namespace Exemplar

structure Layers (α : Type) where
  own : Bindings α := []
  verbs : Bindings α := []
  module : Bindings α := []

/-- The names that a module has without setting them. A scope starts with them. -/
def moduleAttributes : List String := ["__name__", "__builtins__"]

namespace Layers

variable {α : Type}

/-- The scope of a function of a module. -/
def ofModule (module verbs : Bindings α) : Layers α :=
  { own := moduleAttributes.filterMap fun n => (module.lookup n).map (n, ·), verbs, module }

def get? (l : Layers α) (name : String) : Option α :=
  ((l.own.lookup name).or (l.verbs.lookup name)).or (l.module.lookup name)

/-- What a global name stands for, in the layers or in the module itself. -/
def find? (l : Layers α) (layered : Bool) (name : String) : Option α :=
  if layered then l.get? name else l.module.lookup name

/-- What it stands for in the body of a class. -/
def findDirect? (l : Layers α) (layered : Bool) (name : String) : Option α :=
  if layered then l.own.lookup name else l.module.lookup name

def set (l : Layers α) (name : String) (a : α) : Layers α := { l with own := l.own.set name a }

/-- Erases what the function has set itself; there is nothing else that it can erase. -/
def erase? (l : Layers α) (name : String) : Option (Layers α) :=
  if l.own.has name then some { l with own := l.own.erase name } else none

/-- Makes the verbs names of the module. -/
def merge (l : Layers α) : Layers α := { l with module := l.module.setAll l.verbs }

def setModule (l : Layers α) (name : String) (a : α) : Layers α :=
  { l with module := l.module.set name a }

def eraseModule? (l : Layers α) (name : String) : Option (Layers α) :=
  if l.module.has name then some { l with module := l.module.erase name } else none

def setVerb (l : Layers α) (name : String) (a : α) : Layers α := { l with verbs := l.verbs.set name a }

end Layers

end Exemplar
