import Exemplar.Example.Outline
import Exemplar.Failure.Message

/-! Errors with a place in the example tree.

Every error of this library holds a message, and all but plugin errors may hold a place. An
error about a group is placed by the group's qualified name and its outline. -/
namespace Exemplar

structure LocatedError where
  kind : ErrorKind
  message : Value
  context : Option Context

namespace LocatedError

/-- What keeps an error from having a place: plugin errors have none, and other libraries'
errors know nothing of it. -/
def refusal? (kind : ErrorKind) : Option Fault :=
  if kind = .pluginError then some (.call "PluginError.__init__" (.unexpected "context"))
  else if kind.isLocated then none
  else if kind.takesNamed then some (.invalidNamed "context" kind.name)
  else some (.takesNoNamed kind.name)

/-- An error with a place. -/
def make (kind : ErrorKind) (message : Value) (context : Option Context) : Except Failure LocatedError :=
  match refusal? kind with
  | some f => .error (.fault f)
  | none => .ok { kind, message, context }

/-- An error about a group of a forest, or about none. -/
def ofExample (kind : ErrorKind) (message : Value) (forest : Forest) (node : Option NodeId)
    (spec : Value) (h : Heap) : Heap × Except Failure LocatedError :=
  if !kind.isLocated then (h, .error (.fault (.noClassAttribute kind.name "from_example")))
  else match node with
  | none => (h, make kind message (some { spec := some spec }))
  | some n =>
    match forest.qualifiedName h n with
    | .error f => (h, .error f)
    | .ok group =>
      let (h, element) := (forest.outline n).toValue h
      (h, make kind message
        (some { group := some (.text group), spec := some spec, element := some element }))

def text (h : Heap) (e : LocatedError) : Except Failure String := locatedText h e.message e.context

def shown (h : Heap) (e : LocatedError) : Except Failure String := errorShown h e.kind [e.message]

end LocatedError

namespace Context

/-- The known parts of a place. -/
def entries (c : Context) : List (String × Value) :=
  [("group", c.group), ("spec", c.spec), ("element", c.element)].filterMap fun (n, v) => v.map (n, ·)

end Context

mutual

/-- A forest with the group that an outline describes below `parent`. -/
def Outline.addTo (f : Forest) (parent : Option NodeId) : Outline → Forest
  | .group name specs groups =>
    let (f, n) := f.add name parent
    let f := specs.foldl (fun f s => f.addSpec n { description := s, body := .noop }) f
    Outline.addAllTo f n groups

def Outline.addAllTo (f : Forest) (parent : NodeId) : List Outline → Forest
  | [] => f
  | o :: os => Outline.addAllTo (Outline.addTo f (some parent) o) parent os

end

/-- The node that is reached from `n` through the children at the given places. -/
def Forest.descend (f : Forest) (n : NodeId) : List Nat → Except Failure NodeId
  | [] => .ok n
  | i :: path =>
    match (f.children n)[i]? with
    | some child => f.descend child path
    | none => .error (.fault .noIndex)

end Exemplar
