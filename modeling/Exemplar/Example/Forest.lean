import Exemplar.Value.Text

/-! The example tree.

An example is a named group of specs with a setup and a teardown hook. A forest keeps its
examples in the order they were made: each knows its parent, and the parent knows its children
in the same order. Names and hooks are rolled up from the parent links when they are asked
for. -/
namespace Exemplar

abbrev NodeId := Nat

/-- One named check. -/
structure Spec where
  description : String
  body : Value
deriving DecidableEq

structure Node where
  name : Value
  parent : Option NodeId
  children : List NodeId := []
  specs : List Spec := []
  setup : Value := .noop
  teardown : Value := .noop
deriving DecidableEq

structure Forest where
  nodes : Array Node := #[]
  roots : List NodeId := []
deriving DecidableEq

namespace Forest

def node? (f : Forest) (n : NodeId) : Option Node := f.nodes[n]?

def size (f : Forest) : Nat := f.nodes.size

def modify (f : Forest) (n : NodeId) (change : Node → Node) : Forest :=
  { f with nodes := f.nodes.modify n change }

/-- A new last child of `parent`, or a new last root; with neither it stands alone. -/
def add (f : Forest) (name : Value) (parent : Option NodeId) (asRoot : Bool := true) : Forest × NodeId :=
  let id := f.size
  let f := { f with nodes := f.nodes.push { name, parent } }
  match parent with
  | some p => (f.modify p fun n => { n with children := n.children ++ [id] }, id)
  | none => (if asRoot then { f with roots := f.roots ++ [id] } else f, id)

def addSpec (f : Forest) (n : NodeId) (s : Spec) : Forest :=
  f.modify n fun node => { node with specs := node.specs ++ [s] }

def setSetup (f : Forest) (n : NodeId) (hook : Value) : Forest :=
  f.modify n fun node => { node with setup := hook }

def setTeardown (f : Forest) (n : NodeId) (hook : Value) : Forest :=
  f.modify n fun node => { node with teardown := hook }

def children (f : Forest) (n : NodeId) : List NodeId := ((f.node? n).map (·.children)).getD []

def specs (f : Forest) (n : NodeId) : List Spec := ((f.node? n).map (·.specs)).getD []

def parent? (f : Forest) (n : NodeId) : Option NodeId := (f.node? n).bind (·.parent)

/-- From a node up to its root, at most `depth` steps. -/
def lineageIn (f : Forest) : Nat → NodeId → List NodeId
  | 0, n => [n]
  | depth + 1, n =>
    n :: match f.parent? n with
      | some p => lineageIn f depth p
      | none => []

/-- The node and its ancestors, innermost first. -/
def lineage (f : Forest) (n : NodeId) : List NodeId := f.lineageIn f.size n

/-- The number of ancestors. -/
def depth (f : Forest) (n : NodeId) : Nat := (f.lineage n).length - 1

/-- The nodes of the lineage, innermost first. -/
def ancestry (f : Forest) (n : NodeId) : List Node := (f.lineage n).filterMap f.node?

/-- Setup hooks, outermost first. -/
def effectiveSetup (f : Forest) (n : NodeId) : List Value := ((f.ancestry n).map (·.setup)).reverse

/-- Teardown hooks, innermost first. -/
def effectiveTeardown (f : Forest) (n : NodeId) : List Value := (f.ancestry n).map (·.teardown)

def nameSeparator : String := ", "

/-- The names from the root down to the node, which must all be texts. -/
def qualifiedName (h : Heap) (f : Forest) (n : NodeId) : Except Failure String :=
  joinTexts h nameSeparator ((f.ancestry n).map (·.name)).reverse

/-- The node and its descendants, each before its children. -/
def walkIn (f : Forest) : Nat → NodeId → List NodeId
  | 0, n => [n]
  | depth + 1, n => n :: (f.children n).flatMap (walkIn f depth)

def walk (f : Forest) (n : NodeId) : List NodeId := f.walkIn f.size n

/-- What a node is called in messages. -/
def shown (h : Heap) (f : Forest) (n : NodeId) : Except Failure String := do
  return "<Example " ++ Text.quote (← f.qualifiedName h n) ++ ">"

end Forest

end Exemplar
