import Exemplar.Program.Outcome

/-! Examples held by handles.

Outside a build a node lives while something holds it: a handle, its parent, or the forest. A
child does not hold its parent, so a node whose parent is gone has none from then on. -/
namespace Exemplar

/-- Nodes by the names of their handles, and the statements that were compiled last. -/
structure Handles where
  forest : Forest := {}
  held : Bindings NodeId := []
  statements : List Statement := []

namespace Handles

def find (t : Handles) (id : String) : Except Failure NodeId :=
  match t.held.lookup id with
  | some n => .ok n
  | none => .error (.fault (.unsetName id))

/-- The nodes that are still held. -/
def live (t : Handles) : List NodeId := (t.held.map (·.2) ++ t.forest.roots).flatMap t.forest.walk

/-- Nodes that nothing holds are gone, and are nobody's parent. -/
def settle (t : Handles) : Handles :=
  let live := t.live
  let detach (n : Node) : Node := { n with parent := n.parent.filter live.contains }
  { t with forest := { t.forest with nodes := t.forest.nodes.map detach } }

/-- A new node under a handle. Without a parent it joins the forest if it is asked to. -/
def add (t : Handles) (id : String) (name : Value) (parent : Option String) (asRoot : Bool) :
    Except Failure Handles := do
  let parent ← parent.mapM t.find
  let (forest, n) := t.forest.add name parent asRoot
  return { t with forest, held := Bindings.set t.held id n }.settle

/-- Lets go of a handle. -/
def drop (t : Handles) (id : String) : Except Failure Handles := do
  let _ ← t.find id
  return { t with held := t.held.filter (·.1 ≠ id) }.settle

/-- Lets go of all roots. -/
def clear (t : Handles) : Handles := { t with forest := { t.forest with roots := [] } }.settle

def addSpec (h : Heap) (t : Handles) (id : String) (description : Value) :
    Except Failure (Handles × String) := do
  let n ← t.find id
  match Schema.text h description with
  | .ok s => return ({ t with forest := t.forest.addSpec n ⟨s, .labelled s⟩ }, s)
  | .error kind => throw (.invalid "Spec" [⟨kind, [.field "description"], description⟩])

def setSetup (t : Handles) (id label : String) : Except Failure Handles := do
  return { t with forest := t.forest.setSetup (← t.find id) (.labelled label) }

def setTeardown (t : Handles) (id label : String) : Except Failure Handles := do
  return { t with forest := t.forest.setTeardown (← t.find id) (.labelled label) }

/-- Compiles the forest and keeps the statements. -/
def compile (h : Heap) (t : Handles) : Except Failure Handles := do
  return { t with statements := ← t.forest.compile h }

/-- A kept statement; negative places count from the end. -/
def statement (t : Handles) (index : Int) : Except Failure Statement :=
  let place := if index < 0 then index + t.statements.length else index
  match if place < 0 then none else t.statements[place.toNat]? with
  | some s => .ok s
  | none => .error (.fault .noIndex)

end Handles

/-- What a labelled hook is called. -/
def Value.label : Value → String
  | .labelled s => s
  | _ => "noop"

namespace Statement

/-- Runs a statement by itself: the setup and the teardown of a group, or the body of a test. -/
def execute : Statement → Act Unit
  | .group _ befores afters => do
    Act.runHooks Act.call befores
    Act.runHooks Act.call afters
  | .test _ body => do let _ ← Act.call body [] []

end Statement

namespace Act

/-- The labels recorded by `a`. -/
def labels (a : Act Unit) : Act (List String) := do
  modify fun s => { s with log := [] }
  a
  return (← get).log.reverse.filterMap fun e =>
    match e.event with
    | .label s => some s
    | _ => none

/-- Runs statements on an engine of their own. -/
def performAlone (statements : List Statement) : Act (List String × Engine) := do
  let e ← newEngine .sync
  let made ← labels (performAll call e statements)
  return (made, ← engine e)

end Act

end Exemplar
