import Exemplar.Example.Forest

/-! Compilation of a forest into statements.

A statement declares a group or registers a test. A group comes with its qualified name and
all hooks that apply to it, then come its own specs, then its children, in declaration order;
siblings never interleave. -/
namespace Exemplar

inductive Statement
  | group (name : String) (befores afters : List Value)
  | test (description : String) (body : Value)
deriving DecidableEq

/-- An issue for every hook that can not be called. -/
def hookIssues (h : Heap) (field : String) (index : Nat) : List Value → List Issue
  | [] => []
  | v :: rest =>
    let issues := hookIssues h field (index + 1) rest
    if v.isCallable h then issues
    else ⟨.callableType, [.field field, .index index], v⟩ :: issues

/-- A group declaration, refused unless every hook can be called. -/
def Statement.declare (h : Heap) (name : String) (befores afters : List Value) :
    Except Failure Statement :=
  match hookIssues h "befores" 0 befores ++ hookIssues h "afters" 0 afters with
  | [] => .ok (.group name befores afters)
  | issues => .error (.invalid "DeclareGroup" issues)

namespace Forest

def tests (f : Forest) (n : NodeId) : List Statement :=
  (f.specs n).map fun s => .test s.description s.body

/-- The statements of a node and its descendants. -/
def compileIn (h : Heap) (f : Forest) : Nat → NodeId → Except Failure (List Statement)
  | 0, _ => .ok []
  | depth + 1, n => do
    let group ← Statement.declare h (← f.qualifiedName h n) (f.effectiveSetup n) (f.effectiveTeardown n)
    let inner ← (f.children n).mapM (compileIn h f depth)
    return group :: f.tests n ++ inner.flatten

def compileNode (h : Heap) (f : Forest) (n : NodeId) : Except Failure (List Statement) :=
  f.compileIn h f.size n

/-- The statements of the roots, in order. -/
def compile (h : Heap) (f : Forest) : Except Failure (List Statement) := do
  return (← f.roots.mapM (f.compileNode h)).flatten

end Forest

end Exemplar
