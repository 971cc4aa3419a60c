import Exemplar.Engine.Basic
import Exemplar.Example.Outline
import Exemplar.Failure.Message
import Exemplar.Registry.Basic
import Exemplar.Scope.Bindings

/-! Sessions: what programs read and change.

A session holds the memory of its programs (the store, names, the registry, the log of what
happened), the builds and engines made so far, and which build and which engine are current.
An `Act` is a computation on a session that may fail; what it did before it failed stays done.
`Act.ensuring` is the one way to clean up: the cleanup runs however the computation ended. -/
namespace Exemplar

/-- The forest of one build and the group that is being described. -/
structure Build where
  forest : Forest := {}
  cursor : Option NodeId := none
deriving DecidableEq

/-- What a program shows of itself. -/
inductive Event
  | described (shown : String)
  | hookReturned (same : Bool)
  | declared (description : String)
  | declaredEach (descriptions : List String)
  | returned (v : Value)
  | bound (shown : String)
  | clock (seconds : Value)
  | caught (failure : Option Described)
  | thread (failure : Option Described)
  | log (v : Value)
  | cursor (name : Option (Option String))
  | forest (outlines : Option (List Value))
  | verbs (names : List String)
  | built (outlines : List Value)
  | builtOnce
  | specified (same : Bool) (engine : Option Engine)
  | specification (shown : String)
  | sameEngine (same : Bool)
  | setTitle (title : Value)
  | declareGroup (name : Value)
  | runTest (description : Value)
  | report (passed : Bool) (message : Value)
  | pause
  | resume
  | label (name : String)

/-- An event, and the store in which its values are read. -/
structure Entry where
  heap : Heap
  event : Event

/-- The module of a builder function. -/
abbrev ModuleId := Nat

/-- The modules, and the builders that the names in them belong to. Names get there when the verbs of a
builder are merged into the module. -/
structure Namespaces where
  size : Nat := 0
  names : ModuleId → Bindings BuildId := fun _ => []

namespace Namespaces

def add (m : Namespaces) : Namespaces := { m with size := m.size + 1 }

def set (m : Namespaces) (module : ModuleId) (names : Bindings BuildId) : Namespaces :=
  { m with names := fun i => if i = module then names else m.names i }

end Namespaces

/-- What programs keep between their steps. -/
structure Memory where
  heap : Heap := {}
  /-- Values that terms gave a name. -/
  names : Bindings Value := []
  /-- What the variables hold. -/
  stored : Bindings Value := []
  /-- The subjects of kept handlers. -/
  handlers : Bindings Value := []
  /-- Builders that were saved under a name. -/
  builders : Bindings BuildId := []
  registry : Registry := Registry.initial
  /-- What waits call with the seconds; without it they only show them. -/
  clock : Option Value := none
  globalMode : Bool := false
  modules : Namespaces := {}
  /-- The latest entry first. -/
  log : List Entry := []

structure Session extends Memory where
  builds : Array Build := #[]
  building : Option BuildId := none
  engines : Array Engine := #[]
  running : Option EngineId := none

abbrev Act := ExceptT Failure (StateM Session)

/-- Calls a value with positional and named arguments. -/
abbrev Call := Value → List Value → List (String × Value) → Act Value

namespace Act

variable {α : Type}

def fault (f : Fault) : Act α := throw (.fault f)

def misuse (m : Misuse) : Act α := throw (.misuse m none)

def ofExcept : Except Failure α → Act α
  | .ok a => pure a
  | .error f => throw f

/-- A computation on the store. -/
def reading (f : Heap → Except Failure α) : Act α := do ofExcept (f (← get).heap)

/-- A computation that adds to the store. -/
def making (f : Heap → Heap × α) : Act α :=
  modifyGet fun s =>
    let (h, a) := f s.heap
    (a, { s with heap := h })

def alloc (c : Cell) : Act Value := making (·.alloc c)

/-- Runs `a` and then `cleanup`, however `a` ended. If both fail, the cleanup's failure counts. -/
def ensuring (a : Act α) (cleanup : Act Unit) : Act α := fun s =>
  let (result, s) := a s
  match cleanup s with
  | (.ok (), s) => (result, s)
  | (.error f, s) => (.error f, s)

/-- Runs `a` and answers with how it ended. -/
def attempt (a : Act α) : Act (Except Failure α) := fun s =>
  let (result, s) := a s
  (.ok result, s)

def record (e : Event) : Act Unit := modify fun s => { s with log := ⟨s.heap, e⟩ :: s.log }

/-- Runs `a` inside the build `b`, or inside none. -/
def duringBuild (b : Option BuildId) (a : Act α) : Act α := do
  let outer := (← get).building
  modify fun s => { s with building := b }
  ensuring a (modify fun s => { s with building := outer })

/-- Runs `a` with reports going to the engine `e`, or to none. -/
def duringRun (e : Option EngineId) (a : Act α) : Act α := do
  let outer := (← get).running
  modify fun s => { s with running := e }
  ensuring a (modify fun s => { s with running := outer })

def newBuild : Act BuildId :=
  modifyGet fun s => (s.builds.size, { s with builds := s.builds.push {} })

def build (b : BuildId) : Act Build := do return (← get).builds.getD b {}

def changeBuild (b : BuildId) (change : Build → Build) : Act Unit :=
  modify fun s => { s with builds := s.builds.modify b change }

def changeForest (b : BuildId) (change : Forest → Forest) : Act Unit :=
  changeBuild b fun build => { build with forest := change build.forest }

def setCursor (b : BuildId) (cursor : Option NodeId) : Act Unit :=
  changeBuild b fun build => { build with cursor }

def newEngine (kind : EngineKind) : Act EngineId :=
  modifyGet fun s => (s.engines.size, { s with engines := s.engines.push (.fresh kind) })

def engine (e : EngineId) : Act Engine := do return (← get).engines.getD e .recording

def setEngine (e : EngineId) (engine : Engine) : Act Unit :=
  modify fun s => { s with engines := s.engines.setIfInBounds e engine }

/-- The engine that receives reports. -/
def currentEngine : Act EngineId := do
  match (← get).running with
  | some e => return e
  | none => misuse .noEngine

def newModule : Act ModuleId :=
  modifyGet fun s => (s.modules.size, { s with modules := s.modules.add })

/-- The outlines of a forest as values of the store. -/
def outlines (f : Forest) : Act (List Value) := making fun h => Outline.toValues h f.outlines

end Act

end Exemplar
