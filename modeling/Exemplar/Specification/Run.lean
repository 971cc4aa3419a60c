import Exemplar.Scope.Layers
import Exemplar.Verb.Group

/-! Building and running specifications.

A build starts from an empty forest, is current while the builder function runs, and ends with
the forest that was declared. A run first tells the engine its title, then builds and
compiles, and only then drives the engine with the statements, while reports go to it. -/
namespace Exemplar

/-- A function that declares a specification. -/
structure BuilderFunction where
  style : Style
  /-- The name under which the builder is kept for later. -/
  saveAs : Option String
  module : ModuleId
  body : Frame → Act Unit

/-- Where a builder function has the verbs from: the builder that it is handed, or names, which it reads
in its own code or in that of another function of its module. -/
inductive VerbSource
  | handed | ownNames | moduleNames

def Style.source : Style → VerbSource
  | param | varargs | callable | applied => .handed
  | bare | default | method => .ownNames
  | helper => .moduleNames

/-- The verbs of a builder in a layer over a module. -/
def verbLayers (module : Bindings BuildId) (b : BuildId) : Layers BuildId :=
  .ofModule module (Act.verbNames.map (·, b))

/-- The modules with the verbs of a builder merged into one of them. -/
def Namespaces.merging (m : Namespaces) (module : ModuleId) (b : BuildId) : Namespaces :=
  m.set module (verbLayers (m.names module) b).merge.module

namespace Act

/-- The builder whose verb has the name. -/
def readVerb (layers : Layers BuildId) (layered : Bool) (name : String) : Act BuildId :=
  match layers.find? layered name with
  | some b => pure b
  | none => fault (.undefinedName name)

/-- The builder whose verbs the function sees. Verbs get to a module together, so all that are read are
those of one builder. A function is called with a scope of its own unless the verbs are merged, other
functions of the module never are. -/
def visibleBuilder (fn : BuilderFunction) (b : BuildId) : Act BuildId := do
  let s ← get
  let layers := verbLayers (s.modules.names fn.module) b
  match fn.style.source with
  | .handed => return b
  | .ownNames => return (← verbNames.mapM (readVerb layers !s.globalMode)).headD b
  | .moduleNames => return (← verbNames.mapM (readVerb layers false)).headD b

/-- In global mode the verbs of `b` are merged into the module. -/
def mergeVerbs (module : ModuleId) (b : BuildId) : Act Unit := do
  if (← get).globalMode then modify fun s => { s with modules := s.modules.merging module b }

/-- Keeps a builder for later if it has a name. -/
def saveBuilder (name : Option String) (b : BuildId) : Act Unit :=
  match name with
  | some name => modify fun s => { s with builders := Bindings.set s.builders name b }
  | none => pure ()

/-- Runs a builder function with the verbs of `b` in scope: merged into its module in global
mode, in a scope of their own otherwise. -/
def invoke (fn : BuilderFunction) (b : BuildId) : Act Unit := do
  mergeVerbs fn.module b
  let visible ← visibleBuilder fn b
  saveBuilder fn.saveAs visible
  fn.body { builder := some visible }

/-- Builds a forest, and answers with the build that holds it. -/
def buildForest (fn : BuilderFunction) : Act BuildId := do
  let b ← newBuild
  duringBuild (some b) (invoke fn b)
  return b

/-- Performs a statement on an engine. -/
def perform (call : Call) (e : EngineId) : Statement → Act Unit
  | .group name befores afters => declareGroup e (.text name) (.rolled befores) (.rolled afters)
  | .test description body => runTest call e (.text description) body

def performAll (call : Call) (e : EngineId) : List Statement → Act Unit
  | [] => pure ()
  | s :: rest => do
    perform call e s
    performAll call e rest

/-- The statements of a finished build. -/
def compile (b : BuildId) : Act (List Statement) := do
  let forest := (← build b).forest
  reading fun h => forest.compile h

/-- Runs a specification on an engine. -/
def runSpecification (call : Call) (title : Value) (fn : BuilderFunction) (e : EngineId) : Act Unit := do
  setTitle e title
  let b ← buildForest fn
  let statements ← compile b
  duringRun (some e) (performAll call e statements)

end Act

end Exemplar
