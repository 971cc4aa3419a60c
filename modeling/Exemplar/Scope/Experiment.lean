import Exemplar.Program.Run
import Exemplar.Scope.Shape
import Exemplar.Scope.Variables

/-! Running one function of a module.

The function gets the verbs in one of two ways or not at all, is called, and afterwards the
module and the verbs are changed and the functions that were kept for later are called. The
trace shows what every line found. -/
namespace Exemplar.Scope

/-- How a function gets the verbs. -/
inductive Mode
  | layered | merged | plain
deriving DecidableEq, Repr

/-- What a line found. -/
inductive Finding
  | load (name : String) (found : Except Described Meaning)
  | erase (name : String) (failure : Option Described)
  | call (name : String) (failure : Described)
  | parameter (name : String) (found : Meaning)

structure State where
  session : Session := {}
  names : Names := {}
  /-- Inner functions that are called at the end, with what they see. -/
  later : List (View × List (Line Value)) := []
  /-- The latest first. -/
  trace : List Finding := []

abbrev Play := ExceptT Failure (StateM State)

namespace Play

variable {α : Type}

def ofAct (a : Act α) : Play α := fun s =>
  let (made, session) := a s.session
  (made, { s with session })

def record (t : Finding) : Play Unit := modify fun s => { s with trace := t :: s.trace }

/-- Runs `a` and answers with its result, or with its failure as a reader sees it. -/
def attempt (a : Play α) : Play (Except Described α) := fun s =>
  let (made, s) := a s
  (.ok (made.mapError (·.describe s.session.heap)), s)

def ofFault : Except Fault α → Play α
  | .ok a => pure a
  | .error f => throw (.fault f)

def read (v : View) (name : String) : Play Meaning := do ofFault ((← get).names.get v name)

def changeNames (change : Names → Names) : Play Unit :=
  modify fun s => { s with names := change s.names }

def enter (v : View) (declared : Declared) (own : Bindings Meaning) : Play View :=
  modifyGet fun s =>
    let (names, v) := s.names.enter v declared own
    (v, { s with names })

/-- Calls a value; a function of the module goes to `function`. -/
def callMeaning (function : Nat → Play Unit) : Meaning → Play Unit
  | .value v => do
    let _ ← ofAct (Act.call v [] [])
  | .function index => function index

end Play

open Play

mutual

/-- Runs a line. An answer ends the function. -/
def Line.run (function : Nat → Play Unit) (v : View) : Line Value → Play (Option Meaning)
  | .load name => do
    record (.load name (← attempt (read v name)))
    return none
  | .set _ name a => do
    changeNames (·.set v name (.value a))
    return none
  | .erase _ name => do
    match (← get).names.erase v name with
    | .ok names =>
      changeNames fun _ => names
      record (.erase name none)
    | .error f => record (.erase name (some ((Failure.fault f).describe (← get).session.heap)))
    return none
  | .call name => do
    match ← attempt (do callMeaning function (← read v name)) with
    | .ok () => return none
    | .error d =>
      record (.call name d)
      return none
  | .rebind name a => do
    changeNames fun n => { n with layers := n.layers.setModule name (.value a) }
    return none
  | .inner body => do
    let v ← enter v (.ofBody [] body) []
    let _ ← Line.runAll function v body
    return none
  | .later body => do
    modify fun s => { s with later := s.later ++ [(v, body)] }
    return none
  | .classBody body => do
    let _ ← Line.runAll function (v.inClass (.ofBody [] body)) body
    return none
  | .parameter name => do
    record (.parameter name (← read v name))
    return none
  | .answer a => return some (.value a)

def Line.runAll (function : Nat → Play Unit) (v : View) : List (Line Value) → Play (Option Meaning)
  | [] => return none
  | line :: rest => do
    match ← Line.run function v line with
    | some a => return some a
    | none => Line.runAll function (v.after line) rest

end

namespace Play

/-- What a parameter stands for. -/
def meaning : Received Value → Act Meaning
  | .one v => return .value v
  | .many vs => do return .value (← Act.alloc (.tuple false vs))
  | .named vs => do return .value (← Act.alloc (.mapping false (vs.map fun (n, v) => (.text n, v))))

/-- Calls a function with positional arguments. -/
def runFunction (function : Nat → Play Unit) (layered : Bool) (f : Function Value) (args : List Value) :
    Play Meaning := do
  match f.parameters.bind args [] with
  | .error e => throw (.fault (.call f.name e))
  | .ok received =>
    let own ← ofAct (received.mapM fun (n, r) => do return (n, ← meaning r))
    let outside ← match f.closure with
      | some b => enter { layered } { global := [], own := b.names } (b.map fun (n, v) => (n, .value v))
      | none => pure { layered }
    let v ← enter outside (.ofBody (f.parameters.map (·.name)) f.body) own
    return (← Line.runAll function v f.body).getD (.value .null)

/-- Calls a function of the module. Calls nest at most this deep; a deeper one fails. -/
def runHelperWithin (helpers : List (Function Value)) : Nat → Nat → Play Unit
  | 0, _ => throw (.fault .nesting)
  | depth + 1, index =>
    match helpers[index]? with
    | some f => do
      let _ ← runFunction (runHelperWithin helpers depth) false f []
    | none => pure ()

/-- Calls the functions that were kept for later, and those that they keep, up to a limit. -/
def runLater (function : Nat → Play Unit) : Nat → Play Unit
  | 0 => pure ()
  | limit + 1 => do
    match (← get).later with
    | [] => pure ()
    | (v, body) :: rest =>
      modify fun s => { s with later := rest }
      let _ ← attempt (do
        let v ← enter v (.ofBody [] body) []
        Line.runAll function v body)
      runLater function limit

def laterLimit : Nat := 1000

end Play

/-- A function, its module, and what is done with it. -/
structure Experiment where
  mode : Mode
  main : Function Term
  helpers : List (Function Term)
  globals : Bindings Term
  verbs : Bindings Term
  args : List Term
  /-- The object that the function belongs to. -/
  self : Option Value
  /-- The builder that runs it, if one does. -/
  builder : Option Value
  moduleName : Option String
  rebindAfter : Bindings Term
  verbsAfter : Bindings Term

/-- What the terms of an experiment stand for. -/
structure Prepared where
  main : Function Value
  helpers : List (Function Value)
  globals : Bindings Value
  verbs : Bindings Value
  args : List Value
  rebindAfter : Bindings Value
  verbsAfter : Bindings Value

structure Result where
  heap : Heap
  result : Except Described Meaning
  trace : List Finding
  module : Bindings Meaning
  own : Bindings Meaning
  acceptsBuilder : Bool
  doc : Option String

namespace Experiment

/-- Reads an experiment; `self` and `builder` are the objects that it can use. -/
def read? (self builder : Value) (moduleName : String) (d : Data) : Option Experiment := do
  let mode ← match d.textOf? "mode" with
    | some "scoped" => some Mode.layered
    | some "global" => some .merged
    | some "plain" => some .plain
    | _ => none
  let helpers ← match d.field? "helpers" with
    | some (.record fields) => fields.mapM fun (n, f) => Function.read? n f
    | _ => some []
  return {
    mode, helpers
    main := ← Function.read? "main" (← d.field? "main")
    globals := ← readBindings? (d.field? "globals")
    verbs := ← readBindings? (d.field? "api")
    args := ← (← d.itemsOf? "args").mapM Term.read?
    self := if d.flag "method" then some self else none
    builder := if d.flag "invoke" then some builder else none
    moduleName := if d.flag "no_name" then none else some moduleName
    rebindAfter := ← readBindings? (d.field? "rebind_after")
    verbsAfter := ← readBindings? (d.field? "api_after") }

/-- Whether the function asks for the builder. -/
def acceptsBuilder (e : Experiment) : Bool :=
  let s := e.main.parameters
  (if e.self.isSome then s.ofMethod? else some s).any (·.acceptsBuilder)

def asMeanings (b : Bindings Value) : Bindings Meaning := b.map fun (n, v) => (n, .value v)

/-- The names of the module before the function is called. -/
def module (e : Experiment) (globals : Bindings Value) : Bindings Meaning :=
  let attributes := match e.moduleName with
    | some n => [("__name__", Meaning.value (.text n)), ("__builtins__", .value (.foreign "dict"))]
    | none => [("__builtins__", .value (.foreign "dict"))]
  let helpers := e.helpers.zipIdx.map fun (f, i) => (f.name, Meaning.function i)
  ((Bindings.setAll attributes (asMeanings globals)).setAll helpers)

def layers (e : Experiment) (module verbs : Bindings Meaning) : Layers Meaning :=
  match e.mode with
  | .layered => Layers.ofModule module verbs
  | .merged => Layers.merge { module, verbs }
  | .plain => { module, verbs }

/-- The experiment with its terms evaluated. -/
def prepare (e : Experiment) : Act Prepared := do
  let main ← e.main.eval {}
  let helpers ← e.helpers.mapM (·.eval {})
  let globals ← Term.evalFields {} e.globals
  let verbs ← Term.evalFields {} e.verbs
  let args ← Term.evalAll {} e.args
  let rebindAfter ← Term.evalFields {} e.rebindAfter
  let verbsAfter ← Term.evalFields {} e.verbsAfter
  return { main, helpers, globals, verbs, args, rebindAfter, verbsAfter }

def perform (e : Experiment) (p : Prepared) : Play (Except Described Meaning) := do
  changeNames fun n => { n with layers := e.layers (e.module p.globals) (asMeanings p.verbs) }
  let function := runHelperWithin p.helpers Act.callDepth
  let args := e.self.toList ++ match e.builder with
    | some b => if e.acceptsBuilder then [b] else []
    | none => p.args
  let result ← attempt (runFunction function (e.mode = .layered) p.main args)
  changeNames fun n =>
    let layers := (asMeanings p.rebindAfter).foldl (fun l (n, i) => l.setModule n i) n.layers
    { n with layers := (asMeanings p.verbsAfter).foldl (fun l (n, i) => l.setVerb n i) layers }
  runLater function laterLimit
  return result

def play (e : Experiment) : Play (Except Described Meaning) := do e.perform (← ofAct e.prepare)

/-- Names that were set, without those that every module has. -/
def visible (b : Bindings Meaning) : Bindings Meaning := b.filter fun (n, _) => !moduleAttributes.contains n

def run (e : Experiment) : Except Failure Result :=
  match e.play {} with
  | (.error f, _) => .error f
  | (.ok result, s) => .ok {
      heap := s.session.heap, result, trace := s.trace.reverse
      module := visible s.names.layers.module, own := visible s.names.layers.own
      acceptsBuilder := e.acceptsBuilder, doc := e.main.doc }

end Experiment

end Exemplar.Scope
