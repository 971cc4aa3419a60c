import Exemplar.Scope.Host
import Exemplar.Specification.Run
import Exemplar.Verb.Builtin

/-! Running programs.

A step does one thing to the session. Steps run by recursion on the program; procedures are
called through `call`, which allows calls nested `callDepth` deep, and a deeper call fails.

An engine can be barred, and then no step drives it, or none runs a test on it or pauses it but for a
wait. Programs run with no engine barred; a program that drives an engine is one that goes differently
when the engine is barred. -/
namespace Exemplar

namespace Act

def savedBuilder (f : Frame) (via : Option String) : Act BuildId := do
  match via, f.builder with
  | some name, _ =>
    match (← get).builders.lookup name with
    | some b => return b
    | none => fault (.unsetName name)
  | none, some b => return b
  | none, none => fault (.unsetName "builder")

def handler (name : String) : Act Value := do
  match (← get).handlers.lookup name with
  | some v => return v
  | none => fault (.unsetName name)

def recordIf (log : Bool) (e : Event) : Act Unit := if log then record e else pure ()

/-- Looks up a verb, then evaluates the arguments, then calls. -/
def callWith (call : Call) (f : Frame) (verb : Act Value) (args : List Term)
    (named : List (String × Term)) (log : Bool) : Act Unit := do
  let verb ← verb
  let args ← Term.evalAll f args
  let named ← Term.evalFields f named
  let v ← call verb args named
  recordIf log (.returned v)

/-- What a group is called. -/
def shownGroup (call : BuildId × Sum Value NodeId) : Act String := do
  match call with
  | (_, .inl v) => reading (v.shown ·)
  | (b, .inr node) =>
    let forest := (← build b).forest
    reading fun h => forest.shown h node

def evalOptional (f : Frame) (default : Value) : Option Term → Act Value
  | none => pure default
  | some t => t.eval f

/-- One `it` of a `given` for each description and body. -/
def givenIts (f : Frame) (b : BuildId) (args : List Value) (log : Bool) :
    List (Term × Body) → Act Unit
  | [] => pure ()
  | (description, body) :: rest => do
    let description ← description.eval f
    let body ← body.eval f
    let declared ← givenIt b description body args
    recordIf log (.declaredEach (declared.map (·.description)))
    givenIts f b args log rest

/-- The data of the verbs to register: name, procedure and aliases. -/
def verbData (f : Frame) (definitions : Bool) :
    List (Term × Body × Option Term) → Act (List (List (String × Value)))
  | [] => pure []
  | (name, body, aliases) :: rest => do
    let name ← name.eval f
    let verb ← body.eval f
    let more ← match definitions, aliases with
      | true, some t => do
        let v ← t.eval f
        pure [("aliases", v)]
      | _, _ => pure []
    return ([("name", name), ("verb", verb)] ++ more) :: (← verbData f definitions rest)

/-- The verbs by name; of two under one name the later counts. -/
def verbEntries : List (List (String × Value)) → List (Value × Value) → Act (List (Value × Value))
  | [], known => pure known
  | data :: rest, known => do
    verbEntries rest
      (← putEntry known ((data.lookup "name").getD .null) ((data.lookup "verb").getD .null))

/-- Registers verbs, by name or as definitions. -/
def extendRegistry (definitions : Bool) (data : List (List (String × Value))) : Act Unit := do
  let r := (← get).registry
  let r ← if definitions then do
      let ds ← ofExcept (← making (Registry.makeAll · data))
      pure (r.addAll ds)
    else do
      let verbs ← verbEntries data []
      ofExcept (← making fun h => r.extendVerbs h verbs)
  modify fun s => { s with registry := r }

def sum (a b : Value) : Act Value := do
  match a.add (← get).heap b with
  | .ok made => making fun _ => made
  | .error f => fault f

/-- Appends to a list. -/
def append (list v : Value) : Act Unit := do
  let h := (← get).heap
  match h.cell? list with
  | some (.list own items) => setCell list (.list own (items ++ [v]))
  | _ => fault (.noAttribute (list.fullTypeName h) "append")

/-- The qualified name of the open group of the current build. -/
def recordCursor : Act Unit := do
  match (← get).building with
  | none => record (.cursor none)
  | some b =>
    let name ← cursorName b
    record (.cursor (some name))

def recordForest : Act Unit := do
  match (← get).building with
  | none => record (.forest none)
  | some b => do record (.forest (some (← outlines (← build b).forest)))

/-- How a computation ended, for a reader. -/
def described (result : Except Failure Unit) : Act (Option Described) := do
  let h := (← get).heap
  match result with
  | .ok () => return none
  | .error f => return some (f.describe h)

/-- A nested run on an engine, and the engine afterwards. -/
def specifyOn (barred : Option Bar) (call : Call) (e : EngineId) (name : Value)
    (fn : BuilderFunction) : Act Unit := do
  driving barred e .runInsideSpec (runSpecification call name fn e)
  record (.specified true (some (← Act.engine e)))

/-- The engine of a nested run. -/
def chooseEngine : EngineChoice → Act EngineId
  | .fresh kind => newEngine kind
  | .current => currentEngine

end Act

open Act

mutual

def Step.run (barred : Option Bar) (call : Call) (f : Frame) : Step → Act Unit
  | .describe via name body logged => do
    let b ← savedBuilder f via
    let name ← name.eval f
    let body ← body.eval f
    let made ← Act.describe call b name body
    if logged then record (.described (← shownGroup (b, made))) else pure ()
  | .before via body logged => do
    let b ← savedBuilder f via
    let hook ← body.eval f
    Act.before b hook
    recordIf logged (.hookReturned true)
  | .after via body logged => do
    let b ← savedBuilder f via
    let hook ← body.eval f
    Act.after b hook
    recordIf logged (.hookReturned true)
  | .it via description body logged => do
    let b ← savedBuilder f via
    let description ← description.eval f
    let body ← body.eval f
    let declared ← Act.it b description body
    recordIf logged (.declared declared.description)
  | .given via args its logged => do
    let b ← savedBuilder f via
    let args ← Term.evalAll f args
    requireArguments b args
    givenIts f b args logged its
  | .assert via subject verb args named logged => do
    let _ ← savedBuilder f via
    let subject ← evalOptional f .undefined subject
    callWith call f (handlerAttribute subject verb) args named logged
  | .shortcut via verb args named logged => do
    let _ ← savedBuilder f via
    callWith call f (Act.shortcut verb) args named logged
  | .bind via name subject => do
    let _ ← savedBuilder f via
    let subject ← evalOptional f .undefined subject
    modify fun s => { s with handlers := Bindings.set s.handlers name subject }
    let text ← reading (subject.shown ·)
    record (.bound ("<AssertionHandler " ++ text ++ ">"))
  | .call name verb args named logged => do
    let subject ← handler name
    callWith call f (handlerAttribute subject verb) args named logged
  | .take name verb target => do
    let subject ← handler name
    let v ← handlerAttribute subject verb
    setVariable target v
  | .invoke name args named logged => callWith call f (readVariable name) args named logged
  | .wait via ms body => do
    let _ ← savedBuilder f via
    let ms ← ms.eval f
    let body ← body.eval f
    Act.wait call ms body
  | .report passed message => do
    let passed ← passed.eval f
    let message ← evalOptional f .null message
    Act.report call (.value passed) message
  | .extend entries definitions => do
    let data ← verbData f definitions entries
    extendRegistry definitions data
  | .raise kind args => do
    let args ← Term.evalAll f args
    makeError.checkArguments kind args
    throw (.raised kind args)
  | .attempt steps => do
    let result ← Act.attempt (Step.runAll barred call f steps)
    record (.caught (← described result))
  | .thread steps => do
    let result ← Act.attempt (duringBuild none (duringRun none (Step.runAll barred call f steps)))
    record (.thread (← described result))
  | .log value => do
    let v ← value.eval f
    record (.log v)
  | .set name value => do
    let v ← value.eval f
    setVariable name v
  | .add name value => do
    let old ← readVariable name
    let v ← value.eval f
    setVariable name (← sum old v)
  | .push name value => do
    let list ← readVariable name
    let v ← value.eval f
    append list v
  | .cursor => recordCursor
  | .forest => recordForest
  | .verbs via => do
    let _ ← savedBuilder f via
    record (.verbs verbNames)
  | .globalMode value => do
    let v ← value.eval f
    let mode ← (comparing call).truth v
    modify fun s => { s with globalMode := mode }
  | .build builder style saveAs => do
    let fn : BuilderFunction :=
      ⟨style, saveAs, ← newModule, fun inner => Step.runAll barred call { inner with args := f.args } builder⟩
    let b ← buildForest fn
    record (.built (← outlines (← Act.build b).forest))
  | .specify name builder style saveAs engine => do
    let name ← name.eval f
    let fn : BuilderFunction :=
      ⟨style, saveAs, ← newModule, fun inner => Step.runAll barred call { inner with args := f.args } builder⟩
    let e ← chooseEngine engine
    specifyOn barred call e name fn
  | .setTitle title => do
    let e ← currentEngine
    let title ← title.eval f
    telling barred e .runInsideSpec (Act.setTitle e title)
  | .declareGroup name setup teardown => do
    let e ← currentEngine
    let name ← name.eval f
    let setup ← setup.eval f
    let teardown ← teardown.eval f
    telling barred e .groupInsideSpec (Act.declareGroup e name (.procedure setup) (.procedure teardown))
  | .runTest description body => do
    let e ← currentEngine
    let description ← description.eval f
    let body ← body.eval f
    driving barred e .testInsideSpec (Act.runTest call e description body)
  | .pause => do
    let e ← currentEngine
    handling barred e (Act.pause e)
  | .resume => do
    let e ← currentEngine
    handling barred e (Act.resume e)

/-- Runs steps in order. A step that fails ends them. -/
def Step.runAll (barred : Option Bar) (call : Call) (f : Frame) : List Step → Act Unit
  | [] => pure ()
  | s :: rest => do
    Step.run barred call f s
    Step.runAll barred call f rest

end

namespace Act

/-- The parameters of a shortcut of the asserter. -/
def shortcutSignature : Signature Value :=
  [⟨"self", .positional, none⟩, ⟨"message", .positional, some .null⟩]

/-- The parameters of a group that waits for its body. -/
def describeSignature : Signature Value :=
  [⟨"self", .positional, none⟩, ⟨"description", .positional, none⟩, ⟨"fn", .positional, some .null⟩]

def selfSignature : Signature Value := [⟨"self", .positional, none⟩]

/-- Calls a procedure, whose own calls go through `call`. -/
def applyProcedure (barred : Option Bar) (call : Call) (c : Callable) (args : List Value)
    (named : List (String × Value)) : Act Value := do
  match c with
  | .script arity steps home =>
    match arity with
    | some n => if args.length ≠ n then fault (.bodyArity n args.length)
    | none => pure ()
    Step.runAll barred call { builder := home, args } steps
    return .null
  | .applied target first => call target (first ++ args) named
  | .answering target answer =>
    let _ ← call target args named
    readVariable answer
  | .shortcut verb =>
    let filled ← bindCall ("Asserter." ++ verb) shortcutSignature (.foreign "Asserter" :: args) named
    let verb ← handlerAttribute .undefined verb
    let _ ← call verb [received filled "message"] []
    return .null
  | .group b name =>
    let filled ← bindCall "Builder.describe" describeSignature (.foreign "Builder" :: name :: args) named
    match ← describe call b (received filled "description") (received filled "fn") with
    | .inl v => return v
    | .inr _ => return .foreign "Example"

/-- Calls a value, whose own calls go through `call`. -/
def apply (barred : Option Bar) (call : Call) (v : Value) (args : List Value)
    (named : List (String × Value)) : Act Value := do
  let h := (← get).heap
  match v with
  | .classOf c =>
    if args.isEmpty && named.isEmpty then alloc (.record c []) else fault (.takesNone c.name)
  | .noop =>
    let _ ← bindCall "noop" [] args named
    return .null
  | .verb b => runVerb call b args named
  | .labelled name =>
    record (.label name)
    return .null
  | .native name =>
    match Host.refusal? name with
    | some f => fault f
    | none => return .null
  | .foreign "type" => return .null
  | v =>
    match h.cell? v with
    | some (.procedure c) => applyProcedure barred call c args named
    | some (.record .callableBox _) =>
      let _ ← bindCall "CallableBox.__call__" selfSignature (v :: args) named
      return .null
    | _ => fault (.notCallable (v.fullTypeName h))

/-- Calls a value. Calls nest at most this deep; a deeper one fails. -/
def callWithin (barred : Option Bar) : Nat → Call
  | 0 => fun _ _ _ => fault .nesting
  | depth + 1 => fun v args named => apply barred (callWithin barred depth) v args named

def callDepth : Nat := 200

def call : Call := callWithin none callDepth

end Act

end Exemplar
