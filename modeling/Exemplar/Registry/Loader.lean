import Exemplar.Registry.Basic
import Exemplar.Session.Basic
import Exemplar.Settings

/-! Loading plugins.

A plugin is found at an entry point and brings definitions of verbs. Whatever is wrong with an
entry point is a warning, and loading goes on with the next; in strict mode it is an error
instead. A verb that takes over a name is registered all the same, after the warning. -/
namespace Exemplar

/-- What loading an entry point yields. -/
inductive Entry.Content
  | failing (kind : ErrorKind)
  | value (v : Value)
  /-- A plugin that is made from its fields while it is loaded. -/
  | plugin (fields : List (String × Value))

structure EntryPoint where
  name : String
  /-- The place of the plugin. -/
  place : String
  group : String
  content : Entry.Content

/-- The group of entry points that plugins are looked for in. -/
def pluginGroup : String := "specify_plugins"

structure Loader where
  heap : Heap := {}
  registry : Registry := Registry.initial
  globalMode : Bool := false
  strict : Bool := false
  /-- The latest first. -/
  warnings : List String := []

/-- Computations that change a loader; what they did before they failed stays done. -/
abbrev Load := ExceptT Failure (StateM Loader)

namespace Load

/-- Runs a computation of a session on the store of the loader. -/
def ofAct {α : Type} (a : Act α) : Load α := fun l =>
  let (made, s) := a { heap := l.heap }
  (made, { l with heap := s.heap })

def warn (message : String) : Load Unit := modify fun l => { l with warnings := message :: l.warnings }

/-- Warns of an issue; in strict mode it is the answer instead. -/
def issue? (issue : PluginIssue) (entrypoint : Option String) (cause : Option ErrorKind) :
    Load (Option PluginFailure) := do
  if (← get).strict then return some { issue, entrypoint, cause }
  warn issue.message
  return none

/-- Warns of an issue; in strict mode it is an error. -/
def complain (issue : PluginIssue) (entrypoint : Option String) (cause : Option ErrorKind) :
    Load Unit := do
  match ← issue? issue entrypoint cause with
  | some f => throw (.plugin f)
  | none => pure ()

/-- Registers a definition under the names in order. One from a plugin that takes a name over
is complained of first. -/
def addNames (e : Option EntryPoint) (d : Definition) : List String → Load Unit
  | [] => pure ()
  | name :: rest => do
    match e, (← get).registry.get? name with
    | some e, some _ => complain (.shadowing name e.place) (some e.name) none
    | _, _ => pure ()
    modify fun l => { l with registry := l.registry.put name d }
    addNames e d rest

def add (e : Option EntryPoint) (d : Definition) : Load Unit := addNames e d d.names

def addAll (e : Option EntryPoint) : List Definition → Load Unit
  | [] => pure ()
  | d :: rest => do
    add e d
    addAll e rest

/-- A computation that adds to the store. -/
def making {α : Type} (f : Heap → Heap × Except Failure α) : Load α := do
  let (h, made) := f (← get).heap
  modify fun l => { l with heap := h }
  match made with
  | .ok a => pure a
  | .error f => throw f

/-- The definitions that a plugin element brings, if it is one. -/
def definitions? (h : Heap) (v : Value) : Option (List Definition) :=
  match h.cell? v with
  | some (.element "Plugin" fields) =>
    some ((((fields.lookup "assertions").bind (·.items? h)).getD []).filterMap (Definition.ofElement h))
  | _ => none

/-- The value at an entry point. -/
def content (c : Entry.Content) : Load (Except Failure Value) := do
  match c with
  | .failing kind => return .error (.raised kind [.text "broken"])
  | .value v => return .ok v
  | .plugin fields =>
    let (h, made) := Schema.plugin.make (← get).heap fields
    modify fun l => { l with heap := h }
    return made

/-- Loads the plugin at an entry point. Interruptions are passed on. -/
def loadPlugin (e : EntryPoint) : Load Unit := do
  match ← content e.content with
  | .error f =>
    if f.isInterruption then throw f
    else if f.kind = .validationError then complain (.notValid e.name) (some e.name) (some f.kind)
    else complain (.notLoaded e.name) (some e.name) (some f.kind)
  | .ok v =>
    match definitions? (← get).heap v with
    | some ds => addAll (some e) ds
    | none => complain (.notPlugin e.name) (some e.name) none

def loadEach : List EntryPoint → Load Unit
  | [] => pure ()
  | e :: rest => do
    loadPlugin e
    loadEach rest

/-- Loads the plugins among the entry points. -/
def loadPlugins (es : List EntryPoint) : Load Unit := loadEach (es.filter (·.group = pluginGroup))

/-- The registry of a new process: the built-in verbs, and plugins unless settings say no. -/
def construct (s : Settings) (es : List EntryPoint) : Load Unit := do
  modify fun l => { l with registry := Registry.initial, globalMode := s.globalMode, strict := s.strict }
  if s.loadPlugins then loadPlugins es

/-- Registers verbs by name; of two under one name the later counts. Either all of them are
registered or none. -/
def extendVerbs (verbs : List (String × Value)) : Load Unit := do
  let r := (← get).registry
  let verbs := Bindings.setAll [] verbs
  let registry ← making fun h => r.extendVerbs h (verbs.map fun (n, v) => (.text n, v))
  modify fun l => { l with registry }

/-- Registers a definition made from its fields. -/
def addMade (e : Option EntryPoint) (data : List (String × Value)) : Load Unit := do
  add e (← making (Definition.make · data))

/-- Registers definitions made from their fields; all are made before the first is registered. -/
def extendDefinitions (data : List (List (String × Value))) : Load Unit := do
  addAll none (← making (Registry.makeAll · data))

/-- Registers again what is registered under the names. -/
def extendSame (names : List String) : Load Unit := do
  let ds ← names.mapM fun name => do
    match (← get).registry.get? name with
    | some d => pure d
    | none => throw (.fault (.unsetName name))
  addAll none ds

end Load

/-! ### What can be seen of a registry -/

namespace Registry

/-- The names under which definitions are registered, with the first names of those. -/
def primary (r : Registry) : List (String × String) := r.map fun (n, d) => (n, d.name)

/-- The attributes of a handler, in order. -/
def attributes (r : Registry) : List String :=
  (subjectName :: r.names).eraseDups.mergeSort (· ≤ ·)

end Registry

/-- What a verb is called. -/
def Value.verbLabel : Value → String
  | .labelled s => s
  | .verb v => v.procedureName
  | _ => ""

end Exemplar
