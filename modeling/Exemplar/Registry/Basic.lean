import Exemplar.Engine.Basic
import Exemplar.Schema.Model

/-! The registry of assertion verbs.

A definition is registered under its name and every alias, and a later registration takes a
name over. A registry keeps the order in which names first appeared. -/
namespace Exemplar

/-- The definition of a verb. -/
structure Definition where
  name : String
  verb : Value
  aliases : List String := []
  title : Option String := none
  description : Option String := none
deriving DecidableEq

namespace Definition

def names (d : Definition) : List String := d.name :: d.aliases

/-- The definition that an element made by the model stands for. -/
def ofElement (h : Heap) (v : Value) : Option Definition :=
  match h.cell? v with
  | some (.element "Assertion" fields) => do
    let verb ← fields.lookup "verb"
    let name ← textField fields "name"
    let aliases ← (← fields.lookup "aliases").items? h
    return { name, verb, aliases := aliases.filterMap (·.asText? h),
             title := textField fields "title", description := textField fields "description" }
  | _ => none

/-- A definition from its fields, refused if one of them is wrong. -/
def make (h : Heap) (data : List (String × Value)) : Heap × Except Failure Definition :=
  match Schema.assertion.make h data with
  | (h, .error f) => (h, .error f)
  | (h, .ok v) => (h, match ofElement h v with
    | some d => .ok d
    | none => .error (.invalid "Assertion" []))

end Definition

abbrev Registry := List (String × Definition)

namespace Registry

def get? (r : Registry) (name : String) : Option Definition := r.lookup name

/-- Registers a definition under one name. A name that is known keeps its place. -/
def put (r : Registry) (name : String) (d : Definition) : Registry :=
  if r.any (·.1 = name) then r.map fun (n, old) => if n = name then (n, d) else (n, old)
  else r ++ [(name, d)]

/-- Registers a definition under all its names. -/
def add (r : Registry) (d : Definition) : Registry := d.names.foldl (·.put · d) r

def addAll (r : Registry) (ds : List Definition) : Registry := ds.foldl add r

/-- The verb registered under a name. -/
def resolve (r : Registry) (name : String) : Except Failure Value :=
  match r.get? name with
  | some d => .ok d.verb
  | none => .error (.fault (.unknownVerb name))

def names (r : Registry) : List String := r.map (·.1)

/-- Makes every definition before the first is registered. -/
def makeAll : Heap → List (List (String × Value)) → Heap × Except Failure (List Definition)
  | h, [] => (h, .ok [])
  | h, data :: rest =>
    match Definition.make h data with
    | (h, .error f) => (h, .error f)
    | (h, .ok d) =>
      let (h, ds) := makeAll h rest
      (h, ds.map (d :: ·))

/-- Registers verbs by name. Either all of them are registered or none. -/
def extendVerbs (r : Registry) (h : Heap) (verbs : List (Value × Value)) :
    Heap × Except Failure Registry :=
  let (h, ds) := makeAll h (verbs.map fun (name, verb) => [("name", name), ("verb", verb)])
  (h, ds.map r.addAll)

/-! ### Handlers -/

/-- What a handler has under a name. -/
inductive Attribute
  /-- Something of the handler itself. -/
  | own (v : Value)
  /-- A verb, which gets the subject as its first argument. -/
  | verb (v : Value)
deriving DecidableEq

/-- The name under which a handler keeps its subject. -/
def subjectName : String := "value"

/-- The name under which a handler keeps its registry. -/
def registryName : String := "_registry"

/-- What the handler of a subject has under a name. Verbs are looked up when they are asked
for; no verb has a name that starts with an underscore. -/
def lookUp (r : Registry) (subject : Value) (name : String) : Except Failure Attribute :=
  if name = subjectName then .ok (.own subject)
  else if name = registryName then .ok (.own (.foreign "Specifier"))
  else if name.toList.head? = some '_' then .error (.fault (.hiddenVerb name))
  else (r.resolve name).map .verb

/-- Whether the handler has anything under a name. -/
def hasAttribute (r : Registry) (name : String) : Bool :=
  match r.lookUp .null name with
  | .ok _ => true
  | .error _ => false

/-- The definitions that every registry starts with. -/
def builtins : List Definition := [
  ⟨"equals", .verb .equals, ["is_equal_to", "isEqualTo"], some "Equality",
    some "Subject compares equal to the expected value."⟩,
  ⟨"is_not_equal_to", .verb .isNotEqualTo, ["isNotEqualTo"], some "Strict inequality",
    some "Subject differs from the expected value in type or value."⟩,
  ⟨"is_same_as", .verb .isSameAs, ["isSameAs"], some "Deep equality",
    some "Subject is structurally equal to the expected value."⟩,
  ⟨"is_not_same_as", .verb .isNotSameAs, ["isNotSameAs"], some "Deep inequality",
    some "Subject is not structurally equal to the expected value."⟩,
  ⟨"is_true", .verb .isTrue, ["isTrue"], some "Truthy", none⟩,
  ⟨"is_false", .verb .isFalse, ["isFalse"], some "Falsy", none⟩,
  ⟨"is_null", .verb .isNull, ["isNull"], some "Null", some "Subject is \x60None\x60."⟩,
  ⟨"is_not_null", .verb .isNotNull, ["isNotNull"], some "Not null", some "Subject is not \x60None\x60."⟩,
  ⟨"is_defined", .verb .isDefined, ["isDefined"], some "Defined", some "Subject was supplied."⟩,
  ⟨"is_undefined", .verb .isUndefined, ["isUndefined"], some "Undefined",
    some "Subject was not supplied."⟩,
  ⟨"pass_", .verb .pass, [], some "Pass", some "Always succeeds; the subject is ignored."⟩,
  ⟨"fail", .verb .fail, [], some "Fail", some "Always fails; the subject is ignored."⟩,
  ⟨"throws_exception", .verb .throwsException, ["throwsException"], some "Raises",
    some "Calling the subject without arguments raises an exception."⟩]

/-- The registry with the built-in verbs. -/
def initial : Registry := addAll [] builtins

end Registry

end Exemplar
