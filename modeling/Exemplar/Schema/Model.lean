import Exemplar.Schema.Check
import Exemplar.Value.Text

/-! Models: the elements of a specification as data with named fields.

A model lists its fields with their types; unknown fields are refused, every problem is
reported, in the order of the fields, and an element never changes after it was made. -/
namespace Exemplar.Schema

inductive FieldType
  | text | optionalText | name | callable | bool | int
  | list (item : FieldType)
  | tuple (item : FieldType)
  | element (model : String)
deriving Repr

/-- What an absent field holds. -/
inductive Default
  | required
  | null
  | int (i : Int)
  | emptyList
  | emptyTuple
deriving Repr

structure Field where
  name : String
  type : FieldType
  default : Default := .required
deriving Repr

structure Model where
  name : String
  fields : List Field
deriving Repr

def assertion : Model := ⟨"Assertion", [
  ⟨"title", .optionalText, .null⟩,
  ⟨"description", .optionalText, .null⟩,
  ⟨"verb", .callable, .required⟩,
  ⟨"name", .name, .required⟩,
  ⟨"aliases", .list .name, .emptyList⟩]⟩

def plugin : Model := ⟨"Plugin", [
  ⟨"name", .name, .required⟩,
  ⟨"version", .int, .int 1⟩,
  ⟨"assertions", .list (.element "Assertion"), .emptyList⟩]⟩

def spec : Model := ⟨"Spec", [
  ⟨"description", .text, .required⟩,
  ⟨"body", .callable, .required⟩]⟩

def report : Model := ⟨"Report", [
  ⟨"passed", .bool, .required⟩,
  ⟨"message", .optionalText, .null⟩]⟩

def testResult : Model := ⟨"TestResult", [
  ⟨"group", .text, .required⟩,
  ⟨"description", .text, .required⟩,
  ⟨"reports", .tuple (.element "Report"), .emptyTuple⟩,
  ⟨"error", .optionalText, .null⟩]⟩

def declareGroup : Model := ⟨"DeclareGroup", [
  ⟨"name", .text, .required⟩,
  ⟨"befores", .tuple .callable, .emptyTuple⟩,
  ⟨"afters", .tuple .callable, .emptyTuple⟩]⟩

def runTest : Model := ⟨"RunTest", [
  ⟨"description", .text, .required⟩,
  ⟨"body", .callable, .required⟩]⟩

def declaredTest : Model := ⟨"DeclaredTest", [
  ⟨"description", .text, .required⟩,
  ⟨"body", .callable, .required⟩]⟩

def declaredGroup : Model := ⟨"DeclaredGroup", [
  ⟨"name", .text, .required⟩,
  ⟨"setup", .callable, .required⟩,
  ⟨"teardown", .callable, .required⟩,
  ⟨"tests", .list (.element "DeclaredTest"), .emptyList⟩]⟩

def models : List Model :=
  [assertion, plugin, spec, report, testResult, declareGroup, runTest, declaredTest, declaredGroup]

def model? (name : String) : Option Model := models.find? (·.name = name)

/-- A value made by a check, or everything that is wrong. -/
abbrev Made := Heap × Except (List Issue) Value

def refuse (h : Heap) (kind : IssueKind) (v : Value) : Made := (h, .error [⟨kind, [], v⟩])

def ofChecked {α : Type} (h : Heap) (v : Value) (make : α → Value) : Checked α → Made
  | .ok a => (h, .ok (make a))
  | .error kind => refuse h kind v

/-- Issues found inside a part are placed below it. -/
def below (step : Location) (issues : List Issue) : List Issue :=
  issues.map fun i => { i with place := step :: i.place }

/-- The items of a value that can stand for a list. -/
def iterable? (h : Heap) (v : Value) : Option (List Value) :=
  match h.cell? v with
  | some (.list _ items) | some (.tuple _ items) | some (.set _ items) => some items
  | _ => none

/-- Checks the items from the left; all issues are kept. -/
def makeItems (make : Heap → Value → Made) (index : Nat) :
    Heap → List Value → Heap × List Issue × List Value
  | h, [] => (h, [], [])
  | h, v :: rest =>
    let (h, made) := make h v
    let (h, issues, vs) := makeItems make (index + 1) h rest
    match made with
    | .ok w => (h, issues, w :: vs)
    | .error found => (h, below (.index index) found ++ issues, vs)

def makeDefault (h : Heap) : Default → Heap × Value
  | .required => (h, .null)
  | .null => (h, .null)
  | .int i => (h, .int i)
  | .emptyList => h.alloc (.list false [])
  | .emptyTuple => h.alloc (.tuple false [])

/-- The value of the entry with the given text as its key. -/
def entry? (h : Heap) (entries : List (Value × Value)) (name : String) : Option Value :=
  (entries.find? fun (k, _) => k.asText? h = some name).map (·.2)

/-- Checks the entry of a field. One that is left out holds its default, if it has one. -/
def makeField (make : Heap → FieldType → Value → Made) (data : Value)
    (entries : List (Value × Value)) (h : Heap) (f : Field) : Made :=
  match entry? h entries f.name, f.default with
  | some v, _ => make h f.type v
  | none, .required => refuse h .missing data
  | none, d =>
    let (h, v) := makeDefault h d
    (h, .ok v)

/-- Checks the fields in the order of the model; all issues are kept. -/
def makeFields (make : Heap → FieldType → Value → Made) (data : Value)
    (entries : List (Value × Value)) :
    Heap → List Field → Heap × List Issue × List (String × Value)
  | h, [] => (h, [], [])
  | h, f :: rest =>
    let (h, made) := makeField make data entries h f
    let (h, issues, fields) := makeFields make data entries h rest
    match made with
    | .ok v => (h, issues, (f.name, v) :: fields)
    | .error found => (h, below (.field f.name) found ++ issues, fields)

/-- Where the entry with the key `k` is. -/
def placeOf (h : Heap) (k : Value) : Location :=
  match k.asInt? h with
  | some i => .index i
  | none => .field ((k.shown h).toOption.getD "")

/-- The issue of an entry that is no field. -/
def surplus? (m : Model) (h : Heap) (k v : Value) : Option Issue :=
  match k.asText? h with
  | none => some ⟨.invalidKey, [placeOf h k], k⟩
  | some n =>
    if m.fields.any (·.name = n) then none else some ⟨.extraForbidden, [.field n], v⟩

/-- Makes an element from the entries of `data`. -/
def Model.makeIn (make : Heap → FieldType → Value → Made) (m : Model) (h : Heap) (data : Value)
    (entries : List (Value × Value)) : Made :=
  let (h, issues, fields) := makeFields make data entries h m.fields
  match issues ++ entries.filterMap fun (k, v) => surplus? m h k v with
  | [] =>
    let (h, v) := h.alloc (.element m.name fields)
    (h, .ok v)
  | issues => (h, .error issues)

/-- Checks a value against a type. Elements nest at most `depth` deep. -/
def makeValue : Nat → Heap → FieldType → Value → Made
  | 0, h, _, v => refuse h .stringType v
  | depth + 1, h, type, v =>
    match type with
    | .text => ofChecked h v .text (text h v)
    | .optionalText => ofChecked h v (fun s => s.elim .null .text) (optionalText h v)
    | .name => ofChecked h v .text (name h v)
    | .callable => ofChecked h v id (callable h v)
    | .bool => ofChecked h v .bool (bool h v)
    | .int => ofChecked h v .int (int h v)
    | .list item =>
      match iterable? h v with
      | none => refuse h .listType v
      | some items => collect (makeItems (makeValue depth · item) 0 h items) (.list false)
    | .tuple item =>
      match iterable? h v with
      | none => refuse h .tupleType v
      | some items => collect (makeItems (makeValue depth · item) 0 h items) (.tuple false)
    | .element m =>
      match h.cell? v, model? m with
      | some (.element n _), _ => if n = m then (h, .ok v) else refuse h (.modelType m) v
      | some (.mapping _ entries), some model =>
        model.makeIn (makeValue depth) h v entries
      | _, _ => refuse h (.modelType m) v
where
  collect (found : Heap × List Issue × List Value) (cell : List Value → Cell) : Made :=
    match found with
    | (h, [], vs) =>
      let (h, v) := h.alloc (cell vs)
      (h, .ok v)
    | (h, issues, _) => (h, .error issues)

/-- More than any model needs. -/
def modelDepth : Nat := 8

/-- Makes an element from its fields. -/
def Model.make (m : Model) (h : Heap) (data : List (String × Value)) : Heap × Except Failure Value :=
  let entries := data.map fun (n, v) => (Value.text n, v)
  let (h, whole) := h.alloc (.mapping false entries)
  let (h, made) := m.makeIn (makeValue modelDepth) h whole entries
  (h, made.mapError (.invalid m.name))

/-- Setting a field of an element. Only names that start with an underscore are free. -/
def assign (model : String) (field : String) (v : Value) : Except Failure Unit :=
  if field.toList.head? = some '_' then .ok ()
  else .error (.invalid model [⟨.frozenInstance, [.field field], v⟩])

end Exemplar.Schema
