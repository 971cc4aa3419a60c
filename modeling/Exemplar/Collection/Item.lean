import Exemplar.Program.Member

/-! Specs as items that run one by one.

A specification is built and compiled once, on a collecting engine, and each of its specs
becomes an item. An item runs its spec on an engine of its own: the setup, the body, and the
teardown whenever the setup completed. It fails with what escaped, or, if nothing did, with
one failure that lists every assertion that failed. -/
namespace Exemplar

/-- A spec of a collected group. -/
structure Item where
  /-- The names on the way to the spec, joined by colons. -/
  id : String
  group : DeclaredGroup
  test : DeclaredTest
deriving DecidableEq

/-- The id of a node below another one. -/
def childId (parent name : String) : String := parent ++ "::" ++ name

namespace DeclaredGroup

/-- The items of a group. -/
def items (g : DeclaredGroup) (id : String) : List Item :=
  g.tests.map fun t => ⟨childId id t.description, g, t⟩

end DeclaredGroup

namespace Item

/-- Where the spec is found, for a reader. -/
def location (i : Item) : String := i.group.name ++ ": " ++ i.test.description

end Item

/-- What stands for a failed assertion without a message. -/
def noMessage : String := "<no message>"

/-- The message of a failed report, or what stands for it. -/
def Report.shownMessage (r : Report) : String :=
  match r.message with
  | some "" | none => noMessage
  | some s => s

/-- How many of the reports of a spec failed. -/
def failedCount (reports : List Report) : String :=
  s!"{(failuresOf reports).length} of {reports.length} assertions failed"

namespace Act

/-- The text of the failure that lists the failed reports of a spec. -/
def specFailureText (h : Heap) (i : Item) (e : ItemEngine) : Except Failure Value :=
  let (h, failed) := h.alloc (.list false (e.failures.map fun r => .text r.shownMessage))
  let (h, element) := h.alloc (.mapping false [(.text "failed", failed)])
  formatError h (.text (failedCount e.reports)) (some {
    group := some (.text i.group.name), spec := some (.text i.test.description)
    element := some element })

/-- The failure that lists the failed reports of a spec. -/
def specFailure (i : Item) (e : ItemEngine) : Act Failure := do
  return .raised .specFailure [← reading (specFailureText · i e)]

/-- Fails with the list of the failed assertions that an engine was told of, if there are any. -/
def requirePassed (i : Item) (e : EngineId) : Act Unit := do
  match ← engine e with
  | .item engine =>
    if engine.failures.isEmpty then pure ()
    else throw (← specFailure i engine)
  | _ => pure ()

/-- Runs the spec of an item. -/
def runItem (i : Item) : Act Unit := do
  let e ← newEngine .item
  duringRun (some e) (wrapped call i.group.setup i.test.body (pure i.group.teardown))
  requirePassed i e

/-- The groups of a specification that have specs. -/
def collect (s : Specification) : Act (List DeclaredGroup) := do
  let e ← newEngine .collecting
  runSpecification call s.title s.builder e
  match ← engine e with
  | .collecting engine => return engine.groups.filter (!·.tests.isEmpty)
  | _ => return []

end Act

/-- How an item ended. -/
structure ItemOutcome where
  item : Item
  failure : Option Described
  /-- The list of failed assertions, if the item failed with one. -/
  listed : Option String
  /-- The last line of the report on any other error. -/
  crash : Option String

namespace ItemOutcome

/-- The name of a kind of error with the library it comes from. -/
def qualifiedName (k : ErrorKind) : String :=
  if k.isLocated then "pytest_specify.errors." ++ k.name
  else match k with
    | .validationError => "pydantic_core._pydantic_core.ValidationError"
    | .representerError => "yaml.representer.RepresenterError"
    | k => k.name

/-- An error as its report ends: its kind, and its text if it has one. -/
def lastLine (h : Heap) (f : Failure) : String :=
  let text := match f.text h with
    | .ok s => s
    | .error _ => "<exception str() failed>"
  if text.isEmpty then qualifiedName f.kind else qualifiedName f.kind ++ ": " ++ text

def ofResult (h : Heap) (item : Item) : Except Failure Unit → ItemOutcome
  | .ok () => { item, failure := none, listed := none, crash := none }
  | .error f => {
      item, failure := some (f.describe h)
      listed := if f.kind = .specFailure then (f.text h).toOption else none
      crash := if f.kind = .specFailure || f.isInterruption then none else some (lastLine h f) }

end ItemOutcome

/-- A collected group with the outcomes of its items. -/
structure GroupOutcome where
  id : String
  items : List ItemOutcome

namespace Act

def runItems : List Item → Act (List ItemOutcome)
  | [] => pure []
  | i :: rest => do
    let result ← attempt (runItem i)
    let outcome := ItemOutcome.ofResult (← get).heap i result
    return outcome :: (← runItems rest)

def runGroups (id : String) : List DeclaredGroup → Act (List GroupOutcome)
  | [] => pure []
  | g :: rest => do
    let groupId := childId id g.name
    let items ← runItems (g.items groupId)
    return ⟨groupId, items⟩ :: (← runGroups id rest)

/-- Collects the specification of a member and runs its items; only specifications are
collected. -/
def runMember (name : String) : Member → Act (Option (Except Described (List GroupOutcome)))
  | .value t => do
    let _ ← t.eval {}
    return none
  | .builder _ => return none
  | .specification title source => do
    let s : Specification := ⟨← title.eval {}, ← builderOf source⟩
    match ← attempt (collect s) with
    | .error f => return some (.error (f.describe (← get).heap))
    | .ok groups => return some (.ok (← runGroups (childId "" name) groups))

def runMembers : List (String × Member) →
    Act (List (String × Option (Except Described (List GroupOutcome))))
  | [] => pure []
  | (name, m) :: rest => do
    let outcome ← runMember name m
    return (name, outcome) :: (← runMembers rest)

end Act

end Exemplar
