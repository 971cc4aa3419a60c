import Exemplar.Example.Statement

/-! Engines: what compiled statements drive.

An engine is told its title, the groups and the tests, and receives the reports of
assertions. The synchronous engine runs a test as soon as it is registered; the collecting
engine keeps groups and tests for later; the item engine receives the reports of the one spec
that is running; the recording engine runs nothing and only lets the calls be seen. -/
namespace Exemplar

abbrev EngineId := Nat

/-- What programs are kept from doing with an engine. -/
inductive Bar
  /-- They do not drive it. -/
  | driving (e : EngineId)
  /-- They run no tests on it, and pause and resume it by waits only. -/
  | handling (e : EngineId)
deriving DecidableEq

def Bar.engine : Bar → EngineId
  | driving e | handling e => e

/-- The outcome of one assertion. -/
structure Report where
  passed : Bool
  message : Option String
deriving DecidableEq, Repr

/-- The outcome of one spec. -/
structure TestResult where
  group : String
  description : String
  reports : List Report
  /-- The exception that escaped the spec, as an expression. -/
  error : Option String
deriving DecidableEq, Repr

def failuresOf (reports : List Report) : List Report := reports.filter (!·.passed)

namespace TestResult

def failures (r : TestResult) : List Report := failuresOf r.reports

/-- A spec passes if nothing escaped it and no report failed. -/
def passed (r : TestResult) : Bool := r.error.isNone && r.failures.isEmpty

end TestResult

/-! ### Results made as elements -/

def textField (fields : List (String × Value)) (name : String) : Option String :=
  match fields.lookup name with
  | some (.text s) => some s
  | _ => none

/-- The report that an element stands for. -/
def Report.ofElement? (h : Heap) (v : Value) : Option Report :=
  match h.cell? v with
  | some (.element "Report" fields) =>
    match fields.lookup "passed" with
    | some (.bool passed) => some { passed, message := textField fields "message" }
    | _ => none
  | _ => none

/-- The result that an element stands for. -/
def TestResult.ofElement? (h : Heap) (v : Value) : Option TestResult :=
  match h.cell? v with
  | some (.element "TestResult" fields) => do
    let group ← textField fields "group"
    let description ← textField fields "description"
    let reports ← (← fields.lookup "reports").items? h
    return { group, description, reports := reports.filterMap (Report.ofElement? h)
             error := textField fields "error" }
  | _ => none

structure DeclaredTest where
  description : String
  body : Value
deriving DecidableEq

/-- What wraps a test: one procedure, or the hooks of a group in the order they are called. -/
inductive Hook
  | procedure (v : Value)
  | rolled (hooks : List Value)
deriving DecidableEq

structure DeclaredGroup where
  name : String
  setup : Hook
  teardown : Hook
  tests : List DeclaredTest := []
deriving DecidableEq

structure SyncEngine where
  title : Value := .null
  results : List TestResult := []
  group : Value := .text ""
  setup : Hook := .procedure .noop
  teardown : Hook := .procedure .noop
  /-- The reports of the tests that are running, the innermost first. -/
  ledgers : List (List Report) := []
  /-- Whether reports are taken. The end of a test on this engine ends it, also for the tests
  around it. -/
  recording : Bool := false
  paused : Bool := false
deriving DecidableEq

structure CollectingEngine where
  title : Value := .null
  groups : List DeclaredGroup := []
deriving DecidableEq

structure ItemEngine where
  reports : List Report := []
  paused : Bool := false
deriving DecidableEq

inductive Engine
  | sync (e : SyncEngine)
  | collecting (e : CollectingEngine)
  | item (e : ItemEngine)
  | recording
deriving DecidableEq

instance : Inhabited Engine := ⟨.recording⟩

namespace SyncEngine

/-- The number of specs that passed. -/
def passed (e : SyncEngine) : Nat := (e.results.filter (·.passed)).length

def failed (e : SyncEngine) : Nat := e.results.length - e.passed

/-- A test begins: its reports go to a ledger of its own. -/
def begin (e : SyncEngine) : SyncEngine := { e with ledgers := [] :: e.ledgers, recording := true }

/-- The reports of the innermost test. -/
def reports (e : SyncEngine) : List Report := e.ledgers.headD []

/-- The innermost test ends, and with it any wait. -/
def finish (e : SyncEngine) : SyncEngine :=
  { e with ledgers := e.ledgers.drop 1, recording := false, paused := false }

def addReport (e : SyncEngine) (r : Report) : SyncEngine :=
  match e.ledgers with
  | [] => e
  | ledger :: outer => { e with ledgers := (ledger ++ [r]) :: outer }

def addResult (e : SyncEngine) (r : TestResult) : SyncEngine := { e with results := e.results ++ [r] }

end SyncEngine

namespace CollectingEngine

def addGroup (e : CollectingEngine) (g : DeclaredGroup) : CollectingEngine :=
  { e with groups := e.groups ++ [g] }

/-- Adds a test to the last group; there must be one. -/
def addTest (e : CollectingEngine) (t : DeclaredTest) : CollectingEngine :=
  match e.groups.getLast? with
  | none => e
  | some g => { e with groups := e.groups.dropLast ++ [{ g with tests := g.tests ++ [t] }] }

end CollectingEngine

namespace ItemEngine

def failures (e : ItemEngine) : List Report := failuresOf e.reports

end ItemEngine

namespace Engine

def fresh : EngineKind → Engine
  | .sync => .sync {}
  | .collecting => .collecting {}
  | .item => .item {}
  | .recording => .recording

end Engine

end Exemplar
