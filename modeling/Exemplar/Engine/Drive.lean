import Exemplar.Session.Basic

/-! Driving an engine.

What an engine does with each call it gets. A test of the synchronous engine runs the setup of
the active group, then the body, and the teardown whenever the setup completed; an exception
that escapes becomes the error of its result, an interruption ends the run without a result. -/
namespace Exemplar.Act

/-- Sets the title of the run. -/
def setTitle (e : EngineId) (title : Value) : Act Unit := do
  match ← engine e with
  | .sync s => setEngine e (.sync { s with title })
  | .collecting c => setEngine e (.collecting { c with title })
  | .item _ => misuse .runInsideSpec
  | .recording => record (.setTitle title)

/-- What keeps a group from being collected with a hook. The hooks of a group are callable. -/
def hookIssue (h : Heap) (field : String) : Hook → List Issue
  | .procedure v => Schema.issue field v (Schema.callable h v)
  | .rolled _ => []

/-- Makes a group the active one. -/
def declareGroup (e : EngineId) (name : Value) (setup teardown : Hook) : Act Unit := do
  match ← engine e with
  | .sync s => setEngine e (.sync { s with group := name, setup, teardown })
  | .collecting c =>
    let h := (← get).heap
    match Schema.text h name, hookIssue h "setup" setup ++ hookIssue h "teardown" teardown with
    | .ok name, [] => setEngine e (.collecting (c.addGroup { name, setup, teardown }))
    | n, issues => throw (.invalid "DeclaredGroup" (Schema.issue "name" name n ++ issues))
  | .item _ => misuse .groupInsideSpec
  | .recording => record (.declareGroup name)

/-- Changes a synchronous engine; other engines stay as they are. -/
def changeSync (e : EngineId) (change : SyncEngine → SyncEngine) : Act Unit := do
  match ← engine e with
  | .sync s => setEngine e (.sync (change s))
  | _ => pure ()

def syncEngine (e : EngineId) : Act SyncEngine := do
  match ← engine e with
  | .sync s => return s
  | _ => return {}

/-- Calls hooks in order, up to the first that fails. -/
def runHooks (call : Call) : List Value → Act Unit
  | [] => pure ()
  | hook :: rest => do
    let _ ← call hook [] []
    runHooks call rest

def runHook (call : Call) : Hook → Act Unit
  | .procedure v => do let _ ← call v [] []
  | .rolled hooks => runHooks call hooks

/-- The setup, the body and, whenever the setup completed, the teardown. -/
def wrapped (call : Call) (setup : Hook) (body : Value) (teardown : Act Hook) : Act Unit := do
  runHook call setup
  ensuring (do let _ ← call body [] []) (do runHook call (← teardown))

/-- The exception that ended a test, as an expression. Interruptions are passed on. -/
def escaped (h : Heap) : Except Failure Unit → Except Failure (Option String)
  | .ok () => .ok none
  | .error f => if f.isInterruption then .error f else (f.shown h).map some

/-- A result, refused unless the group and the description are texts. -/
def makeResult (group description : Value) (reports : List Report) (error : Option String) :
    Act TestResult := do
  let h := (← get).heap
  match Schema.text h group, Schema.text h description with
  | .ok group, .ok description => return { group, description, reports, error }
  | g, d => throw (.invalid "TestResult"
      (Schema.issue "group" group g ++ Schema.issue "description" description d))

/-- Runs a test in the active group of a synchronous engine and keeps its result. -/
def runNow (call : Call) (e : EngineId) (description body : Value) : Act Unit := do
  changeSync e (·.begin)
  let outcome ← attempt (do
    wrapped call (← syncEngine e).setup body (do return (← syncEngine e).teardown))
  let error := escaped (← get).heap outcome
  let ended ← syncEngine e
  changeSync e (·.finish)
  let error ← ofExcept error
  let r ← makeResult ended.group description ended.reports error
  changeSync e (·.addResult r)

/-- Registers a test of the active group. -/
def runTest (call : Call) (e : EngineId) (description body : Value) : Act Unit := do
  match ← engine e with
  | .sync _ => runNow call e description body
  | .collecting c =>
    if c.groups.isEmpty then misuse .testOutsideGroup
    else
      let h := (← get).heap
      match Schema.text h description, Schema.callable h body with
      | .ok description, .ok body => setEngine e (.collecting (c.addTest { description, body }))
      | d, b => throw (.invalid "DeclaredTest"
          (Schema.issue "description" description d ++ Schema.issue "body" body b))
  | .item _ => misuse .testInsideSpec
  | .recording => record (.runTest description)

/-- A report, refused if its message is no text. -/
def makeReport (passed : Bool) (message : Value) : Act Report := do
  match Schema.optionalText (← get).heap message with
  | .ok message => return { passed, message }
  | .error kind => throw (.invalid "Report" [⟨kind, [.field "message"], message⟩])

/-- Tells an engine a title or a group. An engine that is barred from being driven refuses. -/
def telling {α : Type} (barred : Option Bar) (e : EngineId) (refusal : Misuse) (a : Act α) : Act α :=
  if barred = some (.driving e) then misuse refusal else a

/-- Runs a test or a whole specification on an engine. An engine that is barred refuses. -/
def driving {α : Type} (barred : Option Bar) (e : EngineId) (refusal : Misuse) (a : Act α) : Act α :=
  if barred.map Bar.engine = some e then misuse refusal else a

/-- Pauses or resumes an engine, but for a wait. An engine that is barred from it refuses. -/
def handling {α : Type} (barred : Option Bar) (e : EngineId) (a : Act α) : Act α :=
  if barred = some (.handling e) then misuse .nestedWait else a

/-- Reports the outcome of an assertion to an engine. -/
def reportTo (e : EngineId) (passed : Bool) (message : Value) : Act Unit := do
  match ← engine e with
  | .sync s =>
    if s.recording then
      let r ← makeReport passed message
      changeSync e (·.addReport r)
    else misuse .outsideSpec
  | .collecting _ => misuse .outsideSpec
  | .item i =>
    let r ← makeReport passed message
    setEngine e (.item { i with reports := i.reports ++ [r] })
  | .recording => record (.report passed message)

/-- Comparisons by a running program, which calls the methods that it asks. -/
def comparing (call : Call) : Comparing Act where
  store := do return (← get).heap
  fail := throw
  ask v operation args := do
    (v.method? (← get).heap operation).mapM (call · (v :: args) [])

/-- Reports the outcome of an assertion to the current engine. Whether it counts as true is asked once
the engine is known. -/
def report (call : Call) (passed : Answer) (message : Value) : Act Unit := do
  let e ← currentEngine
  let passed ← (comparing call).holds passed
  reportTo e passed message

/-- Marks the running test as waiting. -/
def pause (e : EngineId) : Act Unit := do
  match ← engine e with
  | .sync s =>
    if s.paused then misuse .nestedWait else setEngine e (.sync { s with paused := true })
  | .collecting _ => misuse .waitOutsideSpec
  | .item i =>
    if i.paused then misuse .nestedWait else setEngine e (.item { i with paused := true })
  | .recording => record .pause

/-- The running test waits no longer. -/
def resume (e : EngineId) : Act Unit := do
  match ← engine e with
  | .sync s => setEngine e (.sync { s with paused := false })
  | .collecting _ => pure ()
  | .item i => setEngine e (.item { i with paused := false })
  | .recording => record .resume

end Exemplar.Act
