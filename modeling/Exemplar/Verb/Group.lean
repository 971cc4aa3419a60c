import Exemplar.Engine.Drive
import Exemplar.Program.Term
import Exemplar.Value.Argument
import Exemplar.Value.Arithmetic

/-! The verbs of a builder.

`describe` opens a group below the one that is open, runs its body and closes it on every way
out. `before`, `after` and `it` change the open group, `given` declares a spec per argument,
and `wait` lets time pass inside a running spec. All but `wait` and `given` itself demand that
the builder's own specification is the one being built. -/
namespace Exemplar.Act

/-- Demands that `b` is the build that is current. -/
def requireBuilding (b : BuildId) (verb : String) : Act Unit := do
  if (← get).building = some b then pure () else misuse (.notBuilding verb)

/-- The open group of a build. -/
def requireCursor (b : BuildId) (verb : String) : Act NodeId := do
  match (← build b).cursor with
  | some n => return n
  | none => misuse (.outsideGroup verb)

/-- The group that a verb changes. -/
def openGroup (b : BuildId) (verb : String) : Act NodeId := do
  requireBuilding b verb
  requireCursor b verb

/-- The qualified name of the open group of a build. -/
def cursorName (b : BuildId) : Act (Option String) := do
  let build ← build b
  match build.cursor with
  | none => return none
  | some n => return some (← reading fun h => build.forest.qualifiedName h n)

/-- The qualified name of the group that a verb would change. -/
def requiredName (b : BuildId) (verb : String) : Act String := do
  let n ← requireCursor b verb
  let forest := (← build b).forest
  reading fun h => forest.qualifiedName h n

/-- Runs `a` with a new group open below the cursor, which is restored on every way out. -/
def insideGroup {α : Type} (b : BuildId) (name : Value) (a : NodeId → Act α) : Act α := do
  let outer ← build b
  let (forest, node) := outer.forest.add name outer.cursor
  changeBuild b fun _ => { forest, cursor := some node }
  ensuring (a node) (setCursor b outer.cursor)

/-- Describes a group. Without a body the group waits for one. -/
def describe (call : Call) (b : BuildId) (name body : Value) : Act (Sum Value NodeId) := do
  if body = .null then return .inl (← alloc (.procedure (.group b name)))
  requireBuilding b "describe"
  insideGroup b name fun node => do
    let _ ← call body [] []
    return .inr node

def before (b : BuildId) (hook : Value) : Act Unit := do
  let node ← openGroup b "before"
  changeForest b (·.setSetup node hook)

def after (b : BuildId) (hook : Value) : Act Unit := do
  let node ← openGroup b "after"
  changeForest b (·.setTeardown node hook)

/-- Fails with the place of a group. -/
def misuseAt {α : Type} (b : BuildId) (m : Misuse) (node : Option NodeId) (spec : Value) : Act α := do
  match node with
  | none => throw (.misuse m (some { spec := some spec }))
  | some n =>
    let forest := (← build b).forest
    let group ← reading fun h => forest.qualifiedName h n
    let element ← making fun h => (forest.outline n).toValue h
    throw (.misuse m (some { group := some (.text group), spec := some spec, element := some element }))

/-- The message of a spec that was declared without a body. -/
def notImplemented : String := "Not Implemented"

/-- The body of a spec that was declared without one: it reports a failure. -/
def stub : Act Value := do
  let fail ← shortcut "fail"
  alloc (.procedure (.applied fail [.text notImplemented]))

/-- A value, or what stands for it when it is null. -/
def givenOr (default : Act Value) (v : Value) : Act Value := if v = .null then default else pure v

/-- Adds a spec to a group. -/
def addSpec (b : BuildId) (node : NodeId) (description body : Value) : Act Spec := do
  let h := (← get).heap
  if body.isCallable h then
    match Schema.text h description with
    | .ok s =>
      let spec : Spec := { description := s, body }
      changeForest b (·.addSpec node spec)
      return spec
    | .error kind => throw (.invalid "Spec" [⟨kind, [.field "description"], description⟩])
  else misuseAt b (.bodyNotCallable (body.typeName h)) (some node) description

/-- Declares a spec in the open group. -/
def it (b : BuildId) (description body : Value) : Act Spec := do
  let node ← openGroup b "it"
  let body ← givenOr stub body
  addSpec b node description body

/-- Demands at least one argument. -/
def requireArguments (b : BuildId) (args : List Value) : Act Unit := do
  if args.isEmpty then misuseAt b .noArguments (← build b).cursor .null

/-- The description of the spec for one argument. -/
def givenDescription (h : Heap) (arg description : Value) : Except Failure String := do
  return "given " ++ (← arg.argumentText h) ++ ", " ++ (← description.toText h)

/-- The body for one argument, which calls `body` with what the argument stands for. -/
def givenBody (arg body : Value) : Act Value := do
  if body = .null then return .null
  let h := (← get).heap
  if body.isCallable h then alloc (.procedure (.applied body (arg.spread h)))
  else fault .targetNotCallable

/-- Declares the spec for one argument. -/
def givenSpec (b : BuildId) (description body arg : Value) : Act Spec := do
  let text ← reading fun h => givenDescription h arg description
  it b (.text text) (← givenBody arg body)

/-- Declares one spec per argument, in order. -/
def givenIt (b : BuildId) (description body : Value) : List Value → Act (List Spec)
  | [] => pure []
  | arg :: args => do
    let spec ← givenSpec b description body arg
    return spec :: (← givenIt b description body args)

/-- The quotient by a number. -/
def quotient (v : Value) (n : Nat) : Act Value := do
  match v.divNat (← get).heap n with
  | .ok made => making fun _ => made
  | .error f => fault f

/-- Lets time pass on the clock. -/
def tick (call : Call) (seconds : Value) : Act Unit := do
  match (← get).clock with
  | none => record (.clock seconds)
  | some clock => let _ ← call clock [seconds] []

/-- Waits `ms` milliseconds on an engine, then calls `body`. The wait ends on every way out. -/
def waitOn (call : Call) (e : EngineId) (ms body : Value) : Act Unit := do
  pause e
  ensuring (do
      tick call (← quotient ms 1000)
      let _ ← call body [] [])
    (resume e)

/-- Waits inside the running spec. -/
def wait (call : Call) (ms body : Value) : Act Unit := do
  waitOn call (← currentEngine) ms body

/-- The names of the verbs. -/
def verbNames : List String := ["describe", "before", "after", "it", "given", "assert_", "wait"]

end Exemplar.Act
