import Exemplar.Program.Read
import Exemplar.Program.Run

/-! Whole programs: a specification that is run or built once, and steps on an engine. -/
namespace Exemplar

/-- A builder function as it is written. -/
structure Source where
  steps : List Step
  style : Style := .param
  saveAs : Option String := none

/-- Reads a source from a record with its steps under `builder`. -/
def Source.read? (d : Data) : Option Source := do
  return ⟨← (← d.itemsOf? "builder").mapM Step.read?, ← d.style?, d.textOf? "as"⟩

/-- Where a program ended. -/
structure Outcome (α : Type) where
  failure : Option Described
  result : α
  session : Session

namespace Outcome

/-- What happened, in order. -/
def log {α : Type} (o : Outcome α) : List Entry := o.session.log.reverse

end Outcome

namespace Act

/-- The builder function of a source in a module, whose steps may not drive the barred engine. -/
def builderIn (barred : Option Bar) (module : ModuleId) (source : Source) : BuilderFunction :=
  ⟨source.style, source.saveAs, module,
    fun f => Step.runAll barred (callWithin barred callDepth) f source.steps⟩

/-- The builder function of a source, in a module of its own. -/
def builderOf (source : Source) : Act BuilderFunction := do
  return builderIn none (← newModule) source

/-- How `a` ends from a session; `read` picks what is shown of the session afterwards. -/
def outcome {α β : Type} (s : Session) (a : Act α) (read : Option α → Session → β) : Outcome β :=
  match a s with
  | (.ok v, s) => { failure := none, result := read (some v) s, session := s }
  | (.error f, s) => { failure := some (f.describe s.heap), result := read none s, session := s }

/-- Records what a specification with a title is called. -/
def recordSpecification (title : Value) : Act Unit := do
  let text ← reading (title.shown ·)
  record (.specification ("<Specification " ++ text ++ ">"))

end Act

namespace Session

/-- Runs a specification on an engine of the given kind, or on one that the run makes itself
and that is only seen if the run succeeds. -/
def runSource (s : Session) (title : Term) (source : Source) (kind : Option EngineKind)
    (asSpecification : Bool) : Outcome (Option Engine) :=
  let (given, s) :=
    match kind with
    | some k => (some s.engines.size, { s with engines := s.engines.push (.fresh k) })
    | none => (none, s)
  Act.outcome s
    (do
      let title ← title.eval {}
      let fn ← Act.builderOf source
      if asSpecification then Act.recordSpecification title
      let e ← match given with
        | some e => pure e
        | none => Act.newEngine .sync
      Act.runSpecification Act.call title fn e
      Act.record (.sameEngine (given = some e))
      return e)
    fun result s => (result.or given).bind (s.engines[·]?)

/-- What building a specification twice shows: the outlines of the first build and the
statements of the second. -/
structure Built where
  outlines : Option (List Value) := none
  statements : Option (List Statement) := none

/-- Builds a specification, then builds and compiles it again. -/
def buildSource (s : Session) (source : Source) : Outcome Built :=
  let first := Act.outcome s
    (do
      let fn ← Act.builderOf source
      let b ← Act.buildForest fn
      let outlines ← Act.outlines (← Act.build b).forest
      Act.record .builtOnce
      return (fn, outlines))
    fun result _ => result
  match first.result with
  | none => { first with result := {} }
  | some (fn, outlines) =>
    Act.outcome first.session (do Act.compile (← Act.buildForest fn))
      fun statements _ => { outlines := some outlines, statements }

/-- A session in which an engine is current and a builder exists whose specification is not
being built. -/
def driving (s : Session) (kind : EngineKind) : Session :=
  { s with engines := s.engines.push (.fresh kind), running := some s.engines.size
           builds := s.builds.push {} }

/-- Does one step, and shows the current engine after it. The log starts afresh. -/
def step (s : Session) (b : BuildId) (p : Step) : Outcome (Option Engine) :=
  Act.outcome { s with log := [] } (Step.run none Act.call { builder := some b } p)
    fun _ s => s.running.bind (s.engines[·]?)

/-- Does steps one at a time. -/
def steps (s : Session) (b : BuildId) : List Step → List (Outcome (Option Engine))
  | [] => []
  | p :: rest =>
    let o := s.step b p
    o :: o.session.steps b rest

/-- Runs one assertion as the only spec of a specification. -/
def checkVerb (s : Session) (subject : Option Term) (verb : String) (args : List Term)
    (named : List (String × Term)) : Outcome (Option Engine) :=
  let assertion := Step.assert none subject verb args named false
  let spec := Step.it none (.text "checks") (.script none [assertion]) false
  s.runSource (.text "verb") ⟨[.describe none (.text "verb") (.script none [spec]) false], .param, none⟩
    (some .sync) false

end Session

end Exemplar
