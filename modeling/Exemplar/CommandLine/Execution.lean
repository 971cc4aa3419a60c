import Exemplar.CommandLine.Target
import Exemplar.Collection.Item

/-! Commands at work.

`run` reports every spec and a summary, and ends with status one if a spec failed; `outline`
writes the outline as a document; `assertions` lists the verbs that are registered under their
own name. An error that is no usage error is passed on. -/
namespace Exemplar

/-- The lines that report a result: its status and spec, then what went wrong. -/
def TestResult.lines (r : TestResult) : List String :=
  let status := if r.passed then "PASS" else "FAIL"
  let failed := r.failures.map fun f => "    - " ++ f.shownMessage
  let escaped := r.error.toList.map ("    ! " ++ ·)
  (status ++ " " ++ r.group ++ ": " ++ r.description) :: failed ++ escaped

/-- The line that lists a definition: its name, its aliases and its title. -/
def Definition.line (d : Definition) : String :=
  let aliases := if d.aliases.isEmpty then "" else " (" ++ String.intercalate ", " d.aliases ++ ")"
  let title := match d.title with
    | some "" | none => ""
    | some title => ": " ++ title
  d.name ++ aliases ++ title

/-- The definitions that stand under their own name, in the order of the names. -/
def Registry.listing (r : Registry) : List String :=
  ((r.mergeSort fun a b => a.1 ≤ b.1).filter fun (name, d) => name = d.name).map (·.2.line)

namespace CommandLine

/-- How a command ended, unless it failed. -/
inductive Ending
  | done (output : String) (failed : Bool)
  | misused (e : UsageError)

def text (lines : List String) : String := String.join (lines.map (· ++ "\n"))

/-- Runs a specification in the given mode, and reports. -/
def runAndReport (s : Specification) (globalMode : Bool) : Act Ending := do
  let mode := (← get).globalMode
  let e ← Act.newEngine .sync
  modify fun s => { s with globalMode := mode || globalMode }
  Act.ensuring (Act.runSpecification Act.call s.title s.builder e)
    (modify fun s => { s with globalMode := mode })
  let engine ← Act.syncEngine e
  let title ← Act.reading (engine.title.toText ·)
  let count := s!"{engine.results.length} specs, {engine.passed} passed, {engine.failed} failed"
  return .done (text ((title ++ " Specifications") :: engine.results.flatMap (·.lines) ++ [count]))
    (engine.failed ≠ 0)

/-- Writes the outline of a specification. -/
def writeOutline (s : Specification) : Act Ending := do
  let b ← Act.buildForest s.builder
  let outlines ← Act.outlines (← Act.build b).forest
  let examples ← Act.alloc (.list false outlines)
  let document ← Act.alloc (.mapping false [(.text "specify", s.title), (.text "examples", examples)])
  return .done (← Act.reading (Yaml.dump · document)) false

/-- Does something with the specification that a target refers to. -/
def withTarget (library : Library) (target : String) (use : Specification → Act Ending) : Act Ending := do
  match splitTarget target with
  | none => return .misused (.notTarget target)
  | some (module, member) =>
    match ← findSpecification library target module member with
    | .ok s => use s
    | .error e => return .misused e

/-- What a command does. Help is there for every one of them. -/
def Invocation.perform (library : Library) : Invocation → Act Ending
  | .help page => return .done page.text false
  | .nothing => return .done Page.program.text true
  | .assertions => do return .done (text (← get).registry.listing) false
  | .outline target _ => withTarget library target writeOutline
  | .run target _ globalMode => withTarget library target (runAndReport · globalMode)

/-- The page with the usage of what is done. -/
def Invocation.page : Invocation → Page
  | .help page => page
  | .nothing => .program
  | .assertions => .command .assertions
  | .outline .. => .command .outline
  | .run .. => .command .run

/-- The search path while the command runs. A target that is none leaves it alone. -/
def Invocation.path (path : List String) : Invocation → List String
  | .outline target locations | .run target locations _ =>
    if (splitTarget target).isSome then extendPath path locations else path
  | _ => path

/-- The status of a command line that was misused. -/
def misuseStatus : Int := 2

/-- How the program ended. -/
structure Exit where
  status : Int
  output : String := ""
  /-- The error that the program ended with. -/
  raised : Option Described := none

/-- Whether the error goes past the program: it is neither an exception nor a request to stop. -/
def passesProgram (f : Failure) : Bool :=
  f.isInterruption && f.kind ≠ .keyboardInterrupt && f.kind ≠ .systemExit

/-- The end that a request to exit asks for: its number, or else its text is written. -/
def exitWith (h : Heap) : List Value → Exit
  | [] | [.null] => { status := 0 }
  | [.int n] => { status := n }
  | [.bool b] => { status := if b then 1 else 0 }
  | [v] => { status := 1, output := ((v.toText h).toOption.getD "") ++ "\n" }
  | args => { status := 1, output := ((errorText h (·.toText h) .systemExit args).toOption.getD "") ++ "\n" }

/-- How the program ends on an error. -/
def exitOnFailure (h : Heap) (f : Failure) : Exit :=
  match f with
  | .raised .systemExit args => exitWith h args
  | f =>
    if f.kind = .keyboardInterrupt then { status := 1, output := "\nAborted!\n" }
    else { status := 1, raised := some (f.describe h) }

/-- What the program leaves behind. -/
structure Finish where
  exit : Exit
  path : List String
  session : Session
  /-- The error that went past the program. -/
  passed : Option Described

def Ending.exit (i : Invocation) : Ending → Exit
  | .done output failed =>
    { status := if failed then (if i = .nothing then misuseStatus else 1) else 0, output }
  | .misused e => { status := misuseStatus, output := e.report i.page }

/-- Runs the program on a library of modules. -/
def execute (s : Session) (library : Library) (path args : List String) : Finish :=
  match Invocation.ofArguments args with
  | .error (page, e) =>
    { exit := { status := misuseStatus, output := e.report page }, path, session := s, passed := none }
  | .ok i =>
    let path := i.path path
    match i.perform library s with
    | (.ok ending, s) => { exit := ending.exit i, path, session := s, passed := none }
    | (.error f, s) =>
      { exit := exitOnFailure s.heap f, path, session := s
        passed := if passesProgram f then some (f.describe s.heap) else none }

end CommandLine

end Exemplar
