import Exemplar.Yaml.Document
import Exemplar.Text.Lines
import Exemplar.Value.Equality
import Exemplar.Value.Plain

/-! The messages of failures.

An error with a place shows it below its text: the group, the spec, and the outline of the
group as a document, each indented further (`formatError`). Data that a model refused is
reported issue by issue. -/
namespace Exemplar

def locationIndent : String := "    "

def outlineIndent : String := "        "

namespace Context

/-- A line for a part of the place that is known and true. -/
def line (h : Heap) (what : String) : Option Value → Except Failure (List String)
  | none => .ok []
  | some v => do
    if ← v.truth h then return [locationIndent ++ what ++ " \"" ++ (← v.toText h) ++ "\""]
    else return []

def locationLines (h : Heap) (c : Context) : Except Failure (List String) := do
  return (← line h "in group" c.group) ++ (← line h "on spec" c.spec)

def outlineLines (h : Heap) (c : Context) : Except Failure (List String) := do
  match c.element with
  | none => return []
  | some v =>
    if ← v.truth h then
      let (h, plain) ← v.plain h
      let document ← Yaml.dump h plain
      return ((Text.lines document).filter fun l => !(Text.trim l.toList).isEmpty).map
        (outlineIndent ++ ·)
    else return []

def isEmpty (c : Context) : Bool :=
  c.group.isNone && c.spec.isNone && c.element.isNone && !c.other

end Context

/-- The message with its place. Without a place the message is passed on as it is. -/
def formatError (h : Heap) (message : Value) (context : Option Context) : Except Failure Value :=
  match context with
  | none => .ok message
  | some c =>
    if c.isEmpty then .ok message
    else do
      let places ← c.locationLines h
      let outline ← c.outlineLines h
      match message.asText? h with
      | some s => return .text (String.intercalate "\n" (s :: places ++ outline))
      | none => throw (.fault (.joinItem 0 (message.fullTypeName h)))

/-- The text of an error that holds `message`. -/
def locatedText (h : Heap) (message : Value) (context : Option Context) : Except Failure String := do
  let v ← formatError h message context
  match v.asText? h with
  | some s => return s
  | none => throw (.fault (.notText (v.fullTypeName h)))

/-- The longest start of `cs` within `limit` bytes. -/
def takeBytes (limit : Nat) : List Char → List Char
  | [] => []
  | c :: cs => if c.utf8Size ≤ limit then c :: takeBytes (limit - c.utf8Size) cs else []

/-- The longest end of `cs` within `limit` bytes. -/
def takeLastBytes (limit : Nat) (cs : List Char) : List Char :=
  (takeBytes limit cs.reverse).reverse

/-- Inputs of more than fifty bytes are cut in the middle. -/
def abbreviate (s : String) : String :=
  if s.utf8ByteSize ≤ 50 then s
  else
    let cs := s.toList
    String.ofList (takeBytes 25 cs) ++ "..." ++ String.ofList (takeLastBytes 24 cs)

def Issue.text (h : Heap) (i : Issue) : Except Failure String := do
  let place := String.intercalate "." (i.place.map Location.text)
  let input := abbreviate (← i.input.shown h)
  return place ++ "\n  " ++ i.kind.message ++ " [type=" ++ i.kind.code ++ ", input_value=" ++ input ++
    ", input_type=" ++ i.input.typeName h ++ "]"

def issuesText (h : Heap) (model : String) (issues : List Issue) : Except Failure String := do
  let parts ← issues.mapM (·.text h)
  let s := if issues.length = 1 then "" else "s"
  return String.intercalate "\n" (s!"{issues.length} validation error{s} for {model}" :: parts)

namespace Failure

/-- The text of a failure, as its reader sees it. -/
def text (h : Heap) : Failure → Except Failure String
  | raised kind args => errorText h (·.toText h) kind args
  | fault f => .ok (if f.kind = .keyError then Text.quote f.detail else f.detail)
  | misuse m context => locatedText h (.text m.message) context
  | invalid model issues => issuesText h model issues
  | plugin f => .ok f.issue.message

/-- The failure as an expression. -/
def shown (h : Heap) : Failure → Except Failure String
  | raised kind args => errorShown h kind args
  | fault f => .ok (f.kind.name ++ "(" ++ Text.quote f.detail ++ ")")
  | misuse m _ => .ok (m.kind.name ++ "(" ++ Text.quote m.message ++ ")")
  | invalid model issues => issuesText h model issues
  | plugin f => .ok (ErrorKind.pluginError.name ++ "(" ++ Text.quote f.issue.message ++ ")")

end Failure

/-- A failure with its text made up. -/
inductive Described
  | error (kind : String) (message : String)
  | invalid (model : String) (issues : List (IssueKind × List Location))

/-- An error whose text can not be made is described by its kind alone. -/
def Failure.describe (h : Heap) (f : Failure) : Described :=
  match f with
  | .invalid model issues => .invalid model (issues.map fun i => (i.kind, i.place))
  | f => .error f.kind.name (match f.text h with
    | .ok s => s
    | .error _ => "")

end Exemplar
