import Exemplar.Engine.Drive
import Exemplar.Value.DeepEqual

/-! The built-in verbs.

A verb takes the subject, the expected value if it compares, and an optional message. It
reports exactly one outcome, after the comparison; a comparison that fails reports nothing. What a
comparison answers need not be a truth value: the report asks whether it counts as true. -/
namespace Exemplar

namespace BuiltinVerb

def signature (v : BuiltinVerb) : Signature Value :=
  ⟨"actual", .positional, none⟩ ::
    (if v.isComparison then [⟨"expected", .positional, none⟩] else []) ++
    [⟨"message", .positional, some .null⟩]

end BuiltinVerb

/-- Numbers other than truth values are of one kind; otherwise the types have to agree. -/
def Value.sameKind (h : Heap) (a b : Value) : Bool :=
  (a.isReal h && b.isReal h) || a.typeName h = b.typeName h

/-- What the verb finds of its subject, which it does not call. -/
def BuiltinVerb.outcome {m : Type → Type} [Monad m] (c : Comparing m) (v : BuiltinVerb)
    (actual expected : Value) : m Answer :=
  match v with
  | equals => c.equal actual expected
  | isNotEqualTo => do
    let h ← c.store
    if actual.sameKind h expected then c.unequal actual expected else return .bool true
  | isSameAs => do return .bool (← c.deepEqual actual expected)
  | isNotSameAs => do return .bool !(← c.deepEqual actual expected)
  | isTrue => do return .bool (← c.truth actual)
  | isFalse => do return .bool !(← c.truth actual)
  | isNull => pure (.bool (actual = .null))
  | isNotNull => pure (.bool (actual ≠ .null))
  | isDefined => pure (.bool (actual ≠ .undefined))
  | isUndefined => pure (.bool (actual = .undefined))
  | pass => pure (.bool true)
  | fail | throwsException => pure (.bool false)

/-- The one value that a parameter received. -/
def received (filled : List (String × Received Value)) (name : String) : Value :=
  match filled.lookup name with
  | some (.one v) => v
  | _ => .null

namespace Act

/-- What each parameter receives, or the error of the call. -/
def bindCall (function : String) (s : Signature Value) (args : List Value)
    (named : List (String × Value)) : Act (List (String × Received Value)) :=
  match s.bind args named with
  | .ok filled => pure filled
  | .error cause => fault (.call function cause)

/-- Whether calling the subject raises an exception. Interruptions are passed on. -/
def raises (call : Call) (subject : Value) : Act Bool := do
  match ← attempt (call subject [] []) with
  | .ok _ => return false
  | .error f => if f.isInterruption then throw f else return true

/-- What a verb finds out of what its parameters received. -/
def find (call : Call) (v : BuiltinVerb) (filled : List (String × Received Value)) : Act Answer :=
  if v = .throwsException then do return .bool (← raises call (received filled "actual"))
  else v.outcome (comparing call) (received filled "actual") (received filled "expected")

/-- Calls a built-in verb. -/
def runVerb (call : Call) (v : BuiltinVerb) (args : List Value) (named : List (String × Value)) :
    Act Value := do
  let filled ← bindCall v.procedureName v.signature args named
  let passed ← find call v filled
  report call passed (received filled "message")
  return .null

/-! ### Handlers -/

/-- What a handler has under `name`. A verb awaits the arguments that follow the subject. -/
def handlerAttribute (subject : Value) (name : String) : Act Value := do
  match ← ofExcept ((← get).registry.lookUp subject name) with
  | .own v => return v
  | .verb v => alloc (.procedure (.applied v [subject]))

end Act

end Exemplar
