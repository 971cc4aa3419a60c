import Exemplar.Program.Outcome
import Exemplar.Scope.Host

/-! What modules hold: values, builder functions, and specifications. -/
namespace Exemplar

inductive Member
  | value (t : Term)
  | builder (source : Source)
  | specification (title : Term) (source : Source)

/-- Reads a member: a record with a value, or with the steps of a builder and perhaps a title. -/
def Member.read? (d : Data) : Option Member :=
  match d.field? "value" with
  | some v => (Term.read? v).map .value
  | none => do
    let source ← Source.read? d
    match d.field? "spec" with
    | some title => return .specification (title.plain title.depth) source
    | none => return .builder source

/-- A builder function with a title. -/
structure Specification where
  title : Value
  builder : BuilderFunction

namespace Act

/-- A value that can be called, as a builder function. It gets the builder if it asks for it. -/
def builderOfValue (v : Value) : Act BuilderFunction := do
  let h := (← get).heap
  let args := if (v.signature? h).any (·.acceptsBuilder) then [Value.foreign "Builder"] else []
  return ⟨.param, none, ← newModule, fun _ => do let _ ← call v args []⟩

/-- The specification that a member is, or that a builder becomes under the name of the member. -/
def specificationOf? (name : String) : Member → Act (Option Specification)
  | .specification title source => do
    return some ⟨← title.eval {}, ← builderOf source⟩
  | .builder source => do return some ⟨.text name, ← builderOf source⟩
  | .value t => do
    let v ← t.eval {}
    if v.isCallable (← get).heap then return some ⟨.text name, ← builderOfValue v⟩
    else return none

end Act

end Exemplar
