import Exemplar.Value.Kind
import Exemplar.Number.Complex
import Exemplar.Number.Decimal
import Exemplar.Number.Fraction

/-! The programs that fill specifications.

A `Term` denotes a value, a `Step` is one statement, and a `Body` is what stands where a
procedure is expected: nothing, a list of steps, or any value. Builders, hooks, spec bodies
and custom verbs are all written with them. -/
namespace Exemplar

/-- How a builder function gets at the verbs. The first four are handed the builder object;
the others use the verbs as bare names, `helper` from another function of its module. -/
inductive Style
  | param | varargs | callable | applied
  | bare | default | method | helper
deriving DecidableEq, Repr, Inhabited

inductive EngineKind
  | sync | collecting | item | recording
deriving DecidableEq, Repr, Inhabited

/-- The engine of a nested run. -/
inductive EngineChoice
  | fresh (kind : EngineKind)
  | current
deriving DecidableEq, Repr, Inhabited

mutual

inductive Term
  | null
  | bool (b : Bool)
  | int (i : Int)
  | text (s : String)
  | bytes (bs : List UInt8)
  | undefined
  | float (x : Binary64)
  | fraction (x : Fraction)
  | decimal (x : Decimal)
  | complex (z : Complex)
  | ownText (s : String)
  | ownInt (i : Int)
  | list (own : Bool) (items : List Term)
  | tuple (own : Bool) (items : List Term)
  | mapping (ordered : Bool) (entries : List (Term × Term))
  | set (frozen : Bool) (items : List Term)
  | object (cls : ObjectClass) (attributes : List (String × Term))
  | classOf (cls : ObjectClass)
  | error (kind : ErrorKind) (args : List Term)
  | procedure (body : Body)
  /-- A procedure that answers with what the variable holds after the body. -/
  | answering (body : Body) (answer : String)
  | define (name : String) (term : Term)
  | reference (name : String)
  | variable (name : String)
  | argument (index : Nat)
  | arguments
  | shortcut (verb : String)
  /-- An element of a specification, made from its fields. -/
  | element (model : String) (fields : List (String × Term))

/-- A script takes any arguments unless it says how many. -/
inductive Body
  | absent
  | script (arity : Option Nat) (steps : List Step)
  | value (term : Term)

inductive Step
  | describe (via : Option String) (name : Term) (body : Body) (logged : Bool)
  | before (via : Option String) (body : Body) (logged : Bool)
  | after (via : Option String) (body : Body) (logged : Bool)
  | it (via : Option String) (description : Term) (body : Body) (logged : Bool)
  | given (via : Option String) (args : List Term) (its : List (Term × Body)) (logged : Bool)
  | assert (via : Option String) (subject : Option Term) (verb : String) (args : List Term)
      (named : List (String × Term)) (logged : Bool)
  | shortcut (via : Option String) (verb : String) (args : List Term) (named : List (String × Term))
      (logged : Bool)
  | bind (via : Option String) (name : String) (subject : Option Term)
  | call (name verb : String) (args : List Term) (named : List (String × Term)) (logged : Bool)
  | take (name verb target : String)
  | invoke (name : String) (args : List Term) (named : List (String × Term)) (logged : Bool)
  | wait (via : Option String) (ms : Term) (body : Body)
  | report (passed : Term) (message : Option Term)
  | extend (verbs : List (Term × Body × Option Term)) (definitions : Bool)
  | raise (kind : ErrorKind) (args : List Term)
  | attempt (steps : List Step)
  | thread (steps : List Step)
  | log (value : Term)
  | set (name : String) (value : Term)
  | add (name : String) (value : Term)
  | push (name : String) (value : Term)
  | cursor
  | forest
  | verbs (via : Option String)
  | globalMode (value : Term)
  | build (builder : List Step) (style : Style) (saveAs : Option String)
  | specify (name : Term) (builder : List Step) (style : Style) (saveAs : Option String)
      (engine : EngineChoice)
  | setTitle (title : Term)
  | declareGroup (name : Term) (setup teardown : Body)
  | runTest (description : Term) (body : Body)
  | pause
  | resume

end

instance : Inhabited Term := ⟨.null⟩
instance : Inhabited Body := ⟨.absent⟩
instance : Inhabited Step := ⟨.cursor⟩

end Exemplar
