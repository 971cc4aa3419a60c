import Exemplar.Program.Read
import Exemplar.Program.Term
import Exemplar.Scope.Signature
import Exemplar.Scope.Bindings

/-! Functions that read and write names.

The body of a function is a list of lines. Which variable a name means is decided by the whole
body it is in, before anything runs: a name that a line of the body declares global is global
throughout, a name that one declares to be of an enclosing function is that function's, and any
other name that the body sets or erases is its own. Bodies of inner functions and of classes
count for themselves. -/
namespace Exemplar.Scope

/-- How a line that sets or erases a name declares it. -/
inductive Reach
  | global | enclosing | own
deriving DecidableEq, Repr

inductive Line (α : Type)
  | load (name : String)
  | set (reach : Reach) (name : String) (value : α)
  | erase (reach : Reach) (name : String)
  | call (name : String)
  /-- Sets a name of the module, whatever the scope. -/
  | rebind (name : String) (value : α)
  /-- Defines an inner function and calls it. -/
  | inner (body : List (Line α))
  /-- Defines an inner function that is called at the end. -/
  | later (body : List (Line α))
  /-- Defines a class, whose body runs at once. -/
  | classBody (body : List (Line α))
  | parameter (name : String)
  | answer (value : α)

structure Function (α : Type) where
  name : String
  parameters : Signature α := []
  body : List (Line α) := []
  doc : Option String := none
  /-- The variables of the function that encloses it, if one does. -/
  closure : Option (Bindings α) := none

namespace Line

variable {α : Type}

/-- The name that a line declares, and how. -/
def declares? : Line α → Option (Reach × String)
  | set reach name _ | erase reach name => some (reach, name)
  | _ => none

def declared (reach : Reach) (body : List (Line α)) : List String :=
  (body.filterMap declares?).filterMap fun (r, n) => if r = reach then some n else none

end Line

/-- The names that a body declares global, and those of its own. -/
structure Declared where
  global : List String
  own : List String

def Declared.ofBody {α : Type} (parameters : List String) (body : List (Line α)) : Declared :=
  let global := Line.declared .global body
  let enclosing := Line.declared .enclosing body
  { global
    own := (parameters ++ Line.declared .own body).filter fun n =>
      !global.contains n && !enclosing.contains n }

/-! ### Reading -/

def parameterKind? : String → Option ParameterKind
  | "positional_only" => some .positionalOnly
  | "positional_or_keyword" => some .positional
  | "var_positional" => some .variadic
  | "keyword_only" => some .namedOnly
  | "var_keyword" => some .variadicNamed
  | _ => none

def readParameter? (d : Data) : Option (Parameter Term) := do
  let default? ← match d.field? "default" with
    | some v => some <$> Term.read? v
    | none => some none
  return ⟨← d.textOf? "name", ← (d.textOf? "kind").bind parameterKind?, default?⟩

def readSignature? (d : Data) : Option (Signature Term) := do
  (← d.itemsOf? "params").mapM readParameter?

/-- Reads a line without a body of its own. -/
def readPlainLine? : Data → Option (Line Term)
  | .list [.text "load", .text n] => some (.load n)
  | .list [.text "global", .text n, v] => (Term.read? v).map (.set .global n)
  | .list [.text "local", .text n, v] => (Term.read? v).map (.set .own n)
  | .list [.text "nonlocal", .text n, v] => (Term.read? v).map (.set .enclosing n)
  | .list [.text "del_global", .text n] => some (.erase .global n)
  | .list [.text "del_local", .text n] => some (.erase .own n)
  | .list [.text "call", .text n] => some (.call n)
  | .list [.text "rebind", .text n, v] => (Term.read? v).map (.rebind n)
  | .list [.text "param", .text n] => some (.parameter n)
  | .list [.text "return", v] => (Term.read? v).map .answer
  | _ => none

mutual

/-- Reads a line, whose bodies nest at most `depth` deep. -/
def readLine? : Nat → Data → Option (Line Term)
  | depth + 1, .list [.text "nested", .list body] => (readBody? depth body).map .inner
  | depth + 1, .list [.text "defer", .list body] => (readBody? depth body).map .later
  | depth + 1, .list [.text "class", .list body] => (readBody? depth body).map .classBody
  | _, d => readPlainLine? d

def readBody? : Nat → List Data → Option (List (Line Term))
  | _, [] => some []
  | depth, d :: ds => do
    let line ← readLine? depth d
    return line :: (← readBody? depth ds)

end

/-- The terms of a record, by name, or of a list of pairs of a name and a term. -/
def readBindings? (d : Option Data) : Option (Bindings Term) :=
  match d with
  | none | some .null => some []
  | some (.record fields) => fields.mapM fun (n, v) => do return (n, ← Term.read? v)
  | some (.list items) => items.mapM fun item => do
      let (n, v) ← item.pair?
      return (← n.text?, ← Term.read? v)
  | _ => none

def Function.read? (name : String) (d : Data) : Option (Function Term) := do
  let closure ← match d.field? "closure" with
    | some v => some <$> readBindings? (some v)
    | none => some none
  return { name, parameters := ← readSignature? d, body := ← readBody? d.depth (← d.itemsOf? "body")
           doc := d.textOf? "doc", closure }

/-! ### Values -/

mutual

/-- The line with its terms evaluated. -/
def Line.eval (f : Frame) : Line Term → Act (Line Value)
  | .load n => return .load n
  | .set reach n t => do return .set reach n (← t.eval f)
  | .erase reach n => return .erase reach n
  | .call n => return .call n
  | .rebind n t => do return .rebind n (← t.eval f)
  | .inner body => do return .inner (← Line.evalAll f body)
  | .later body => do return .later (← Line.evalAll f body)
  | .classBody body => do return .classBody (← Line.evalAll f body)
  | .parameter n => return .parameter n
  | .answer t => do return .answer (← t.eval f)

def Line.evalAll (f : Frame) : List (Line Term) → Act (List (Line Value))
  | [] => return []
  | line :: rest => do
    let line ← Line.eval f line
    return line :: (← Line.evalAll f rest)

end

def evalSignature (f : Frame) (s : Signature Term) : Act (Signature Value) :=
  s.mapM fun p => do
    let default? ← match p.default? with
      | some t => some <$> t.eval f
      | none => pure none
    return ⟨p.name, p.kind, default?⟩

def Function.eval (f : Frame) (fn : Function Term) : Act (Function Value) := do
  let parameters ← evalSignature f fn.parameters
  let body ← Line.evalAll f fn.body
  let closure ← match fn.closure with
    | some b => some <$> Term.evalFields f b
    | none => pure none
  return { name := fn.name, parameters, body, doc := fn.doc, closure }

end Exemplar.Scope
