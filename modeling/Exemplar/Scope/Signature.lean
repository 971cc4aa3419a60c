import Exemplar.Text.Quoted

/-! Parameter lists and how a call fills them.

`Signature.bind` decides a call in a fixed order: positional arguments fill the positional
parameters from the left, named ones follow in call order, then too many positional
arguments, missing positional and missing named arguments are errors, in this order. A
builder function is handed the builder when it has a required positional parameter or takes
any number of them (`acceptsBuilder`). -/
namespace Exemplar

inductive ParameterKind
  | positionalOnly | positional | variadic | namedOnly | variadicNamed
deriving DecidableEq, Repr, Inhabited

structure Parameter (α : Type) where
  name : String
  kind : ParameterKind
  default? : Option α

abbrev Signature (α : Type) := List (Parameter α)

/-- What a parameter receives. -/
inductive Received (α : Type)
  | one (a : α)
  | many (as : List α)
  | named (as : List (String × α))

inductive BindError
  | multiple (name : String)
  | positionalAsNamed (names : List String)
  | unexpected (name : String)
  | tooMany (least most given namedGiven : Nat)
  | missing (names : List String) (namedOnly : Bool)
deriving DecidableEq, Repr

namespace Parameter

variable {α : Type}

def isPositional (p : Parameter α) : Bool :=
  match p.kind with
  | .positionalOnly | .positional => true
  | _ => false

/-- Whether the parameter can be given by name. -/
def isNamed (p : Parameter α) : Bool :=
  match p.kind with
  | .positional | .namedOnly => true
  | _ => false

end Parameter

namespace BindError

def plural (n : Nat) : String := if n = 1 then "" else "s"

/-- `'a'`, `'a' and 'b'`, or `'a', 'b', and 'c'`. -/
def enumerate (names : List String) : String :=
  match names.map Text.quote with
  | [] => ""
  | [a] => a
  | [a, b] => a ++ " and " ++ b
  | quoted => String.intercalate ", " quoted.dropLast ++ ", and " ++ quoted.getLastD ""

def message (function : String) : BindError → String
  | multiple name => s!"{function}() got multiple values for argument " ++ Text.quote name
  | positionalAsNamed names =>
    s!"{function}() got some positional-only arguments passed as keyword arguments: " ++
      Text.quote (String.intercalate ", " names)
  | unexpected name => s!"{function}() got an unexpected keyword argument " ++ Text.quote name
  | tooMany least most given namedGiven =>
    let takes := if least = most then most.repr else s!"from {least} to {most}"
    let s := if least = most then plural most else "s"
    let extra := if namedGiven = 0 then ""
      else s!" positional argument{plural given} (and {namedGiven} keyword-only argument{plural namedGiven})"
    let verb := if given = 1 && namedGiven = 0 then "was" else "were"
    s!"{function}() takes {takes} positional argument{s} but {given}{extra} {verb} given"
  | missing names namedOnly =>
    let sort := if namedOnly then "keyword-only" else "positional"
    s!"{function}() missing {names.length} required {sort} argument{plural names.length}: " ++
      enumerate names

end BindError

namespace Signature

variable {α : Type}

def acceptsBuilder (s : Signature α) : Bool :=
  s.any fun p => p.kind = .variadic || (p.isPositional && p.default?.isNone)

/-- What the named arguments `named` add to the parameters filled so far and to the named
arguments that no parameter has. -/
def bindNamed (s : Signature α) (filled extra : List (String × α)) :
    List (String × α) → Except BindError (List (String × α) × List (String × α))
  | [] => .ok (filled, extra)
  | (name, a) :: rest =>
    if s.any fun p => p.isNamed && p.name = name then
      if filled.any (·.1 = name) then .error (.multiple name)
      else s.bindNamed (filled ++ [(name, a)]) extra rest
    else if s.any (·.kind = .variadicNamed) then s.bindNamed filled (extra ++ [(name, a)]) rest
    else
      let hidden := (s.filter (·.kind = .positionalOnly)).map (·.name)
      let passed := hidden.filter fun n => ((name, a) :: rest).any (·.1 = n)
      .error (if passed.isEmpty then .unexpected name else .positionalAsNamed passed)

/-- What each parameter receives from a call. -/
def bind (s : Signature α) (args : List α) (named : List (String × α)) :
    Except BindError (List (String × Received α)) := do
  let positional := s.filter (·.isPositional)
  let filled := (positional.map (·.name)).zip args
  let (filled, extra) ← s.bindNamed filled [] named
  let rest := args.drop positional.length
  let namedOnly := s.filter (·.kind = .namedOnly)
  if !rest.isEmpty && !s.any (·.kind = .variadic) then
    let optional := (positional.filter (·.default?.isSome)).length
    throw (.tooMany (positional.length - optional) positional.length args.length
      (namedOnly.filter fun p => filled.any (·.1 = p.name)).length)
  let lacks (p : Parameter α) : Bool := p.default?.isNone && !filled.any (·.1 = p.name)
  let absent := positional.filter lacks
  if !absent.isEmpty then throw (.missing (absent.map (·.name)) false)
  let absent := namedOnly.filter lacks
  if !absent.isEmpty then throw (.missing (absent.map (·.name)) true)
  return s.filterMap fun p =>
    match p.kind with
    | .variadic => some (p.name, .many rest)
    | .variadicNamed => some (p.name, .named extra)
    | _ => ((filled.lookup p.name).or p.default?).map fun a => (p.name, .one a)

end Signature

end Exemplar
