import Exemplar.Scope.Signature

/-! Parameter lists as a caller sees them.

How a function is reached decides which of its parameters are left to a caller: the object it
belongs to takes the first one (`ofMethod?`), and arguments that were given in advance take
theirs (`applied?`). Both are none where no call at all could succeed. -/
namespace Exemplar.Signature

variable {α : Type}

/-- The parameters of a function of an object. A variadic parameter takes the object and stays. -/
def ofMethod? : Signature α → Option (Signature α)
  | [] => none
  | p :: rest =>
    match p.kind with
    | .positionalOnly | .positional => some rest
    | .variadic => some (p :: rest)
    | .namedOnly | .variadicNamed => none

/-- Whether arguments given in advance fit the parameters, of which the first are `taken` by
the positional ones. -/
def fits (s taken : Signature α) (args : List α) (named : List (String × α)) : Bool :=
  let left := s.filter fun p => !taken.any (·.name = p.name)
  let tooMany := args.length > taken.length && !s.any (·.kind = .variadic)
  let hidden := left.any fun p => p.kind = .positionalOnly && named.any (·.1 = p.name)
  let unknown := named.any fun (n, _) => !left.any fun p => p.isNamed && p.name = n
  let twice := taken.any fun p => p.isNamed && named.any (·.1 = p.name)
  !tooMany && !hidden && !twice && (!unknown || s.any (·.kind = .variadicNamed))

/-- The parameters that are left once the first arguments and some named ones are given. A
parameter given by name becomes an option that only a name can change, and so does every
parameter after it, since no position reaches them any more. -/
def applied? (s : Signature α) (args : List α) (named : List (String × α)) : Option (Signature α) :=
  let taken := (s.filter (·.isPositional)).take args.length
  if !s.fits taken args named then none
  else
    let left := s.filter fun p => !taken.any (·.name = p.name)
    let reached (p : Parameter α) : Bool := !(p.kind = .positional && named.any (·.1 = p.name))
    let given (p : Parameter α) : Parameter α := { p with default? := (named.lookup p.name).or p.default? }
    let byName (p : Parameter α) : Option (Parameter α) :=
      match p.kind with
      | .variadic => none
      | .positional => some { given p with kind := .namedOnly }
      | .namedOnly => some (given p)
      | _ => some p
    let fixed := (left.takeWhile reached).map fun p => if p.kind = .namedOnly then given p else p
    some (fixed ++ (left.dropWhile reached).filterMap byName)

end Exemplar.Signature
