import Exemplar.Number.Binary64

/-! Reading decimal literals: an optional sign, digits with an optional point, an optional
exponent. -/
namespace Exemplar

/-- A decimal literal: `± coefficient · 10 ^ exponent`. -/
structure Literal where
  negative : Bool
  coefficient : Nat
  exponent : Int

def digitValue (c : Char) : Nat := c.toNat - 48

def isDigit (c : Char) : Bool := 48 ≤ c.toNat && c.toNat ≤ 57

def naturalOf (ds : List Char) : Nat := ds.foldl (fun n c => n * 10 + digitValue c) 0

/-- The sign in front of `cs`, and what follows it. -/
def readSign : List Char → Bool × List Char
  | '-' :: rest => (true, rest)
  | '+' :: rest => (false, rest)
  | cs => (false, cs)

/-- A whole text of digits with an optional sign. -/
def readInt? (cs : List Char) : Option Int :=
  let (negative, ds) := readSign cs
  if ds.isEmpty || !ds.all isDigit then none
  else
    let n : Int := naturalOf ds
    some (if negative then -n else n)

def Literal.read? (cs : List Char) : Option Literal :=
  let (negative, cs) := readSign cs
  let whole := cs.takeWhile isDigit
  let rest := cs.dropWhile isDigit
  let (fraction, rest) := match rest with
    | '.' :: r => (r.takeWhile isDigit, r.dropWhile isDigit)
    | r => ([], r)
  let exponent : Option Int := match rest with
    | [] => some 0
    | c :: r => if c = 'e' || c = 'E' then readInt? r else none
  if whole.isEmpty && fraction.isEmpty then none
  else exponent.map fun e => ⟨negative, naturalOf (whole ++ fraction), e - fraction.length⟩

def Literal.toBinary64 (l : Literal) : Binary64 :=
  if 0 ≤ l.exponent then Binary64.ofRatio l.negative (l.coefficient * Nat.pow 10 l.exponent.toNat) 1
  else Binary64.ofRatio l.negative l.coefficient (Nat.pow 10 (-l.exponent).toNat)

/-- The words for infinity and NaN are read in any case. -/
def Binary64.read? (cs : List Char) : Option Binary64 :=
  let (negative, rest) := readSign cs
  let word := String.ofList (rest.map Char.toLower)
  if word = "inf" || word = "infinity" then some (.infinite negative)
  else if word = "nan" then some .nan
  else (Literal.read? cs).map Literal.toBinary64

end Exemplar
