import Exemplar.Number.Reading

/-! Fractions in lowest terms. -/
namespace Exemplar

structure Fraction where
  num : Int
  den : Nat
deriving DecidableEq, Repr, Inhabited

namespace Fraction

/-- In lowest terms; `den` is positive. -/
def ofRatio (num : Int) (den : Nat) : Fraction :=
  let g := Nat.gcd num.natAbs den
  ⟨num / g, den / g⟩

def exact (x : Fraction) : Exact := .ratio x.num x.den

def add (x y : Fraction) : Fraction := ofRatio (x.num * y.den + y.num * x.den) (x.den * y.den)

def divNat (x : Fraction) (n : Nat) : Fraction := ofRatio x.num (x.den * n)

/-- `n`, `n/d` or a decimal literal. -/
def read? (cs : List Char) : Option Fraction :=
  let top := cs.takeWhile (· ≠ '/')
  match cs.dropWhile (· ≠ '/') with
  | [] => (Literal.read? top).map fun l =>
    let signed : Int := if l.negative then -l.coefficient else l.coefficient
    if 0 ≤ l.exponent then ofRatio (signed * Nat.pow 10 l.exponent.toNat) 1
    else ofRatio signed (Nat.pow 10 (-l.exponent).toNat)
  | _ :: bottom =>
    match readInt? top, readInt? bottom with
    | some n, some d => if d ≤ 0 then none else some (ofRatio n d.toNat)
    | _, _ => none

end Fraction

end Exemplar
