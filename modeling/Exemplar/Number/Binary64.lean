/-! Binary floating point numbers in 64 bits, as exact rationals.

A finite number is `± mantissa · 2 ^ exponent`; the arithmetic computes the exact result and
rounds it once, to the nearest number and to the even mantissa on a tie. -/
namespace Exemplar

inductive Binary64
  | nan
  | infinite (negative : Bool)
  | finite (negative : Bool) (mantissa : Nat) (exponent : Int)
deriving DecidableEq, Repr, Inhabited

/-- The exact value of a real number, as far as it has one. -/
inductive Exact
  | nan
  | infinite (negative : Bool)
  | ratio (num : Int) (den : Nat)
deriving Repr, Inhabited

namespace Exact

def ofInt (i : Int) : Exact := .ratio i 1

/-- Equality of values. Nothing equals a NaN. -/
def same : Exact → Exact → Bool
  | .infinite a, .infinite b => a = b
  | .ratio a b, .ratio c d => a * d = c * b
  | _, _ => false

def isZero : Exact → Bool
  | .ratio a _ => a = 0
  | _ => false

end Exact

/-- `num / den` to the nearest integer, a tie to the even one. -/
def roundDiv (num den : Nat) : Nat :=
  let q := num / den
  let r := num % den
  if 2 * r < den then q else if den < 2 * r then q + 1 else q + q % 2

namespace Binary64

def zero : Binary64 := .finite false 0 (-1074)

/-- The quotient `num / den` in units of `2 ^ e`, as a quotient. -/
def inUnits (num den : Nat) (e : Int) : Nat × Nat :=
  if 0 ≤ e then (num, den * Nat.pow 2 e.toNat) else (num * Nat.pow 2 (-e).toNat, den)

/-- The number nearest to `num / den`; `den` is positive. -/
def ofRatio (negative : Bool) (num den : Nat) : Binary64 :=
  if num = 0 then .finite negative 0 (-1074)
  else
    let low : Int := (num.log2 : Int) - den.log2 - 53
    let (a, b) := inUnits num den low
    let e := max (-1074) (if a < b * Nat.pow 2 53 then low else low + 1)
    let (a, b) := inUnits num den e
    let m := roundDiv a b
    let (m, e) := if m = Nat.pow 2 53 then (Nat.pow 2 52, e + 1) else (m, e)
    if 971 < e then .infinite negative else .finite negative m e

def exact : Binary64 → Exact
  | .nan => .nan
  | .infinite s => .infinite s
  | .finite s m e =>
    let signed : Int := if s then -m else m
    if 0 ≤ e then .ratio (signed * Nat.pow 2 e.toNat) 1 else .ratio signed (Nat.pow 2 (-e).toNat)

def ofExact : Exact → Binary64
  | .nan => .nan
  | .infinite s => .infinite s
  | .ratio num den => ofRatio (num < 0) num.natAbs den

def isNegative : Binary64 → Bool
  | .nan => false
  | .infinite s => s
  | .finite s _ _ => s

def isZero : Binary64 → Bool
  | .finite _ m _ => m = 0
  | _ => false

/-- `==` on numbers: both zeros are equal and a NaN equals nothing. -/
def same (x y : Binary64) : Bool := x.exact.same y.exact

def ofInt (i : Int) : Binary64 := ofRatio (i < 0) i.natAbs 1

/-- `none` when the integer rounds to infinity. -/
def ofInt? (i : Int) : Option Binary64 :=
  match ofInt i with
  | .infinite _ => none
  | x => some x

def add : Binary64 → Binary64 → Binary64
  | .nan, _ | _, .nan => .nan
  | .infinite s, .infinite t => if s = t then .infinite s else .nan
  | .infinite s, _ | _, .infinite s => .infinite s
  | x@(.finite s m _), y@(.finite t n _) =>
    if m = 0 && n = 0 then .finite (s && t) 0 (-1074)
    else match x.exact, y.exact with
      | .ratio a b, .ratio c d => ofExact (.ratio (a * d + c * b) (b * d))
      | _, _ => .nan

def neg : Binary64 → Binary64
  | .nan => .nan
  | .infinite s => .infinite !s
  | .finite s m e => .finite (!s) m e

/-- The product with the positive zero: a zero that keeps the sign, for finite numbers. -/
def timesZero : Binary64 → Binary64
  | .finite s _ _ => .finite s 0 (-1074)
  | _ => .nan

/-- Division by a positive integer. -/
def divNat (x : Binary64) (n : Nat) : Binary64 :=
  match x, x.exact with
  | .finite s _ _, .ratio a b => ofRatio s a.natAbs (b * n)
  | x, _ => x

end Binary64

end Exemplar
