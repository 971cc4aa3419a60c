import Exemplar.Number.Reading

/-! Decimal numbers with their scale: `1.0` and `1.00` are equal and differ in text. Results
of arithmetic keep 28 digits, rounded half to even. -/
namespace Exemplar

inductive Decimal
  | nan
  | infinite (negative : Bool)
  | finite (negative : Bool) (coefficient : Nat) (exponent : Int)
deriving DecidableEq, Repr, Inhabited

namespace Decimal

def exact : Decimal → Exact
  | .nan => .nan
  | .infinite s => .infinite s
  | .finite s c e =>
    let signed : Int := if s then -c else c
    if 0 ≤ e then .ratio (signed * Nat.pow 10 e.toNat) 1 else .ratio signed (Nat.pow 10 (-e).toNat)

def read? (cs : List Char) : Option Decimal :=
  let (negative, rest) := readSign cs
  let word := String.ofList (rest.map Char.toLower)
  if word = "inf" || word = "infinity" then some (.infinite negative)
  else if word = "nan" then some .nan
  else (Literal.read? cs).map fun l => .finite l.negative l.coefficient l.exponent

def precision : Nat := 28

/-- Rounded to the precision. -/
def rounded (negative : Bool) (c : Nat) (e : Int) : Decimal :=
  let extra := c.repr.length - precision
  if extra = 0 then .finite negative c e
  else
    let c := roundDiv c (Nat.pow 10 extra)
    if c = Nat.pow 10 precision then .finite negative (Nat.pow 10 (precision - 1)) (e + extra + 1)
    else .finite negative c (e + extra)

/-- Trailing zeros dropped while the exponent is below `ideal`. -/
def towards (ideal : Int) (c : Nat) (e : Int) : Nat → Nat × Int
  | 0 => (c, e)
  | more + 1 => if e < ideal && c % 10 = 0 then towards ideal (c / 10) (e + 1) more else (c, e)

/-- Division by a positive integer. -/
def divNat (x : Decimal) (n : Nat) : Decimal :=
  match x with
  | .finite s c e =>
    if c = 0 then .finite s 0 e
    else
      let shift : Int := (n.repr.length : Int) - c.repr.length + precision + 1
      let (num, den) :=
        if 0 ≤ shift then (c * Nat.pow 10 shift.toNat, n) else (c, n * Nat.pow 10 (-shift).toNat)
      let q := num / den
      if num % den ≠ 0 then rounded s (if q % 5 = 0 then q + 1 else q) (e - shift)
      else
        let (q, e) := towards e q (e - shift) q.repr.length
        rounded s q e
  | x => x

def add (x y : Decimal) : Decimal :=
  match x, y with
  | .finite s c e, .finite t d f =>
    let g := min e f
    let a : Int := c * Nat.pow 10 (e - g).toNat
    let b : Int := d * Nat.pow 10 (f - g).toNat
    let sum : Int := (if s then -a else a) + (if t then -b else b)
    rounded (if sum = 0 then s && t else sum < 0) sum.natAbs g
  | .infinite s, .infinite t => if s = t then .infinite s else .nan
  | .infinite s, .finite .. | .finite .., .infinite s => .infinite s
  | _, _ => .nan

def text : Decimal → String
  | .nan => "NaN"
  | .infinite s => if s then "-Infinity" else "Infinity"
  | .finite s c e =>
    let digits := c.repr.toList
    let left : Int := e + digits.length
    let point : Int := if e ≤ 0 && -6 < left then left else 1
    let body :=
      if point ≤ 0 then "0." ++ String.ofList (List.replicate (-point).toNat '0' ++ digits)
      else if digits.length ≤ point.toNat then
        String.ofList (digits ++ List.replicate (point.toNat - digits.length) '0')
      else String.ofList (digits.take point.toNat) ++ "." ++ String.ofList (digits.drop point.toNat)
    let power := left - point
    let scale := if power = 0 then ""
      else "E" ++ (if power < 0 then "-" else "+") ++ power.natAbs.repr
    (if s then "-" else "") ++ body ++ scale

end Decimal

end Exemplar
