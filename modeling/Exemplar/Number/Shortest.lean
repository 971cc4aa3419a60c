import Exemplar.Number.Binary64

/-! The shortest decimal that reads back as a given number.

The reals that round to `m · 2 ^ e` form an interval around it, its ends included exactly
when `m` is even. For one digit, two digits, and so on, the two neighbours of the number on
that decimal grid are tried: the first grid with a neighbour in the interval wins, and of two
such neighbours the nearer, the even one on a tie. -/
namespace Exemplar.Binary64

/-- A positive number with the interval that rounds to it, over one denominator. -/
structure Band where
  value : Nat
  low : Nat
  high : Nat
  den : Nat
  closed : Bool

/-- The lower half of the interval is narrower below a power of two. -/
def band (m : Nat) (e : Int) : Band :=
  let below := if m = Nat.pow 2 52 && -1074 < e then 1 else 2
  let num := if 0 ≤ e then Nat.pow 2 e.toNat else 1
  let den := if 0 ≤ e then 4 else 4 * Nat.pow 2 (-e).toNat
  ⟨4 * m * num, (4 * m - below) * num, (4 * m + 2) * num, den, m % 2 = 0⟩

/-- Whether the decimal `c · 10 ^ p` lies in the interval. -/
def Band.contains (b : Band) (c : Nat) (p : Int) : Bool :=
  let (x, unit) :=
    if 0 ≤ p then (c * Nat.pow 10 p.toNat * b.den, 1) else (c * b.den, Nat.pow 10 (-p).toNat)
  if b.closed then b.low * unit ≤ x && x ≤ b.high * unit
  else b.low * unit < x && x < b.high * unit

/-- The neighbour of the value on the grid of the multiples of `10 ^ p`, if one of the two
lies in the interval. -/
def Band.onGrid (b : Band) (p : Int) : Option Nat :=
  let (x, unit) :=
    if 0 ≤ p then (b.value, b.den * Nat.pow 10 p.toNat)
    else (b.value * Nat.pow 10 (-p).toNat, b.den)
  let c := x / unit
  match b.contains c p, b.contains (c + 1) p with
  | true, true => some (roundDiv x unit)
  | true, false => some c
  | false, true => some (c + 1)
  | false, false => none

/-- The number of decimal digits before the point, when the value is at least one, and minus
the number of zeros after it otherwise. -/
def Band.magnitude (b : Band) : Int :=
  if b.den ≤ b.value then ((b.value / b.den).repr.length : Int)
  else 1 - ((b.den + b.value - 1) / b.value - 1).repr.length

/-- The first grid that has a decimal in the interval, from `digits` digits on. -/
def Band.search (b : Band) (digits : Nat) : Nat → Nat × Int
  | 0 => (b.value / b.den, 0)
  | more + 1 =>
    let p := b.magnitude - digits
    match b.onGrid p with
    | some c => (c, p)
    | none => b.search (digits + 1) more

/-- Digits without trailing zeros and the power of ten of the last one. -/
def dropZeros (c : Nat) (p : Int) : Nat → Nat × Int
  | 0 => (c, p)
  | more + 1 => if c % 10 = 0 && 0 < c then dropZeros (c / 10) (p + 1) more else (c, p)

/-- The shortest decimal `c · 10 ^ p` that rounds to `m · 2 ^ e`, for a positive `m`. -/
def shortest (m : Nat) (e : Int) : Nat × Int :=
  let (c, p) := (band m e).search 1 18
  dropZeros c p 40

/-- How numbers are written: whole numbers with or without `.0`. -/
structure DecimalStyle where
  wholePoint : Bool

/-- A number by itself. -/
def DecimalStyle.plain : DecimalStyle := ⟨true⟩

/-- A part of a complex number. -/
def DecimalStyle.part : DecimalStyle := ⟨false⟩

def zeros (n : Nat) : String := String.ofList (List.replicate n '0')

/-- Digits with the decimal point after the first `point` of them: positional from `1e-4` to
below `1e16`, and otherwise with an exponent of at least two digits. -/
def layout (style : DecimalStyle) (digits : List Char) (point : Int) : String :=
  if -4 < point && point ≤ 16 then
    if point ≤ 0 then "0." ++ zeros (-point).toNat ++ String.ofList digits
    else
      let k := point.toNat
      if digits.length ≤ k then
        String.ofList digits ++ zeros (k - digits.length) ++ (if style.wholePoint then ".0" else "")
      else String.ofList (digits.take k) ++ "." ++ String.ofList (digits.drop k)
  else
    let lead := String.ofList (digits.take 1)
    let rest := digits.drop 1
    let tail := if rest.isEmpty then "" else "." ++ String.ofList rest
    let e := point - 1
    let size := e.natAbs.repr
    lead ++ tail ++ "e" ++ (if e < 0 then "-" else "+") ++ (if size.length < 2 then "0" else "") ++ size

def magnitudeText (style : DecimalStyle) (m : Nat) (e : Int) : String :=
  if m = 0 then (if style.wholePoint then "0.0" else "0")
  else
    let (c, p) := shortest m e
    let digits := c.repr.toList
    layout style digits (digits.length + p)

def textIn (style : DecimalStyle) : Binary64 → String
  | .nan => "nan"
  | .infinite s => if s then "-inf" else "inf"
  | .finite s m e => (if s then "-" else "") ++ magnitudeText style m e

def text (x : Binary64) : String := x.textIn .plain

end Exemplar.Binary64
