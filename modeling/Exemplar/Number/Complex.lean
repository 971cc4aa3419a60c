import Exemplar.Number.Shortest
import Exemplar.Number.Reading

/-! Complex numbers with floating parts. -/
namespace Exemplar

structure Complex where
  re : Binary64
  im : Binary64
deriving DecidableEq, Repr, Inhabited

namespace Complex

def isZero (z : Complex) : Bool := z.re.isZero && z.im.isZero

def add (z w : Complex) : Complex := ⟨z.re.add w.re, z.im.add w.im⟩

/-- Division by a positive integer, which is a complex number too: its imaginary part, a zero,
meets infinities, NaNs and the signs of zeros. -/
def divNat (z : Complex) (n : Nat) : Complex :=
  ⟨(z.re.add z.im.timesZero).divNat n, (z.im.add z.re.timesZero.neg).divNat n⟩

/-- The real part is left out when it is the positive zero. -/
def text (z : Complex) : String :=
  let im := z.im.textIn .part
  if z.re.isZero && !z.re.isNegative then im ++ "j"
  else
    let sign := if im.toList.head? = some '-' then "" else "+"
    "(" ++ z.re.textIn .part ++ sign ++ im ++ "j)"

/-- Splits before the last sign that is neither first nor part of an exponent. The characters
come last first; `tail` holds those already passed. -/
def splitParts (tail : List Char) : List Char → Option (List Char × List Char)
  | [] => none
  | [_] => none
  | c :: d :: rest =>
    if (c = '+' || c = '-') && d ≠ 'e' && d ≠ 'E' then some ((d :: rest).reverse, c :: tail)
    else splitParts (c :: tail) (d :: rest)

def readPart (cs : List Char) : Option Binary64 :=
  if cs.isEmpty || cs = ['+'] then some (Binary64.ofInt 1)
  else if cs = ['-'] then some (Binary64.ofInt (-1))
  else Binary64.read? cs

def read? (cs : List Char) : Option Complex :=
  let cs := match cs with
    | '(' :: rest => rest.dropLast
    | cs => cs
  match cs.reverse with
  | [] => none
  | last :: rest =>
    if last = 'j' || last = 'J' then
      match splitParts [] rest with
      | some (re, im) =>
        match Binary64.read? re, readPart im with
        | some re, some im => some ⟨re, im⟩
        | _, _ => none
      | none => (readPart rest.reverse).map fun im => ⟨Binary64.zero, im⟩
    else (Binary64.read? cs).map fun re => ⟨re, Binary64.zero⟩

end Complex

end Exemplar
