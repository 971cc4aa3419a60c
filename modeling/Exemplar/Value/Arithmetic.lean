import Exemplar.Value.Equality

/-! Sums, and quotients by a natural number.

A sum has the wider of the two types: integers, then fractions, then floats, then complex
numbers; decimals add only to decimals and integers. Texts, bytes, lists and tuples are
concatenated with their like. -/
namespace Exemplar

/-- A number that operations can be done with. -/
inductive Numeral
  | int (i : Int)
  | fraction (x : Fraction)
  | float (x : Binary64)
  | complex (z : Complex)
  | decimal (x : Decimal)

namespace Numeral

def of? (h : Heap) (v : Value) : Option Numeral :=
  match v.asInt? h, h.cell? v with
  | some i, _ => some (.int i)
  | none, some (.float x) => some (.float x)
  | none, some (.fraction x) => some (.fraction x)
  | none, some (.decimal x) => some (.decimal x)
  | none, some (.complex z) => some (.complex z)
  | none, _ => none

/-- The decimal number that an integer is. -/
def decimalOfInt (i : Int) : Decimal := .finite (i < 0) i.natAbs 0

/-- The nearest float; a number that is too large has none. -/
def toFloat : Numeral → Except Fault Binary64
  | int i => match Binary64.ofInt? i with
    | some x => .ok x
    | none => .error .integerTooLarge
  | fraction x => match Binary64.ofRatio (x.num < 0) x.num.natAbs x.den with
    | .infinite _ => .error .quotientTooLarge
    | y => .ok y
  | float x => .ok x
  | complex z => .ok z.re
  | decimal x => .ok (Binary64.ofExact x.exact)

/-- How wide the type of a number is. -/
def rank : Numeral → Nat
  | int _ => 0
  | fraction _ => 1
  | float _ => 2
  | complex _ => 3
  | decimal _ => 4

def toComplex : Numeral → Except Fault Complex
  | complex z => .ok z
  | n => do return ⟨← n.toFloat, .zero⟩

def toFraction : Numeral → Fraction
  | fraction x => x
  | int i => .ofRatio i 1
  | _ => .ofRatio 0 1

/-- The sum as a numeral, if the two types can be added. -/
def add (a b : Numeral) : Option (Except Fault Numeral) :=
  match a, b with
  | int i, int j => some (.ok (.int (i + j)))
  | decimal x, decimal y => some (.ok (.decimal (x.add y)))
  | decimal x, int i => some (.ok (.decimal (x.add (decimalOfInt i))))
  | int i, decimal x => some (.ok (.decimal ((decimalOfInt i).add x)))
  | decimal _, _ | _, decimal _ => none
  | a, b =>
    if max a.rank b.rank = 1 then some (.ok (.fraction (a.toFraction.add b.toFraction)))
    else if max a.rank b.rank = 2 then some (do return .float ((← a.toFloat).add (← b.toFloat)))
    else some (do return .complex ((← a.toComplex).add (← b.toComplex)))

/-- The quotient by a positive number. That of integers is a float. -/
def divNat (n : Nat) : Numeral → Except Fault Numeral
  | int i => match Binary64.ofRatio (i < 0) i.natAbs n with
    | .infinite _ => .error .quotientTooLarge
    | x => .ok (.float x)
  | fraction x => .ok (.fraction (x.divNat n))
  | float x => .ok (.float (x.divNat n))
  | complex z => .ok (.complex (z.divNat n))
  | decimal x => .ok (.decimal (x.divNat n))

def alloc (h : Heap) : Numeral → Heap × Value
  | int i => (h, .int i)
  | fraction x => h.alloc (.fraction x)
  | float x => h.alloc (.float x)
  | complex z => h.alloc (.complex z)
  | decimal x => h.alloc (.decimal x)

end Numeral

/-- A value made by an operation. -/
abbrev Computed := Except Fault (Heap × Value)

/-- `a / n`. -/
def Value.divNat (h : Heap) (a : Value) (n : Nat) : Computed :=
  match Numeral.of? h a with
  | some x => do return (← x.divNat n).alloc h
  | none => .error (.operands "/" (a.fullTypeName h) "int")

/-- `a + b`. -/
def Value.add (h : Heap) (a b : Value) : Computed :=
  match (Numeral.of? h a).bind fun x => (Numeral.of? h b).bind fun y => x.add y with
  | some sum => do return (← sum).alloc h
  | none =>
    let refused (type : String) : Computed := .error (.concatenation type (b.fullTypeName h))
    match a, a.asText? h, h.cell? a with
    | _, some s, _ => match b.asText? h with
      | some t => .ok (h, .text (s ++ t))
      | none => refused "str"
    | .bytes xs, _, _ => match b with
      | .bytes ys => .ok (h, .bytes (xs ++ ys))
      | _ => .error (.bytesConcatenation (b.fullTypeName h))
    | _, _, some (.list _ xs) => match h.cell? b with
      | some (.list _ ys) => .ok (h.alloc (.list false (xs ++ ys)))
      | _ => refused "list"
    | _, _, some (.tuple _ xs) => match h.cell? b with
      | some (.tuple _ ys) => .ok (h.alloc (.tuple false (xs ++ ys)))
      | _ => refused "tuple"
    | _, _, _ => .error (.operands "+" (a.fullTypeName h) (b.fullTypeName h))

end Exemplar
