/-! Names that are close to a wrong one.

Two texts are as similar as the characters that they have in common, in order: the longest
common run first, and then those to the left and to the right of it. -/
namespace Exemplar.CommandLine

/-- The length of the longest common start. -/
def commonStart : List Char → List Char → Nat
  | a :: as, b :: bs => if a = b then commonStart as bs + 1 else 0
  | _, _ => 0

/-- A run that two texts have in common: where it starts in each of them, and its length. -/
structure Run where
  left : Nat
  right : Nat
  size : Nat
deriving DecidableEq, Repr

/-- The longest common run; of several the one that starts first in `a`, and then in `b`. -/
def longestRun (a b : List Char) : Run :=
  let starts := (List.range a.length).flatMap fun i => (List.range b.length).map fun j => (i, j)
  starts.foldl (fun best (i, j) =>
    let size := commonStart (a.drop i) (b.drop j)
    if size > best.size then ⟨i, j, size⟩ else best) ⟨0, 0, 0⟩

/-- How many characters two texts have in common; they are cut at most `cuts` times. -/
def agreementWithin : Nat → List Char → List Char → Nat
  | 0, _, _ => 0
  | cuts + 1, a, b =>
    let run := longestRun a b
    if run.size = 0 then 0
    else
      agreementWithin cuts (a.take run.left) (b.take run.right) + run.size +
        agreementWithin cuts (a.drop (run.left + run.size)) (b.drop (run.right + run.size))

/-- How many characters two texts have in common. -/
def agreement (a b : String) : Nat := agreementWithin a.length a.toList b.toList

/-- Whether at least three fifths of two texts agree. -/
def isClose (a b : String) : Bool := 5 * (2 * agreement a b) ≥ 3 * (a.length + b.length)

/-- The names that are close to a wrong one. -/
def closeNames (wrong : String) (names : List String) : List String := names.filter (isClose · wrong)

end Exemplar.CommandLine
