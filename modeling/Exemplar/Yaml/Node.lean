import Exemplar.Value.Text

/-! Documents as trees.

A scalar is a text, the written form of a null, a truth value or a number, or binary data. A
container that occurs more than once is anchored where it stands first and referred to by an
alias afterwards, which makes a finite tree of every graph of values. Only values of the plain
types can be shown (`Node.ofValue?`); an object of a class of its own can not. -/
namespace Exemplar.Yaml

inductive Scalar
  | text (s : String)
  | form (s : String)
  | binary (bytes : List UInt8)
deriving DecidableEq, Repr

inductive Node
  | ref (anchor : Nat)
  | scalar (s : Scalar)
  | sequence (anchor : Option Nat) (items : List Node)
  | mapping (anchor : Option Nat) (isSet : Bool) (entries : List (Node × Node))

/-- A number always has a point. -/
def floatForm (x : Binary64) : String :=
  match x with
  | .nan => ".nan"
  | .infinite s => if s then "-.inf" else ".inf"
  | x =>
    let cs := x.text.toList
    if cs.contains '.' then String.ofList cs
    else String.ofList (cs.takeWhile (· ≠ 'e') ++ ".0".toList ++ cs.dropWhile (· ≠ 'e'))

/-- The value as a scalar, if it is one. -/
def scalar? (h : Heap) (v : Value) : Except Failure (Option Scalar) :=
  match v, h.cell? v with
  | .null, _ => .ok (some (.form "null"))
  | .bool b, _ => .ok (some (.form (if b then "true" else "false")))
  | .int i, _ => do return some (.form (← intText i))
  | .text s, _ => .ok (some (.text s))
  | .bytes bs, _ => .ok (some (.binary bs))
  | _, some (.float x) => .ok (some (.form (floatForm x)))
  | _, _ => .ok none

/-- The values inside a container that can be shown, in order; the items of a set are keys of
nothing. -/
def parts? (h : Heap) (v : Value) : Option (List Value) :=
  match h.cell? v with
  | some (.list false items) | some (.tuple false items) => some items
  | some (.mapping false entries) => some (entries.flatMap fun (k, v) => [k, v])
  | some (.set false items) => some (setOrder h items)
  | _ => none

/-- An empty tuple is the same object everywhere and is never anchored. -/
def isShareable (h : Heap) (v : Value) : Bool :=
  match h.cell? v with
  | some (.tuple _ []) => false
  | _ => true

/-- Containers seen once, and containers seen again, in the order of their second sight. -/
structure Sights where
  once : List Ref := []
  again : List Ref := []

/-- Walks the values, entering each container once. -/
def survey (h : Heap) : Nat → Sights → Value → Except Failure Sights
  | 0, _, _ => .error (.fault .nesting)
  | depth + 1, sights, v => do
    match ← scalar? h v, v with
    | some _, _ => return sights
    | none, .object r =>
      if sights.once.contains r && isShareable h v then
        return if sights.again.contains r then sights else { sights with again := sights.again ++ [r] }
      else match parts? h v with
        | some parts => parts.foldlM (survey h depth) { sights with once := r :: sights.once }
        | none => throw (.fault (.notRepresentable (← v.shown h)))
    | none, v => throw (.fault (.notRepresentable (← v.shown h)))

/-- Pairs up consecutive nodes. -/
def pairUp : List Node → List (Node × Node)
  | k :: v :: rest => (k, v) :: pairUp rest
  | _ => []

/-- Runs `f` over the list from the left, passing the containers written so far on. -/
def mapWritten (f : List Ref → Value → Node × List Ref) :
    List Ref → List Value → List Node × List Ref
  | written, [] => ([], written)
  | written, v :: vs =>
    let (n, written) := f written v
    let (ns, written) := mapWritten f written vs
    (n :: ns, written)

/-- The tree of a surveyed value. -/
def tree (h : Heap) (anchors : List Ref) : Nat → List Ref → Value → Node × List Ref
  | 0, written, _ => (.scalar (.text ""), written)
  | depth + 1, written, v =>
    match scalar? h v, v with
    | .ok (some s), _ => (.scalar s, written)
    | _, .object r =>
      let anchor := (anchors.idxOf? r).map (· + 1)
      match anchor with
      | some n =>
        if written.contains r then (.ref n, written)
        else container anchor depth (r :: written) v
      | none => container none depth written v
    | _, _ => (.scalar (.text ""), written)
where
  container (anchor : Option Nat) (depth : Nat) (written : List Ref) (v : Value) : Node × List Ref :=
    let (nodes, written) := mapWritten (tree h anchors depth) written ((parts? h v).getD [])
    match h.cell? v with
    | some (.mapping ..) => (.mapping anchor false (pairUp nodes), written)
    | some (.set ..) => (.mapping anchor true (nodes.map (·, .scalar (.form "null"))), written)
    | _ => (.sequence anchor nodes, written)

def Node.ofValue? (h : Heap) (v : Value) : Except Failure Node := do
  let sights ← survey h (h.size + 1) {} v
  return (tree h sights.again (h.size + 1) [] v).1

end Exemplar.Yaml
