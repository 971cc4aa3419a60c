import Exemplar.Value.Equality

/-! Structural equality.

The expected value decides how a pair is compared: mappings by their keys and the values
under them, lists and tuples of exactly one type item by item, sets by equality, objects and
elements by type and attributes, and everything else by `==`. A pair of containers under comparison,
or compared before, is taken as equal when it is met again, so the comparison of cyclic values
ends. -/
namespace Exemplar

/-- The pairs of containers entered so far. -/
abbrev Seen := List (Value × Value)

/-- Compares a pair, given the pairs entered before, and answers with those entered since. -/
abbrev Comparison (m : Type → Type) := Value → Value → Seen → m (Bool × Seen)

section Searches

variable {m : Type → Type} [Monad m]

/-- The items pairwise, from the left, up to the first difference. -/
def deepItems (deep : Comparison m) : List Value → List Value → Seen → m (Bool × Seen)
  | a :: as, b :: bs, seen => do
    let (same, seen) ← deep a b seen
    if same then deepItems deep as bs seen else return (false, seen)
  | _, _, seen => pure (true, seen)

/-- The values under the keys of the expected entries, in their order. -/
def deepEntries (same : Value → Value → m Bool) (deep : Comparison m) (actual : List (Value × Value)) :
    List (Value × Value) → Seen → m (Bool × Seen)
  | [], seen => pure (true, seen)
  | (k, b) :: rest, seen => do
    match ← findEntry same k actual with
    | none => return (false, seen)
    | some a =>
      let (equal, seen) ← deep a b seen
      if equal then deepEntries same deep actual rest seen else return (false, seen)

/-- Equal sets of keys. -/
def sameKeys (same : Value → Value → m Bool) (as bs : List (Value × Value)) : m Bool :=
  if as.length ≠ bs.length then pure false
  else allItems same (bs.map (·.1)) (as.map (·.1))

end Searches

namespace Comparing

variable {m : Type → Type} [Monad m] (c : Comparing m)

def deepIn : Nat → Comparison m
  | 0, _, _, _ => c.fail (.fault .nesting)
  | depth + 1, a, b, seen =>
    if a = b || seen.contains (a, b) then pure (true, seen)
    else do
      let h ← c.store
      let entries (as bs : List (Value × Value)) : m (Bool × Seen) := do
        if ← sameKeys c.sameItem as bs then deepEntries c.sameItem (deepIn depth) as bs ((a, b) :: seen)
        else return (false, seen)
      let sameType := a.typeName h = b.typeName h
      match h.cell? b with
      | some (.mapping _ bs) =>
        match h.cell? a with
        | some (.mapping _ as) => entries as bs
        | _ => pure (false, seen)
      | some (.list _ bs) | some (.tuple _ bs) =>
        match a.items? h with
        | some as =>
          if sameType && as.length = bs.length then deepItems (deepIn depth) as bs ((a, b) :: seen)
          else pure (false, seen)
        | none => pure (false, seen)
      | some (.set ..) =>
        match h.cell? a with
        | some (.set ..) => do return (← c.isEqual a b, seen)
        | _ => pure (false, seen)
      | _ =>
        match b.attributes? h with
        | some bs =>
          if b.isCallable h then do return (← c.isEqual a b, seen)
          else if sameType then
            entries (attributeEntries ((a.attributes? h).getD [])) (attributeEntries bs)
          else pure (false, seen)
        | none => do return (← c.isEqual a b, seen)

/-- Each pair of objects is entered once, so the number of pairs bounds the depth. -/
def deepEqual (a b : Value) : m Bool := do
  let h ← c.store
  return (← c.deepIn h.depth a b []).1

end Comparing

namespace Value

variable (h : Heap) [h.Replies]

def deepIn (depth : Nat) : Comparison (Except Failure) := (Comparing.still h).deepIn depth

def deepEqual (a b : Value) : Except Failure Bool := (a.deepIn h h.depth b []).map (·.1)

end Value

end Exemplar
