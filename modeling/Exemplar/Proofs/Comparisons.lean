import Exemplar.Verb.Builtin

/-! Comparisons that are put together in the same way.

A comparison reads the store, fails and asks, and puts these together. So a relation of computations
that is kept by putting them together holds of two comparisons if it holds of their parts
(`Comparing.Related`). The comparison of a verb needs no other fact about the searches in it. -/
namespace Exemplar.Comparing

/-- Two ways to compare whose parts are related, by a relation that is kept by putting computations
together. -/
structure Related {m m' : Type → Type} [Monad m] [Monad m'] (R : {α : Type} → m α → m' α → Prop)
    (c : Comparing m) (c' : Comparing m') : Prop where
  pure {α : Type} (a : α) : R (pure a : m α) (pure a : m' α)
  bind {α β : Type} {x : m α} {x' : m' α} {k : α → m β} {k' : α → m' β} :
    R x x' → (∀ a, R (k a) (k' a)) → R (x >>= k) (x' >>= k')
  store : R c.store c'.store
  fail {α : Type} (f : Failure) : R (c.fail f : m α) (c'.fail f : m' α)
  ask (v : Value) (operation : Operation) (args : List Value) :
    R (c.ask v operation args) (c'.ask v operation args)

namespace Related

variable {m m' : Type → Type} [Monad m] [Monad m'] {R : {α : Type} → m α → m' α → Prop}
  {c : Comparing m} {c' : Comparing m'} (h : Related R c c')
include h

theorem truth (v : Value) : R (c.truth v) (c'.truth v) := by
  refine h.bind (h.ask v _ _) fun answer => h.bind h.store fun heap => ?_
  split
  · exact h.pure _
  · exact h.fail _
  · split
    · exact h.pure _
    · exact h.fail _

theorem holds (answer : Answer) : R (c.holds answer) (c'.holds answer) := by
  cases answer with
  | bool b => exact h.pure b
  | list items => exact h.pure _
  | value v => exact h.truth v

/-! ### Searches -/

section Searches

variable {same : Value → Value → m Bool} {same' : Value → Value → m' Bool}
  (hs : ∀ x y, R (same x y) (same' x y))
include hs

theorem allPairs : (as bs : List Value) → R (allPairs same as bs) (allPairs same' as bs)
  | [], _ | _ :: _, [] => h.pure true
  | a :: as, b :: bs => by
    refine h.bind (hs a b) fun agree => ?_
    cases agree with
    | true => exact allPairs as bs
    | false => exact h.pure false

theorem anyItem (v : Value) : (items : List Value) → R (anyItem same v items) (anyItem same' v items)
  | [] => h.pure false
  | a :: items => by
    refine h.bind (hs a v) fun agree => ?_
    cases agree with
    | true => exact h.pure true
    | false => exact anyItem v items

theorem findEntry (key : Value) : (entries : List (Value × Value)) →
    R (findEntry same key entries) (findEntry same' key entries)
  | [] => h.pure none
  | (k, v) :: rest => by
    refine h.bind (hs k key) fun agree => ?_
    cases agree with
    | true => exact h.pure (some v)
    | false => exact findEntry key rest

theorem allEntries (others : List (Value × Value)) : (entries : List (Value × Value)) →
    R (allEntries same others entries) (allEntries same' others entries)
  | [] => h.pure true
  | (k, v) :: rest => by
    refine h.bind (h.findEntry hs k others) fun found => ?_
    cases found with
    | none => exact h.pure false
    | some w =>
      refine h.bind (hs v w) fun agree => ?_
      cases agree with
      | true => exact allEntries others rest
      | false => exact h.pure false

theorem allItems (others : List Value) : (items : List Value) →
    R (allItems same others items) (allItems same' others items)
  | [] => h.pure true
  | a :: items => by
    refine h.bind (h.anyItem hs a others) fun found => ?_
    cases found with
    | true => exact allItems others items
    | false => exact h.pure false

theorem plainEqual (heap : Heap) (a b : Value) :
    R (plainEqual heap same a b) (plainEqual heap same' a b) := by
  unfold Exemplar.plainEqual
  split
  · split
    · exact h.pure false
    · exact h.allPairs hs _ _
  · refine h.bind (h.allPairs hs _ _) fun agree => ?_
    split <;> exact h.pure _
  · split
    · exact h.pure false
    · refine h.bind (h.allEntries hs _ _) fun agree => ?_
      split
      · split
        · exact h.allPairs hs _ _
        · exact h.pure true
      · exact h.pure false
  · split
    · exact h.pure false
    · exact h.allItems hs _ _
  · split
    · exact h.pure false
    · exact h.allEntries hs _ _
  · split
    · exact h.pure _
    · split <;> exact h.pure _

theorem customEqual (heap : Heap) (cls : ObjectClass) (self other : Value) :
    R (c.customEqual heap same cls self other) (c'.customEqual heap same' cls self other) := by
  unfold Comparing.customEqual
  split
  · exact h.pure _
  · exact h.pure _
  · exact h.fail _
  · split
    · split
      · exact h.pure _
      · refine h.bind (h.allEntries hs _ _) fun agree => ?_
        split <;> exact h.pure _
    · exact h.pure _
  · refine h.bind (h.ask _ _ _) fun answer => ?_
    split <;> exact h.pure _

theorem sameKeys (as bs : List (Value × Value)) : R (sameKeys same as bs) (sameKeys same' as bs) := by
  unfold Exemplar.sameKeys
  split
  · exact h.pure false
  · exact h.allItems hs _ _

variable {deep : Comparison m} {deep' : Comparison m'} (hd : ∀ x y seen, R (deep x y seen) (deep' x y seen))
include hd

omit hs in
theorem deepItems : (as bs : List Value) → (seen : Seen) →
    R (deepItems deep as bs seen) (deepItems deep' as bs seen)
  | [], _, seen | _ :: _, [], seen => h.pure (true, seen)
  | a :: as, b :: bs, seen => by
    refine h.bind (hd a b seen) fun (agree, seen) => ?_
    cases agree with
    | true => exact deepItems as bs seen
    | false => exact h.pure (false, seen)

theorem deepEntries (actual : List (Value × Value)) : (expected : List (Value × Value)) → (seen : Seen) →
    R (deepEntries same deep actual expected seen) (deepEntries same' deep' actual expected seen)
  | [], seen => h.pure (true, seen)
  | (k, b) :: rest, seen => by
    refine h.bind (h.findEntry hs k actual) fun found => ?_
    cases found with
    | none => exact h.pure (false, seen)
    | some a =>
      refine h.bind (hd a b seen) fun (agree, seen) => ?_
      cases agree with
      | true => exact deepEntries actual rest seen
      | false => exact h.pure (false, seen)

end Searches

/-! ### Equality -/

theorem equalIn (depth : Nat) (a b : Value) : R (c.equalIn depth a b) (c'.equalIn depth a b) := by
  induction depth generalizing a b with
  | zero => exact h.fail _
  | succ depth ih =>
    have hs : ∀ x y, R (if x = y then Pure.pure true else c.equalIn depth x y >>= c.holds)
        (if x = y then Pure.pure true else c'.equalIn depth x y >>= c'.holds) := by
      intro x y
      split
      · exact h.pure true
      · exact h.bind (ih x y) h.holds
    refine h.bind h.store fun heap => ?_
    split
    · exact h.customEqual hs _ _ _ _
    · exact h.bind (h.plainEqual hs _ _ _) fun r => h.pure _

theorem equal (a b : Value) : R (c.equal a b) (c'.equal a b) :=
  h.bind h.store fun heap => h.equalIn heap.depth a b

theorem isEqual (a b : Value) : R (c.isEqual a b) (c'.isEqual a b) := h.bind (h.equal a b) h.holds

theorem sameItem (a b : Value) : R (c.sameItem a b) (c'.sameItem a b) := by
  unfold Comparing.sameItem
  split
  · exact h.pure true
  · exact h.isEqual a b

theorem opposite (a b : Value) : R (c.opposite a b) (c'.opposite a b) := by
  refine h.bind (h.equal a b) fun answer => ?_
  split
  · exact h.pure _
  · exact h.bind (h.holds _) fun _ => h.pure _

theorem unequal (a b : Value) : R (c.unequal a b) (c'.unequal a b) := by
  refine h.bind h.store fun heap => ?_
  split
  · refine h.bind (h.ask _ _ _) fun answer => ?_
    split
    · exact h.pure _
    · exact h.opposite a b
  · exact h.opposite a b

theorem isUnequal (a b : Value) : R (c.isUnequal a b) (c'.isUnequal a b) := h.bind (h.unequal a b) h.holds

theorem deepIn (depth : Nat) (a b : Value) (seen : Seen) :
    R (c.deepIn depth a b seen) (c'.deepIn depth a b seen) := by
  induction depth generalizing a b seen with
  | zero => exact h.fail _
  | succ depth ih =>
    have hentries : ∀ (as bs : List (Value × Value)), R
        (Exemplar.sameKeys c.sameItem as bs >>= fun same => if same = true then
          Exemplar.deepEntries c.sameItem (c.deepIn depth) as bs ((a, b) :: seen)
          else Pure.pure (false, seen))
        (Exemplar.sameKeys c'.sameItem as bs >>= fun same => if same = true then
          Exemplar.deepEntries c'.sameItem (c'.deepIn depth) as bs ((a, b) :: seen)
          else Pure.pure (false, seen)) := by
      intro as bs
      refine h.bind (h.sameKeys h.sameItem as bs) fun same => ?_
      split
      · exact h.deepEntries h.sameItem ih as bs _
      · exact h.pure _
    have hequal := h.bind (h.isEqual a b) fun r => h.pure (r, seen)
    unfold Comparing.deepIn
    split
    · exact h.pure _
    · refine h.bind h.store fun heap => ?_
      dsimp only
      split
      · split
        · exact hentries _ _
        · exact h.pure _
      · split
        · split
          · exact h.deepItems ih _ _ _
          · exact h.pure _
        · exact h.pure _
      · split
        · split
          · exact h.deepItems ih _ _ _
          · exact h.pure _
        · exact h.pure _
      · split
        · exact hequal
        · exact h.pure _
      · split
        · split
          · exact hequal
          · split
            · exact hentries _ _
            · exact h.pure _
        · exact hequal

theorem deepEqual (a b : Value) : R (c.deepEqual a b) (c'.deepEqual a b) :=
  h.bind h.store fun heap => h.bind (h.deepIn heap.depth a b []) fun _ => h.pure _

/-- What a verb finds is related. -/
theorem outcome (v : BuiltinVerb) (actual expected : Value) :
    R (v.outcome c actual expected) (v.outcome c' actual expected) := by
  cases v with
  | equals => exact h.equal actual expected
  | isNotEqualTo =>
    refine h.bind h.store fun heap => ?_
    split
    · exact h.unequal actual expected
    · exact h.pure _
  | isSameAs | isNotSameAs => exact h.bind (h.deepEqual actual expected) fun _ => h.pure _
  | isTrue | isFalse => exact h.bind (h.truth actual) fun _ => h.pure _
  | _ => exact h.pure _

end Related

end Exemplar.Comparing
