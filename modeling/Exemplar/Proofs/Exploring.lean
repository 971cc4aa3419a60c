import Exemplar.Proofs.Bisimilar
import Exemplar.Proofs.Lookups

/-! The structural comparison is an exploration.

A comparison takes a new pair apart into what its demand asks for (`Value.deepIn_new`) and goes
on with the parts from the left, depth first. Whatever is left to do after it, its steps are the
first steps of an exploration of all the pairs (`Value.deepIn_follows`). So whenever structural
equality answers, it answers whether the values are bisimilar. -/
namespace Exemplar

variable {h : Heap} [h.Replies]

/-! ### Keys -/

theorem sameKeys_iff {as bs : List (Value × Value)} {r : Bool} (hr : sameKeys (·.sameItem h) as bs = .ok r) :
    r = true ↔ SameKeys h as bs := by
  unfold sameKeys at hr
  split at hr
  · rename_i hlength
    cases hr
    simp [SameKeys, hlength]
  · rename_i hlength
    rw [allItems_iff hr, SameKeys]
    simp [not_not.mp hlength]

theorem sameKeys_answers {as bs : List (Value × Value)}
    (ha : ∀ a ∈ as, ∀ b ∈ bs, ∃ r, b.1.sameItem h a.1 = .ok r) : ∃ r, sameKeys (·.sameItem h) as bs = .ok r := by
  unfold sameKeys
  split
  · exact ⟨false, rfl⟩
  · refine allItems_answers fun k hk k' hk' => ?_
    obtain ⟨a, hmem, rfl⟩ := List.mem_map.mp hk
    obtain ⟨b, hmem', rfl⟩ := List.mem_map.mp hk'
    exact ha a hmem b hmem'

/-! ### One step of the comparison -/

namespace Value

/-- What the comparison of a new pair does about its demand. -/
def fulfil (h : Heap) [h.Replies] (deep : Comparison (Except Failure)) (a b : Value) (seen : Seen) :
    Demand → Except Failure (Bool × Seen)
  | .never => .ok (false, seen)
  | .equality => do return (← a.equal h b, seen)
  | .items as bs => deepItems deep as bs ((a, b) :: seen)
  | .entries as bs => do
    if ← sameKeys (·.sameItem h) as bs then deepEntries (·.sameItem h) deep as bs ((a, b) :: seen)
    else return (false, seen)

theorem deepIn_known {a b : Value} {seen : Seen} (hknown : a = b ∨ (a, b) ∈ seen) (depth : Nat) :
    a.deepIn h (depth + 1) b seen = .ok (true, seen) := by
  have hif : (a = b || seen.contains (a, b)) = true := by simpa using hknown
  rw [deepIn, Comparing.deepIn, if_pos hif]
  rfl

theorem fulfil_items {a b : Value} {bs : List Value} (hy : b.manner h = .items bs)
    (deep : Comparison (Except Failure)) (seen : Seen) :
    fulfil h deep a b seen (a.demand h b) =
      match a.items? h with
      | some as =>
        if a.typeName h = b.typeName h && as.length = bs.length then deepItems deep as bs ((a, b) :: seen)
        else .ok (false, seen)
      | none => .ok (false, seen) := by
  simp only [demand, hy]
  cases a.items? h with
  | none => rfl
  | some as =>
    by_cases hlike : a.typeName h = b.typeName h ∧ as.length = bs.length
    · simp only [hlike.1, hlike.2, decide_true, Bool.and_self, if_true]
      rfl
    · have hif : ¬ (decide (a.typeName h = b.typeName h) && decide (as.length = bs.length)) = true := by
        simpa using hlike
      simp only [if_neg hlike, if_neg hif]
      rfl

omit [h.Replies] in
/-- What is no container is compared by its attributes or by `==`. -/
theorem manner_other {b : Value} (hmapping : ∀ ordered bs, h.cell? b ≠ some (.mapping ordered bs))
    (hlist : ∀ own bs, h.cell? b ≠ some (.list own bs)) (htuple : ∀ own bs, h.cell? b ≠ some (.tuple own bs))
    (hset : ∀ frozen items, h.cell? b ≠ some (.set frozen items)) :
    b.manner h = match b.attributes? h with
      | some expected => if b.isCallable h then .equality else .attributes expected
      | none => .equality := by
  unfold manner
  split
  · rename_i hb
    exact (hmapping _ _ hb).elim
  · rename_i hb
    exact (hlist _ _ hb).elim
  · rename_i hb
    exact (htuple _ _ hb).elim
  · rename_i hb
    exact (hset _ _ hb).elim
  · rfl

theorem deepIn_new {a b : Value} {seen : Seen} (hnew : ¬ (a = b ∨ (a, b) ∈ seen)) (depth : Nat) :
    a.deepIn h (depth + 1) b seen = fulfil h (deepIn h depth) a b seen (a.demand h b) := by
  have hif : ¬ (a = b || seen.contains (a, b)) = true := by simpa using hnew
  rw [deepIn, Comparing.deepIn, if_neg hif, Comparing.still_bind]
  dsimp only
  split
  · rename_i bs hb
    have hy : b.manner h = .entries bs := by rw [manner, hb]
    split
    · rename_i as ha
      have hx : a.entries? h = some as := by rw [entries?, ha]
      simp only [demand, hy, hx]
      rfl
    · rename_i ha
      have hx : a.entries? h = none := by
        unfold entries?
        split <;> simp_all
      simp only [demand, hy, hx]
      rfl
  · rename_i bs hb
    have hy : b.manner h = .items bs := by rw [manner, hb]
    exact (fulfil_items hy _ seen).symm
  · rename_i bs hb
    have hy : b.manner h = .items bs := by rw [manner, hb]
    exact (fulfil_items hy _ seen).symm
  · rename_i hb
    have hy : b.manner h = .set := by rw [manner, hb]
    split
    · rename_i ha
      have hx : a.isSet h = true := by rw [isSet, ha]
      simp only [demand, hy, hx, if_true]
      rfl
    · rename_i ha
      have hx : ¬ a.isSet h = true := by
        unfold isSet
        split <;> simp_all
      simp only [demand, hy, if_neg hx]
      rfl
  · rename_i hmapping hlist htuple hset
    have hy := manner_other hmapping hlist htuple hset
    split
    · rename_i bs hbs
      by_cases hcall : b.isCallable h = true
      · simp only [demand, hy, hbs, if_pos hcall]
        rfl
      · by_cases htype : a.typeName h = b.typeName h
        · simp only [demand, hy, hbs, if_neg hcall, htype, if_true]
          rfl
        · simp only [demand, hy, hbs, if_neg hcall, htype, if_false]
          rfl
    · rename_i hbs
      simp only [demand, hy, hbs]
      rfl

end Value

/-! ### Explorations -/

/-- What is left to do after a comparison: the other pairs, or nothing if it found a difference. -/
def Continues (h : Heap) [h.Replies] (rest : List (Value × Value)) (answer : Bool) : Bool × Seen → Prop
  | (true, seen) => Explores h rest seen answer
  | (false, _) => answer = false

/-- Every comparison that answers is the first part of an exploration. -/
def Follows (h : Heap) [h.Replies] (deep : Comparison (Except Failure)) : Prop :=
  ∀ a b seen o rest answer, deep a b seen = .ok o → Continues h rest answer o →
    Explores h ((a, b) :: rest) seen answer

theorem deepItems_follows {deep : Comparison (Except Failure)} (hdeep : Follows h deep)
    {rest : List (Value × Value)} {answer : Bool} {as bs : List Value} {seen : Seen} {o : Bool × Seen}
    (ho : deepItems deep as bs seen = .ok o) (hrest : Continues h rest answer o) :
    Explores h (as.zip bs ++ rest) seen answer := by
  induction as generalizing bs seen with
  | nil =>
    cases ho
    exact hrest
  | cons a as ih =>
    cases bs with
    | nil =>
      cases ho
      exact hrest
    | cons b bs =>
      obtain ⟨⟨same, seen'⟩, hab, ho⟩ := bind_eq_ok_iff.mp ho
      refine hdeep a b seen _ _ answer hab ?_
      cases same with
      | true => exact ih ho
      | false =>
        cases ho
        exact hrest

section Entries

variable {as bs : List (Value × Value)}

/-- The value under the key of an expected entry. -/
def Found (h : Heap) [h.Replies] (as : List (Value × Value)) (b : Value × Value) (x : Value) : Prop :=
  findEntry (·.sameItem h) b.1 as = .ok (some x)

theorem Found.all_or_missing (h : Heap) [h.Replies] (as bs : List (Value × Value)) :
    (∃ xs, List.Forall₂ (Found h as) bs xs) ∨ ∃ b ∈ bs, ∀ x, ¬ Found h as b x := by
  induction bs with
  | nil => exact .inl ⟨[], .nil⟩
  | cons b bs ih =>
    by_cases hb : ∃ x, Found h as b x
    · obtain ⟨x, hx⟩ := hb
      rcases ih with ⟨xs, hxs⟩ | ⟨b', hb', hmissing⟩
      · exact .inl ⟨x :: xs, .cons hx hxs⟩
      · exact .inr ⟨b', List.mem_cons_of_mem b hb', hmissing⟩
    · exact .inr ⟨b, List.mem_cons_self, fun x hx => hb ⟨x, hx⟩⟩

/-- With every key found, entries are compared as the items that they hold. -/
theorem deepEntries_found {xs : List Value} (hfound : List.Forall₂ (Found h as) bs xs)
    (deep : Comparison (Except Failure)) (seen : Seen) : deepEntries (·.sameItem h) deep as bs seen = deepItems deep xs (bs.map (·.2)) seen := by
  induction hfound generalizing seen with
  | nil => rfl
  | @cons b x bs xs hx _ ih =>
    obtain ⟨k, v⟩ := b
    rw [deepEntries, show findEntry (·.sameItem h) k as = .ok (some x) from hx]
    simp only [List.map_cons, deepItems, ← ih]
    rfl

theorem deepEntries_missing {b : Value × Value} (hb : b ∈ bs) (hmissing : ∀ x, ¬ Found h as b x)
    {deep : Comparison (Except Failure)} {seen : Seen} {o : Bool × Seen}
    (ho : deepEntries (·.sameItem h) deep as bs seen = .ok o) : o.1 = false := by
  induction bs generalizing seen with
  | nil => exact absurd hb List.not_mem_nil
  | cons b' bs ih =>
    obtain ⟨found, hfound, ho⟩ := bind_eq_ok_iff.mp ho
    cases found with
    | none =>
      cases ho
      rfl
    | some x =>
      obtain ⟨⟨same, seen'⟩, -, ho⟩ := bind_eq_ok_iff.mp ho
      cases same with
      | true =>
        rcases List.mem_cons.mp hb with rfl | hb
        · exact absurd hfound (hmissing x)
        · exact ih hb ho
      | false =>
        cases ho
        rfl

theorem entriesAgree_iff {R : Value → Value → Prop} {xs : List Value}
    (hfound : List.Forall₂ (Found h as) bs xs) (hkeys : SameKeys h as bs) :
    EntriesAgree h R as bs ↔ ∀ p ∈ xs.zip (bs.map (·.2)), R p.1 p.2 := by
  have hvalues : (∀ b ∈ bs, ∃ x, findEntry (·.sameItem h) b.1 as = .ok (some x) ∧ R x b.2) ↔
      ∀ p ∈ xs.zip (bs.map (·.2)), R p.1 p.2 := by
    clear hkeys
    induction hfound with
    | nil => simp
    | @cons b x bs xs hx _ ih =>
      have hb : (∃ y, findEntry (·.sameItem h) b.1 as = .ok (some y) ∧ R y b.2) ↔ R x b.2 := by
        simp [show findEntry (·.sameItem h) b.1 as = .ok (some x) from hx]
      simp only [List.forall_mem_cons, List.map_cons, List.zip_cons_cons, hb, ih]
  exact (and_iff_right hkeys).trans hvalues

end Entries

namespace Value

variable {a b : Value}

omit [h.Replies] in
theorem demand_equality (hd : a.demand h b = .equality) :
    b.manner h = .equality ∨ b.manner h = .set ∧ a.isSet h = true := by
  rcases demand_cases h a b with hd' | ⟨-, hmanner⟩ | ⟨_, _, hd', -⟩ | ⟨_, _, hd', -⟩ | ⟨_, hd', -⟩
  case inr.inl => exact hmanner
  all_goals
    rw [hd] at hd'
    cases hd'

omit [h.Replies] in
theorem demand_items {as bs : List Value} (hd : a.demand h b = .items as bs) :
    b.manner h = .items bs ∧ a.items? h = some as ∧ as.length = bs.length := by
  rcases demand_cases h a b with hd' | ⟨hd', -⟩ | ⟨_, _, hd', hb, ha, -, hlength⟩ | ⟨_, _, hd', -⟩ |
    ⟨_, hd', -⟩
  all_goals
    rw [hd] at hd'
    cases hd'
  exact ⟨hb, ha, hlength⟩

omit [h.Replies] in
theorem demand_entries {as bs : List (Value × Value)} (hd : a.demand h b = .entries as bs) :
    b.manner h = .entries bs ∧ a.entries? h = some as ∨
      ∃ expected, b.manner h = .attributes expected ∧ a.attributeTable h = as ∧
        attributeEntries expected = bs := by
  rcases demand_cases h a b with hd' | ⟨hd', -⟩ | ⟨_, _, hd', -⟩ | ⟨_, _, hd', hb, ha⟩ |
    ⟨expected, hd', hb, -⟩
  all_goals
    rw [hd] at hd'
    cases hd'
  · exact .inl ⟨hb, ha⟩
  · exact .inr ⟨expected, hb, rfl, rfl⟩

theorem splits_nil (hd : a.demand h b = .equality) (hequal : a.equal h b = .ok true) : a.Splits h b [] := by
  intro R
  rw [hd]
  simp [Meets, hequal]

theorem splits_items {as bs : List Value} (hd : a.demand h b = .items as bs) :
    a.Splits h b (as.zip bs) := by
  intro R
  rw [hd]
  simp [Meets, List.forall₂_iff_zip, (demand_items hd).2.2]

theorem splits_entries {as bs : List (Value × Value)} {xs : List Value} (hd : a.demand h b = .entries as bs)
    (hfound : List.Forall₂ (Found h as) bs xs) (hkeys : SameKeys h as bs) :
    a.Splits h b (xs.zip (bs.map (·.2))) := by
  intro R
  rw [hd]
  exact entriesAgree_iff hfound hkeys

theorem not_agrees {R : Value → Value → Prop} (hne : a ≠ b) (hunmet : ¬ a.Meets h R b (a.demand h b)) :
    ¬ a.Agrees h R b := by
  rw [agrees_iff]
  exact not_or.mpr ⟨hne, hunmet⟩

theorem deepIn_follows (h : Heap) [h.Replies] (depth : Nat) : Follows h (deepIn h depth) := by
  induction depth with
  | zero =>
    intro a b seen o rest answer ho
    cases ho
  | succ depth ih =>
    intro a b seen o rest answer ho hrest
    by_cases hknown : a = b ∨ (a, b) ∈ seen
    · rw [deepIn_known hknown] at ho
      cases ho
      exact .known (.refl _) hknown hrest
    · have hne : a ≠ b := fun hab => hknown (.inl hab)
      rw [deepIn_new hknown] at ho
      cases hd : a.demand h b with
      | never =>
        rw [hd] at ho
        cases ho
        cases hrest
        refine .differ (.refl _) (not_agrees hne ?_)
        simp [hd, Meets]
      | equality =>
        rw [hd] at ho
        obtain ⟨c, hequal, ho⟩ := bind_eq_ok_iff.mp ho
        cases ho
        cases c with
        | true =>
          -- leaves are not remembered
          exact .enter (.refl _) hne (splits_nil hd hequal) (.forget (List.subset_cons_self _ _) hrest)
        | false =>
          cases hrest
          refine .differ (.refl _) (not_agrees hne ?_)
          simp [hd, Meets, hequal]
      | items as bs =>
        rw [hd] at ho
        exact .enter (.refl _) hne (splits_items hd) (deepItems_follows ih ho hrest)
      | entries as bs =>
        rw [hd] at ho
        obtain ⟨c, hkeys, ho⟩ := bind_eq_ok_iff.mp ho
        have hkeys := sameKeys_iff hkeys
        cases c with
        | false =>
          cases ho
          cases hrest
          refine .differ (.refl _) (not_agrees hne ?_)
          simp only [hd, Meets]
          exact fun hentries => Bool.noConfusion (hkeys.mpr hentries.1)
        | true =>
          rcases Found.all_or_missing h as bs with ⟨xs, hfound⟩ | ⟨e, he, hmissing⟩
          · have hsplits := splits_entries hd hfound (hkeys.mp rfl)
            rw [if_pos rfl, deepEntries_found hfound] at ho
            exact .enter (.refl _) hne hsplits (deepItems_follows ih ho hrest)
          · obtain ⟨same, seen'⟩ := o
            obtain rfl : same = false := deepEntries_missing he hmissing ho
            cases hrest
            refine .differ (.refl _) (not_agrees hne ?_)
            simp only [hd, Meets]
            intro hentries
            obtain ⟨x, hx, -⟩ := hentries.2 e he
            exact hmissing x hx

/-- Every comparison that answers is an exploration, and its answer is the only one. -/
theorem deepEqual_explores {r : Bool} (hr : a.deepEqual h b = .ok r) : Explores h [(a, b)] [] r := by
  unfold deepEqual at hr
  cases ho : a.deepIn h h.depth b [] with
  | error e =>
    rw [ho] at hr
    cases hr
  | ok o =>
    rw [ho] at hr
    cases hr
    obtain ⟨same, seen⟩ := o
    refine deepIn_follows h h.depth a b [] (same, seen) [] same ho ?_
    cases same with
    | true => exact .done
    | false => rfl

end Value

end Exemplar
