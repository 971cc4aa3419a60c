import Exemplar.Proofs.Exploring
import Mathlib.Data.Finset.Card
import Mathlib.Data.Finset.Prod

/-! Structural equality decides bisimilarity.

It answers in every part of the store where leaves and keys can be compared (`Heap.Comparable`),
with any sharing and any cycles: a pair of objects is entered at most once, so the comparisons
nest no deeper than there are pairs that were not entered (`Heap.Comparable.deepIn_answers`). -/
namespace Exemplar

variable {h : Heap}

/-! ### What a value holds -/

namespace Value

variable (h : Heap)

/-- What a comparison goes on with: the values of entries, the items, the values of attributes. -/
def parts (x : Value) : List Value :=
  ((x.entries? h).getD []).map (·.2) ++ (x.items? h).getD [] ++ (x.attributeTable h).map (·.2)

def keys (x : Value) : List Value := ((x.entries? h).getD []).map (·.1)

variable {h} {x : Value}

theorem mem_parts_of_entries {entries : List (Value × Value)} (hx : x.entries? h = some entries)
    {e : Value × Value} (he : e ∈ entries) : e.2 ∈ x.parts h := by
  have hmem : e.2 ∈ ((x.entries? h).getD []).map (·.2) := by
    rw [hx]
    exact List.mem_map_of_mem he
  exact List.mem_append_left _ (List.mem_append_left _ hmem)

theorem mem_parts_of_items {items : List Value} (hx : x.items? h = some items) {v : Value} (hv : v ∈ items) :
    v ∈ x.parts h := by
  have hmem : v ∈ (x.items? h).getD [] := by simpa [hx] using hv
  exact List.mem_append_left _ (List.mem_append_right _ hmem)

theorem mem_parts_of_attributes {e : Value × Value} (he : e ∈ x.attributeTable h) : e.2 ∈ x.parts h :=
  List.mem_append_right _ (List.mem_map_of_mem he)

theorem mem_keys_of_entries {entries : List (Value × Value)} (hx : x.entries? h = some entries)
    {e : Value × Value} (he : e ∈ entries) : e.1 ∈ x.keys h := by
  rw [keys, hx]
  exact List.mem_map_of_mem he

theorem manner_entries {entries : List (Value × Value)} (hx : x.manner h = .entries entries) :
    x.entries? h = some entries := by
  unfold manner at hx
  split at hx
  · rename_i hcell
    cases hx
    rw [entries?, hcell]
  · cases hx
  · cases hx
  · cases hx
  · split at hx
    · split at hx <;> cases hx
    · cases hx

theorem manner_items {items : List Value} (hx : x.manner h = .items items) : x.items? h = some items := by
  unfold manner at hx
  split at hx
  · cases hx
  · rename_i hcell
    cases hx
    rw [items?, hcell]
  · rename_i hcell
    cases hx
    rw [items?, hcell]
  · cases hx
  · split at hx
    · split at hx <;> cases hx
    · cases hx

theorem manner_attributes {attributes : List (String × Value)} (hx : x.manner h = .attributes attributes) :
    x.attributeTable h = attributeEntries attributes := by
  unfold manner at hx
  split at hx
  · cases hx
  · cases hx
  · cases hx
  · cases hx
  · split at hx
    · rename_i hattributes
      split at hx
      · cases hx
      · cases hx
        rw [attributeTable, hattributes]
        rfl
    · cases hx

/-- Only objects of the store have parts. -/
theorem object_of_part {v : Value} (hv : v ∈ x.parts h) : ∃ i < h.size, x = .object i := by
  have hcell : h.cell? x ≠ none := by
    intro hnone
    cases x <;> simp [parts, entries?, items?, attributeTable, attributes?, attributeEntries, hnone] at hv
  cases x with
  | object i =>
    have hi : h.cells[i]? ≠ none := hcell
    exact ⟨i, Nat.lt_of_not_le fun hle => hi (Array.getElem?_eq_none hle), rfl⟩
  | _ => exact absurd rfl hcell

/-- Names of attributes can always be compared. -/
theorem sameItem_text (h : Heap) [h.Replies] (s t : String) :
    (Value.text s).sameItem h (.text t) = .ok (s = t) := by
  unfold sameItem
  split
  · rename_i heq
    cases heq
    simp
  · obtain ⟨n, hn⟩ : ∃ n, h.depth = n + 1 := ⟨(h.size + 2) * (h.size + 2) - 1, by unfold Heap.depth; grind⟩
    rw [equal, hn]
    rfl

end Value

/-! ### An answer -/

/-- A part of the store in which `==` answers for the leaves, for sets and for keys. Everything
else in it may refer to everything else. -/
structure Heap.Comparable (h : Heap) [h.Replies] (G : Value → Prop) : Prop where
  closed : ∀ x, G x → ∀ v ∈ x.parts h, G v
  leaves : ∀ x y, G x → G y → y.manner h = .equality → ∃ r, x.equal h y = .ok r
  sets : ∀ x y, G x → G y → y.manner h = .set → x.isSet h = true → ∃ r, x.equal h y = .ok r
  keys : ∀ x y, G x → G y → ∀ k ∈ x.keys h, ∀ k' ∈ y.keys h, ∃ r, k.sameItem h k' = .ok r

/-- The pairs of objects that were not entered. -/
def freshPairs (h : Heap) (seen : Seen) : Finset (Ref × Ref) :=
  (Finset.range h.size ×ˢ Finset.range h.size).filter fun p => (Value.object p.1, Value.object p.2) ∉ seen

theorem freshPairs_subset {seen seen' : Seen} (hsub : seen ⊆ seen') :
    freshPairs h seen' ⊆ freshPairs h seen := by
  intro p hp
  obtain ⟨hrange, hnew⟩ := Finset.mem_filter.mp hp
  exact Finset.mem_filter.mpr ⟨hrange, fun hmem => hnew (hsub hmem)⟩

theorem freshPairs_card_le (h : Heap) (seen : Seen) : (freshPairs h seen).card ≤ h.size * h.size := by
  calc (freshPairs h seen).card
      ≤ (Finset.range h.size ×ˢ Finset.range h.size).card := Finset.card_filter_le _ _
    _ = h.size * h.size := by rw [Finset.card_product, Finset.card_range]

theorem freshPairs_enter {i j : Ref} {seen : Seen} (hi : i < h.size) (hj : j < h.size)
    (hnew : (Value.object i, Value.object j) ∉ seen) :
    (freshPairs h ((.object i, .object j) :: seen)).card < (freshPairs h seen).card := by
  refine Finset.card_lt_card ⟨freshPairs_subset (List.subset_cons_self _ _), fun hsub => ?_⟩
  have hmem : (i, j) ∈ freshPairs h seen := by
    simp only [freshPairs, Finset.mem_filter, Finset.mem_product, Finset.mem_range]
    exact ⟨⟨hi, hj⟩, hnew⟩
  have hgone := (Finset.mem_filter.mp (hsub hmem)).2
  exact hgone List.mem_cons_self

/-- The comparison answers for the pairs of `G` while at least one more than `n` pairs are fresh. -/
def Answers (h : Heap) (G : Value → Prop) (n : Nat) (deep : Comparison (Except Failure)) : Prop :=
  ∀ a b seen, G a → G b → (freshPairs h seen).card < n →
    ∃ r seen', deep a b seen = .ok (r, seen') ∧ seen ⊆ seen'

section Answers

variable {G : Value → Prop} {n : Nat} {deep : Comparison (Except Failure)}

theorem deepItems_answers (hdeep : Answers h G n deep) {as bs : List Value} {seen : Seen}
    (has : ∀ a ∈ as, G a) (hbs : ∀ b ∈ bs, G b) (hn : as ≠ [] → bs ≠ [] → (freshPairs h seen).card < n) :
    ∃ r seen', deepItems deep as bs seen = .ok (r, seen') ∧ seen ⊆ seen' := by
  induction as generalizing bs seen with
  | nil => exact ⟨true, seen, rfl, List.Subset.refl seen⟩
  | cons a as ih =>
    cases bs with
    | nil => exact ⟨true, seen, rfl, List.Subset.refl seen⟩
    | cons b bs =>
      have hn := hn (List.cons_ne_nil a as) (List.cons_ne_nil b bs)
      obtain ⟨same, seen₁, hab, hsub⟩ :=
        hdeep a b seen (has a List.mem_cons_self) (hbs b List.mem_cons_self) hn
      cases same with
      | true =>
        have hn₁ := Nat.lt_of_le_of_lt (Finset.card_le_card (freshPairs_subset hsub)) hn
        obtain ⟨r, seen', hrest, hsub'⟩ := ih (fun v hv => has v (List.mem_cons_of_mem a hv))
          (fun v hv => hbs v (List.mem_cons_of_mem b hv)) fun _ _ => hn₁
        exact ⟨r, seen', bind_eq_ok_iff.mpr ⟨_, hab, hrest⟩, List.Subset.trans hsub hsub'⟩
      | false => exact ⟨false, seen₁, bind_eq_ok_iff.mpr ⟨_, hab, rfl⟩, hsub⟩

theorem deepEntries_answers [h.Replies] (hdeep : Answers h G n deep) {as bs : List (Value × Value)} {seen : Seen}
    (has : ∀ a ∈ as, G a.2) (hbs : ∀ b ∈ bs, G b.2)
    (hkeys : ∀ a ∈ as, ∀ b ∈ bs, ∃ r, a.1.sameItem h b.1 = .ok r)
    (hn : as ≠ [] → bs ≠ [] → (freshPairs h seen).card < n) :
    ∃ r seen', deepEntries (·.sameItem h) deep as bs seen = .ok (r, seen') ∧ seen ⊆ seen' := by
  induction bs generalizing seen with
  | nil => exact ⟨true, seen, rfl, List.Subset.refl seen⟩
  | cons b bs ih =>
    obtain ⟨found, hfound⟩ := findEntry_answers fun a ha => hkeys a ha b List.mem_cons_self
    cases found with
    | none => exact ⟨false, seen, bind_eq_ok_iff.mpr ⟨_, hfound, rfl⟩, List.Subset.refl seen⟩
    | some x =>
      obtain ⟨e, he, -, rfl⟩ := findEntry_mem hfound
      have hn := hn (List.ne_nil_of_mem he) (List.cons_ne_nil b bs)
      obtain ⟨same, seen₁, hab, hsub⟩ := hdeep e.2 b.2 seen (has e he) (hbs b List.mem_cons_self) hn
      cases same with
      | true =>
        have hn₁ := Nat.lt_of_le_of_lt (Finset.card_le_card (freshPairs_subset hsub)) hn
        obtain ⟨r, seen', hrest, hsub'⟩ := ih (fun v hv => hbs v (List.mem_cons_of_mem b hv))
          (fun a ha v hv => hkeys a ha v (List.mem_cons_of_mem b hv)) fun _ _ => hn₁
        exact ⟨r, seen', bind_eq_ok_iff.mpr ⟨_, hfound, bind_eq_ok_iff.mpr ⟨_, hab, hrest⟩⟩,
          List.Subset.trans hsub hsub'⟩
      | false =>
        exact ⟨false, seen₁, bind_eq_ok_iff.mpr ⟨_, hfound, bind_eq_ok_iff.mpr ⟨_, hab, rfl⟩⟩, hsub⟩

end Answers

namespace Heap.Comparable

variable [h.Replies] {G : Value → Prop} {a b : Value}

theorem equal_answers (hG : h.Comparable G) (ha : G a) (hb : G b) (hd : a.demand h b = .equality) :
    ∃ r, a.equal h b = .ok r := by
  rcases Value.demand_equality hd with hleaf | ⟨hset, hsets⟩
  · exact hG.leaves a b ha hb hleaf
  · exact hG.sets a b ha hb hset hsets

/-- What a comparison by entries goes on with: parts of the two values, under keys that can be
compared. -/
theorem entries (hG : h.Comparable G) (ha : G a) (hb : G b) {as bs : List (Value × Value)}
    (hd : a.demand h b = .entries as bs) :
    (∀ e ∈ as, e.2 ∈ a.parts h) ∧ (∀ e ∈ bs, e.2 ∈ b.parts h) ∧
      ∀ e ∈ as, ∀ e' ∈ bs, (∃ r, e.1.sameItem h e'.1 = .ok r) ∧ ∃ r, e'.1.sameItem h e.1 = .ok r := by
  rcases Value.demand_entries hd with ⟨hy, hx⟩ | ⟨expected, hy, rfl, rfl⟩
  · have hy := Value.manner_entries hy
    refine ⟨fun e he => Value.mem_parts_of_entries hx he, fun e he => Value.mem_parts_of_entries hy he, ?_⟩
    intro e he e' he'
    have hk := Value.mem_keys_of_entries hx he
    have hk' := Value.mem_keys_of_entries hy he'
    exact ⟨hG.keys a b ha hb _ hk _ hk', hG.keys b a hb ha _ hk' _ hk⟩
  · have hy := Value.manner_attributes hy
    refine ⟨fun e he => Value.mem_parts_of_attributes he, fun e he => ?_, ?_⟩
    · rw [← hy] at he
      exact Value.mem_parts_of_attributes he
    · intro e he e' he'
      obtain ⟨⟨s, v⟩, -, rfl⟩ := List.mem_map.mp he
      obtain ⟨⟨t, w⟩, -, rfl⟩ := List.mem_map.mp he'
      exact ⟨⟨_, Value.sameItem_text h s t⟩, ⟨_, Value.sameItem_text h t s⟩⟩

omit [h.Replies] in
/-- A pair whose parts are compared is a pair of objects, and entering it leaves fewer fresh pairs. -/
theorem freshPairs_parts {v w : Value} (hv : v ∈ a.parts h) (hw : w ∈ b.parts h) {seen : Seen} {n : Nat}
    (hnew : (a, b) ∉ seen) (hn : (freshPairs h seen).card < n + 1) :
    (freshPairs h ((a, b) :: seen)).card < n := by
  obtain ⟨i, hi, rfl⟩ := Value.object_of_part hv
  obtain ⟨j, hj, rfl⟩ := Value.object_of_part hw
  have hless := freshPairs_enter hi hj hnew
  omega

theorem deepIn_answers (hG : h.Comparable G) (depth : Nat) : Answers h G depth (Value.deepIn h depth) := by
  induction depth with
  | zero =>
    intro a b seen _ _ hn
    exact absurd hn (Nat.not_lt_zero _)
  | succ depth ih =>
    intro a b seen ha hb hn
    by_cases hknown : a = b ∨ (a, b) ∈ seen
    · exact ⟨true, seen, Value.deepIn_known hknown depth, List.Subset.refl seen⟩
    · have hnew : (a, b) ∉ seen := fun hmem => hknown (.inr hmem)
      have hsub : seen ⊆ (a, b) :: seen := List.subset_cons_self _ _
      rw [Value.deepIn_new hknown]
      cases hd : a.demand h b with
      | never => exact ⟨false, seen, rfl, List.Subset.refl seen⟩
      | equality =>
        obtain ⟨r, hr⟩ := hG.equal_answers ha hb hd
        exact ⟨r, seen, bind_eq_ok_iff.mpr ⟨r, hr, rfl⟩, List.Subset.refl seen⟩
      | items as bs =>
        obtain ⟨hy, hx, -⟩ := Value.demand_items hd
        have hy := Value.manner_items hy
        have has : ∀ v ∈ as, v ∈ a.parts h := fun v hv => Value.mem_parts_of_items hx hv
        have hbs : ∀ v ∈ bs, v ∈ b.parts h := fun v hv => Value.mem_parts_of_items hy hv
        obtain ⟨r, seen', hr, hsub'⟩ := deepItems_answers ih (fun v hv => hG.closed a ha v (has v hv))
          (fun v hv => hG.closed b hb v (hbs v hv)) fun hne hne' =>
            freshPairs_parts (has _ (List.head_mem hne)) (hbs _ (List.head_mem hne')) hnew hn
        exact ⟨r, seen', hr, List.Subset.trans hsub hsub'⟩
      | entries as bs =>
        obtain ⟨has, hbs, hkeys⟩ := hG.entries ha hb hd
        obtain ⟨c, hc⟩ := sameKeys_answers fun e he e' he' => (hkeys e he e' he').2
        cases c with
        | false => exact ⟨false, seen, bind_eq_ok_iff.mpr ⟨false, hc, rfl⟩, List.Subset.refl seen⟩
        | true =>
          obtain ⟨r, seen', hr, hsub'⟩ := deepEntries_answers ih (fun e he => hG.closed a ha _ (has e he))
            (fun e he => hG.closed b hb _ (hbs e he)) (fun e he e' he' => (hkeys e he e' he').1)
            fun hne hne' => freshPairs_parts (has _ (List.head_mem hne)) (hbs _ (List.head_mem hne')) hnew hn
          exact ⟨r, seen', bind_eq_ok_iff.mpr ⟨true, hc, hr⟩, List.Subset.trans hsub hsub'⟩

theorem deepEqual_answers (hG : h.Comparable G) (ha : G a) (hb : G b) : ∃ r, a.deepEqual h b = .ok r := by
  have hless : h.size < h.size + 2 := by omega
  have hdepth : h.size * h.size < h.depth := Nat.mul_lt_mul'' hless hless
  obtain ⟨r, seen, hr, -⟩ :=
    hG.deepIn_answers h.depth a b [] ha hb (Nat.lt_of_le_of_lt (freshPairs_card_le h []) hdepth)
  exact ⟨r, by rw [Value.deepEqual, hr]; rfl⟩

end Heap.Comparable

/-- Mappings and lists that hold each other: the first two mappings have the same entries in
different orders, the third has another number. -/
def Heap.looped : Heap where
  cells := #[
    .mapping false [(.text "held in", .object 3), (.text "n", .int 1)],
    .mapping false [(.text "n", .int 1), (.text "held in", .object 4)],
    .mapping false [(.text "n", .int 2), (.text "held in", .object 5)],
    .list false [.object 0], .list false [.object 1], .list false [.object 2]]

namespace Heap.looped

def values : List Value :=
  [.object 0, .object 1, .object 2, .object 3, .object 4, .object 5, .int 1, .int 2]

theorem leaf_of_manner {y : Value} (hy : y ∈ values) (hleaf : y.manner looped = .equality) :
    y = .int 1 ∨ y = .int 2 := by
  simp only [values, List.mem_cons, List.not_mem_nil, or_false] at hy
  rcases hy with rfl | rfl | rfl | rfl | rfl | rfl | rfl | rfl
  case inr.inr.inr.inr.inr.inr.inl => exact .inl rfl
  case inr.inr.inr.inr.inr.inr.inr => exact .inr rfl
  all_goals cases hleaf

theorem equal_leaf {x : Value} (hx : x ∈ values) (i : Int) : ∃ r, x.equal looped (.int i) = .ok r := by
  simp only [values, List.mem_cons, List.not_mem_nil, or_false] at hx
  rcases hx with rfl | rfl | rfl | rfl | rfl | rfl | rfl | rfl
  all_goals exact ⟨_, rfl⟩

theorem no_sets {x : Value} (hx : x ∈ values) : x.isSet looped = false := by
  revert x
  decide

theorem text_of_key {x k : Value} (hx : x ∈ values) (hk : k ∈ x.keys looped) : ∃ s, k = .text s := by
  have hkeys : ∀ x ∈ values, ∀ k ∈ x.keys looped, k = .text "held in" ∨ k = .text "n" := by decide
  rcases hkeys x hx k hk with rfl | rfl
  · exact ⟨_, rfl⟩
  · exact ⟨_, rfl⟩

theorem comparable : looped.Comparable (· ∈ values) where
  closed := by decide
  leaves := by
    intro x y hx hy hleaf
    rcases leaf_of_manner hy hleaf with rfl | rfl
    · exact equal_leaf hx 1
    · exact equal_leaf hx 2
  sets := by
    intro x y hx _ _ hset
    rw [no_sets hx] at hset
    cases hset
  keys := by
    intro x y hx hy k hk k' hk'
    obtain ⟨s, rfl⟩ := text_of_key hx hk
    obtain ⟨t, rfl⟩ := text_of_key hy hk'
    exact ⟨_, Value.sameItem_text looped s t⟩

end Heap.looped

/-- In a part of the store where `==` answers for leaves, sets and keys, structural equality
answers, and it answers whether the values are bisimilar. So does every other exploration of
their parts that ends, whatever the order in which it takes the pairs and whichever of the pairs
it met it forgets. -/
theorem deepEqual_iff_bisimilar [h.Replies] {G : Value → Prop} (hG : h.Comparable G) {a b : Value} (ha : G a)
    (hb : G b) : ∃ r, a.deepEqual h b = .ok r ∧ (r = true ↔ Bisimilar h a b) ∧ Explores h [(a, b)] [] r ∧
      ∀ r', Explores h [(a, b)] [] r' → r' = r := by
  obtain ⟨r, hr⟩ := hG.deepEqual_answers ha hb
  have hexplores := Value.deepEqual_explores hr
  refine ⟨r, hr, hexplores.answer, hexplores, fun r' hr' => ?_⟩
  exact Bool.eq_iff_iff.mpr (hr'.answer.trans hexplores.answer.symm)

/-- The mappings with the same entries are bisimilar, the third is another one. -/
theorem deepEqual_iff_bisimilar_looped :
    Heap.looped.Comparable (· ∈ Heap.looped.values) ∧
      (Value.object 0).deepEqual .looped (.object 1) = .ok true ∧ Bisimilar .looped (.object 0) (.object 1) ∧
      (Value.object 0).deepEqual .looped (.object 2) = .ok false ∧
      ¬ Bisimilar .looped (.object 0) (.object 2) := by
  have hsame : (Value.object 0).deepEqual .looped (.object 1) = .ok true := rfl
  have hother : (Value.object 0).deepEqual .looped (.object 2) = .ok false := rfl
  refine ⟨Heap.looped.comparable, hsame, ?_, hother, ?_⟩
  · obtain ⟨r, hr, hiff, -⟩ := deepEqual_iff_bisimilar Heap.looped.comparable
      (a := .object 0) (b := .object 1) (by decide) (by decide)
    rw [hsame] at hr
    cases hr
    exact hiff.mp rfl
  · obtain ⟨r, hr, hiff, -⟩ := deepEqual_iff_bisimilar Heap.looped.comparable
      (a := .object 0) (b := .object 2) (by decide) (by decide)
    rw [hother] at hr
    cases hr
    exact fun hab => Bool.noConfusion (hiff.mpr hab)

/-- Elements are compared field by field, not by identity. -/
example : (Value.object 0).deepEqual
    { cells := #[.element "Report" [("passed", .bool true), ("message", .null)],
      .element "Report" [("passed", .bool true), ("message", .null)]] } (.object 1) = .ok true := rfl

end Exemplar
