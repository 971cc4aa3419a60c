import Exemplar.Proofs.Traversal
import Exemplar.Value.Equality
import Mathlib.Data.List.Forall2

/-! Comparisons over lists.

Containers are compared by looking through lists of items and entries with a comparison `same` of
two values. Where `same` answers for the values at hand, so does each of these searches
(`_answers`), its answer says which values `same` holds of (`_iff`), and it depends on nothing
else (`_congr`). -/
namespace Exemplar

variable {same same' : Value → Value → Except Failure Bool} {r : Bool}

/-! ### Items -/

theorem allPairs_iff {as bs : List Value} (hr : allPairs same as bs = .ok r) :
    r = true ↔ ∀ p ∈ as.zip bs, same p.1 p.2 = .ok true := by
  induction as generalizing bs with
  | nil =>
    cases hr
    simp
  | cons a as ih =>
    cases bs with
    | nil =>
      cases hr
      simp
    | cons b bs =>
      obtain ⟨c, hc, hr⟩ := bind_eq_ok_iff.mp hr
      cases c with
      | true => simpa [hc] using ih hr
      | false =>
        cases hr
        simp [hc]

theorem anyItem_iff {v : Value} {items : List Value} (hr : anyItem same v items = .ok r) :
    r = true ↔ ∃ a ∈ items, same a v = .ok true := by
  induction items with
  | nil =>
    cases hr
    simp
  | cons a as ih =>
    obtain ⟨c, hc, hr⟩ := bind_eq_ok_iff.mp hr
    cases c with
    | true =>
      cases hr
      simp [hc]
    | false => simp [hc, ih hr]

theorem allItems_iff {others items : List Value} (hr : allItems same others items = .ok r) :
    r = true ↔ ∀ a ∈ items, ∃ b ∈ others, same b a = .ok true := by
  induction items with
  | nil =>
    cases hr
    simp
  | cons a as ih =>
    obtain ⟨c, hc, hr⟩ := bind_eq_ok_iff.mp hr
    have ha := anyItem_iff hc
    cases c with
    | true => simpa [ha.mp rfl] using ih hr
    | false =>
      cases hr
      have hnone : ¬ ∃ b ∈ others, same b a = .ok true := fun hsome => Bool.noConfusion (ha.mpr hsome)
      simp [hnone]

theorem allPairs_answers {as bs : List Value} (hs : ∀ a ∈ as, ∀ b ∈ bs, ∃ r, same a b = .ok r) :
    ∃ r, allPairs same as bs = .ok r := by
  induction as generalizing bs with
  | nil => exact ⟨true, rfl⟩
  | cons a as ih =>
    cases bs with
    | nil => exact ⟨true, rfl⟩
    | cons b bs =>
      obtain ⟨c, hc⟩ := hs a List.mem_cons_self b List.mem_cons_self
      obtain ⟨r, hr⟩ := ih fun x hx y hy => hs x (List.mem_cons_of_mem a hx) y (List.mem_cons_of_mem b hy)
      cases c with
      | true => exact ⟨r, bind_eq_ok_iff.mpr ⟨true, hc, hr⟩⟩
      | false => exact ⟨false, bind_eq_ok_iff.mpr ⟨false, hc, rfl⟩⟩

theorem anyItem_answers {v : Value} {items : List Value} (ha : ∀ a ∈ items, ∃ r, same a v = .ok r) :
    ∃ r, anyItem same v items = .ok r := by
  induction items with
  | nil => exact ⟨false, rfl⟩
  | cons a as ih =>
    obtain ⟨c, hc⟩ := ha a List.mem_cons_self
    obtain ⟨r, hr⟩ := ih fun b hb => ha b (List.mem_cons_of_mem a hb)
    cases c with
    | true => exact ⟨true, bind_eq_ok_iff.mpr ⟨true, hc, rfl⟩⟩
    | false => exact ⟨r, bind_eq_ok_iff.mpr ⟨false, hc, hr⟩⟩

theorem allItems_answers {others items : List Value}
    (ha : ∀ a ∈ items, ∀ b ∈ others, ∃ r, same b a = .ok r) : ∃ r, allItems same others items = .ok r := by
  induction items with
  | nil => exact ⟨true, rfl⟩
  | cons a as ih =>
    obtain ⟨c, hc⟩ := anyItem_answers (ha a List.mem_cons_self)
    obtain ⟨r, hr⟩ := ih fun b hb => ha b (List.mem_cons_of_mem a hb)
    cases c with
    | true => exact ⟨r, bind_eq_ok_iff.mpr ⟨true, hc, hr⟩⟩
    | false => exact ⟨false, bind_eq_ok_iff.mpr ⟨false, hc, rfl⟩⟩

theorem allPairs_congr {as bs : List Value} (hs : ∀ a ∈ as, ∀ b ∈ bs, same a b = same' a b) :
    allPairs same as bs = allPairs same' as bs := by
  induction as generalizing bs with
  | nil => rfl
  | cons a as ih =>
    cases bs with
    | nil => rfl
    | cons b bs =>
      rw [allPairs, allPairs, hs a List.mem_cons_self b List.mem_cons_self,
        ih fun x hx y hy => hs x (List.mem_cons_of_mem a hx) y (List.mem_cons_of_mem b hy)]

theorem anyItem_congr {v : Value} {items : List Value} (hs : ∀ a ∈ items, same a v = same' a v) :
    anyItem same v items = anyItem same' v items := by
  induction items with
  | nil => rfl
  | cons a as ih =>
    rw [anyItem, anyItem, hs a List.mem_cons_self, ih fun x hx => hs x (List.mem_cons_of_mem a hx)]

theorem allItems_congr {others items : List Value} (hs : ∀ a ∈ items, ∀ b ∈ others, same b a = same' b a) :
    allItems same others items = allItems same' others items := by
  induction items with
  | nil => rfl
  | cons a as ih =>
    rw [allItems, allItems, anyItem_congr (hs a List.mem_cons_self),
      ih fun x hx => hs x (List.mem_cons_of_mem a hx)]

/-! ### Entries -/

theorem findEntry_answers {key : Value} {entries : List (Value × Value)}
    (ha : ∀ e ∈ entries, ∃ r, same e.1 key = .ok r) : ∃ found, findEntry same key entries = .ok found := by
  induction entries with
  | nil => exact ⟨none, rfl⟩
  | cons e rest ih =>
    obtain ⟨c, hc⟩ := ha e List.mem_cons_self
    obtain ⟨found, hfound⟩ := ih fun e' he' => ha e' (List.mem_cons_of_mem e he')
    cases c with
    | true => exact ⟨some e.2, bind_eq_ok_iff.mpr ⟨true, hc, rfl⟩⟩
    | false => exact ⟨found, bind_eq_ok_iff.mpr ⟨false, hc, hfound⟩⟩

/-- What is found stands under a key that is the same. -/
theorem findEntry_mem {key x : Value} {entries : List (Value × Value)}
    (hx : findEntry same key entries = .ok (some x)) :
    ∃ e ∈ entries, same e.1 key = .ok true ∧ e.2 = x := by
  induction entries with
  | nil => cases hx
  | cons e rest ih =>
    obtain ⟨c, hc, hx⟩ := bind_eq_ok_iff.mp hx
    cases c with
    | true =>
      cases hx
      exact ⟨e, List.mem_cons_self, hc, rfl⟩
    | false =>
      obtain ⟨e', he', hx⟩ := ih hx
      exact ⟨e', List.mem_cons_of_mem e he', hx⟩

/-- If `same` tells the keys apart, an entry under the key is found. -/
theorem findEntry_eq {key : Value} {entries : List (Value × Value)} {e : Value × Value} (he : e ∈ entries)
    (hkey : same e.1 key = .ok true)
    (hothers : ∀ e' ∈ entries, e' ≠ e → same e'.1 key = .ok false) :
    findEntry same key entries = .ok (some e.2) := by
  induction entries with
  | nil => exact absurd he List.not_mem_nil
  | cons e' rest ih =>
    by_cases hee : e' = e
    · subst hee
      exact bind_eq_ok_iff.mpr ⟨true, hkey, rfl⟩
    · have he := List.mem_of_ne_of_mem (fun h => hee h.symm) he
      have hrest := ih he fun x hx => hothers x (List.mem_cons_of_mem e' hx)
      exact bind_eq_ok_iff.mpr ⟨false, hothers e' List.mem_cons_self hee, hrest⟩

theorem findEntry_congr {key : Value} {entries : List (Value × Value)}
    (hs : ∀ e ∈ entries, same e.1 key = same' e.1 key) :
    findEntry same key entries = findEntry same' key entries := by
  induction entries with
  | nil => rfl
  | cons e rest ih =>
    rw [findEntry, findEntry, hs e List.mem_cons_self, ih fun x hx => hs x (List.mem_cons_of_mem e hx)]

theorem allEntries_iff {others entries : List (Value × Value)} (hr : allEntries same others entries = .ok r) :
    r = true ↔ ∀ e ∈ entries, ∃ w, findEntry same e.1 others = .ok (some w) ∧ same e.2 w = .ok true := by
  induction entries with
  | nil =>
    cases hr
    simp
  | cons e rest ih =>
    obtain ⟨found, hfound, hr⟩ := bind_eq_ok_iff.mp hr
    cases found with
    | none =>
      cases hr
      simp [hfound]
    | some w =>
      obtain ⟨c, hc, hr⟩ := bind_eq_ok_iff.mp hr
      cases c with
      | true => simpa [hfound, hc] using ih hr
      | false =>
        cases hr
        simp [hfound, hc]

theorem allEntries_answers {others entries : List (Value × Value)}
    (hs : ∀ e ∈ entries, ∀ o ∈ others, (∃ r, same o.1 e.1 = .ok r) ∧ ∃ r, same e.2 o.2 = .ok r) :
    ∃ r, allEntries same others entries = .ok r := by
  induction entries with
  | nil => exact ⟨true, rfl⟩
  | cons e rest ih =>
    obtain ⟨r, hr⟩ := ih fun x hx => hs x (List.mem_cons_of_mem e hx)
    obtain ⟨found, hfound⟩ := findEntry_answers fun o ho => (hs e List.mem_cons_self o ho).1
    cases found with
    | none => exact ⟨false, bind_eq_ok_iff.mpr ⟨none, hfound, rfl⟩⟩
    | some w =>
      obtain ⟨o, ho, -, rfl⟩ := findEntry_mem hfound
      obtain ⟨c, hc⟩ := (hs e List.mem_cons_self o ho).2
      cases c with
      | true => exact ⟨r, bind_eq_ok_iff.mpr ⟨_, hfound, bind_eq_ok_iff.mpr ⟨true, hc, hr⟩⟩⟩
      | false => exact ⟨false, bind_eq_ok_iff.mpr ⟨_, hfound, bind_eq_ok_iff.mpr ⟨false, hc, rfl⟩⟩⟩

theorem allEntries_congr {others entries : List (Value × Value)}
    (hs : ∀ e ∈ entries, ∀ o ∈ others, same o.1 e.1 = same' o.1 e.1 ∧ same e.2 o.2 = same' e.2 o.2) :
    allEntries same others entries = allEntries same' others entries := by
  induction entries with
  | nil => rfl
  | cons e rest ih =>
    obtain ⟨k, v⟩ := e
    have hkey := findEntry_congr fun o ho => (hs (k, v) List.mem_cons_self o ho).1
    rw [allEntries, allEntries, hkey, ih fun x hx => hs x (List.mem_cons_of_mem _ hx)]
    cases hfound : findEntry same' k others with
    | error f => rfl
    | ok found =>
      cases found with
      | none => rfl
      | some w =>
        obtain ⟨o, ho, -, rfl⟩ := findEntry_mem hfound
        show (same v o.2 >>= _) = same' v o.2 >>= _
        rw [(hs (k, v) List.mem_cons_self o ho).2]

end Exemplar
