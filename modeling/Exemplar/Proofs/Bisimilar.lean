import Exemplar.Value.DeepEqual
import Mathlib.Data.List.Forall2
import Mathlib.Data.List.Perm.Basic

/-! Values that agree in all their parts.

Two values are `Bisimilar` if a relation holds of them that holds of two values only if they
agree (`Value.Agrees`): they are the same object, or the expected one says how they are compared,
and the relation holds of their parts. Values may share parts and contain themselves.

Bisimilarity is decided by following pairs to the pairs of their parts. `Explores` allows every
way to do so: the pairs that wait may be taken in any order, and a pair that was met before may be
remembered or forgotten. Every exploration that ends has the same answer (`Explores.answer`). -/
namespace Exemplar

/-- How a value is compared when it is the expected one. -/
inductive Manner
  | entries (expected : List (Value × Value))
  | items (expected : List Value)
  | set
  | attributes (expected : List (String × Value))
  | equality

namespace Value

variable (h : Heap)

/-- Mappings are compared by their entries, lists and tuples by their items, sets as sets, objects
that keep attributes and can not be called by these, and everything else by `==`. -/
def manner (y : Value) : Manner :=
  match h.cell? y with
  | some (.mapping _ expected) => .entries expected
  | some (.list _ expected) | some (.tuple _ expected) => .items expected
  | some (.set ..) => .set
  | _ =>
    match y.attributes? h with
    | some expected => if y.isCallable h then .equality else .attributes expected
    | none => .equality

def entries? (x : Value) : Option (List (Value × Value)) :=
  match h.cell? x with
  | some (.mapping _ entries) => some entries
  | _ => none

def isSet (x : Value) : Bool :=
  match h.cell? x with
  | some (.set ..) => true
  | _ => false

/-- The entries of the attributes that a value keeps. -/
def attributeTable (x : Value) : List (Value × Value) := attributeEntries ((x.attributes? h).getD [])

end Value

section Agreement

variable (h : Heap) [h.Replies] (R : Value → Value → Prop)

/-- As many keys, and each of the first is among the second. -/
def SameKeys (as bs : List (Value × Value)) : Prop :=
  as.length = bs.length ∧ ∀ a ∈ as, ∃ b ∈ bs, b.1.sameItem h a.1 = .ok true

/-- Equal sets of keys, and the values under each key are related. -/
def EntriesAgree (as bs : List (Value × Value)) : Prop :=
  SameKeys h as bs ∧
    ∀ b ∈ bs, ∃ x, findEntry (·.sameItem h) b.1 as = .ok (some x) ∧ R x b.2

/-- An actual and an expected value agree if their parts are related by `R`. The expected value
says which parts these are. -/
inductive Value.Agrees : Value → Value → Prop
  | identical (x : Value) : Agrees x x
  | mapping {x y as bs} : y.manner h = .entries bs → x.entries? h = some as → EntriesAgree h R as bs →
      Agrees x y
  | sequence {x y as bs} : y.manner h = .items bs → x.typeName h = y.typeName h →
      x.items? h = some as → List.Forall₂ R as bs → Agrees x y
  | set {x y} : y.manner h = .set → x.isSet h = true → x.equal h y = .ok true → Agrees x y
  | object {x y bs} : y.manner h = .attributes bs → x.typeName h = y.typeName h →
      EntriesAgree h R (x.attributeTable h) (attributeEntries bs) → Agrees x y
  | leaf {x y} : y.manner h = .equality → x.equal h y = .ok true → Agrees x y

/-- Some relation holds of the two values, and only of values that agree in all their parts. -/
def Bisimilar (a b : Value) : Prop :=
  ∃ R : Value → Value → Prop, R a b ∧ ∀ x y, R x y → Value.Agrees h R x y

end Agreement

variable {h : Heap} [h.Replies] {R S : Value → Value → Prop}

theorem EntriesAgree.mono (hRS : ∀ x y, R x y → S x y) {as bs : List (Value × Value)}
    (ha : EntriesAgree h R as bs) : EntriesAgree h S as bs := by
  obtain ⟨hkeys, hvalues⟩ := ha
  refine ⟨hkeys, fun b hb => ?_⟩
  obtain ⟨x, hx, hR⟩ := hvalues b hb
  exact ⟨x, hx, hRS x b.2 hR⟩

theorem Value.Agrees.mono (hRS : ∀ x y, R x y → S x y) {x y : Value} (ha : x.Agrees h R y) :
    x.Agrees h S y := by
  cases ha with
  | identical => exact .identical x
  | mapping hy hx hentries => exact .mapping hy hx (hentries.mono hRS)
  | sequence hy htype hx hitems => exact .sequence hy htype hx (hitems.imp hRS)
  | set hy hx hequal => exact .set hy hx hequal
  | object hy htype hentries => exact .object hy htype (hentries.mono hRS)
  | leaf hy hequal => exact .leaf hy hequal

/-- Parts of values that agree in one relation of this kind are bisimilar. -/
theorem Bisimilar.agrees {a b : Value} (hab : Bisimilar h a b) : a.Agrees h (Bisimilar h) b := by
  obtain ⟨R, hR, hstep⟩ := hab
  exact (hstep a b hR).mono fun x y hxy => ⟨R, hxy, hstep⟩

/-! ### What a pair amounts to -/

/-- What has to be found out about a pair that is not the same object twice. -/
inductive Demand
  /-- The values differ, whatever their parts are. -/
  | never
  | equality
  | items (actual expected : List Value)
  | entries (actual expected : List (Value × Value))

namespace Value

/-- What the comparison of `x` with the expected value `y` demands. -/
def demand (h : Heap) (x y : Value) : Demand :=
  match y.manner h with
  | .entries expected =>
    match x.entries? h with
    | some actual => .entries actual expected
    | none => .never
  | .items expected =>
    match x.items? h with
    | some actual =>
      if x.typeName h = y.typeName h ∧ actual.length = expected.length then .items actual expected
      else .never
    | none => .never
  | .set => if x.isSet h then .equality else .never
  | .attributes expected =>
    if x.typeName h = y.typeName h then .entries (x.attributeTable h) (attributeEntries expected)
    else .never
  | .equality => .equality

/-- Everything that a comparison can demand, and when. -/
theorem demand_cases (h : Heap) (x y : Value) :
    x.demand h y = .never ∨
    x.demand h y = .equality ∧ (y.manner h = .equality ∨ y.manner h = .set ∧ x.isSet h = true) ∨
    (∃ as bs, x.demand h y = .items as bs ∧ y.manner h = .items bs ∧ x.items? h = some as ∧
      x.typeName h = y.typeName h ∧ as.length = bs.length) ∨
    (∃ as bs, x.demand h y = .entries as bs ∧ y.manner h = .entries bs ∧ x.entries? h = some as) ∨
    ∃ expected, x.demand h y = .entries (x.attributeTable h) (attributeEntries expected) ∧
      y.manner h = .attributes expected ∧ x.typeName h = y.typeName h := by
  cases hy : y.manner h with
  | entries bs =>
    cases hx : x.entries? h with
    | none => exact .inl (by simp only [demand, hy, hx])
    | some as => exact .inr (.inr (.inr (.inl ⟨as, bs, by simp only [demand, hy, hx], rfl, rfl⟩)))
  | items bs =>
    cases hx : x.items? h with
    | none => exact .inl (by simp only [demand, hy, hx])
    | some as =>
      by_cases hlike : x.typeName h = y.typeName h ∧ as.length = bs.length
      · have hd : x.demand h y = .items as bs := by simp only [demand, hy, hx, if_pos hlike]
        exact .inr (.inr (.inl ⟨as, bs, hd, rfl, rfl, hlike⟩))
      · exact .inl (by simp only [demand, hy, hx, if_neg hlike])
  | set =>
    by_cases hx : x.isSet h = true
    · exact .inr (.inl ⟨by simp only [demand, hy, if_pos hx], .inr ⟨rfl, hx⟩⟩)
    · exact .inl (by simp only [demand, hy, if_neg hx])
  | attributes expected =>
    by_cases htype : x.typeName h = y.typeName h
    · exact .inr (.inr (.inr (.inr ⟨expected, by simp only [demand, hy, if_pos htype], rfl, htype⟩)))
    · exact .inl (by simp only [demand, hy, if_neg htype])
  | equality => exact .inr (.inl ⟨by simp only [demand, hy], .inl rfl⟩)

/-- The demand is met if the parts are related by `R`. -/
def Meets (h : Heap) [h.Replies] (R : Value → Value → Prop) (x y : Value) : Demand → Prop
  | .never => False
  | .equality => x.equal h y = .ok true
  | .items actual expected => List.Forall₂ R actual expected
  | .entries actual expected => EntriesAgree h R actual expected

/-- Two values agree if they are the same object or the demand is met. -/
theorem agrees_iff {x y : Value} : x.Agrees h R y ↔ x = y ∨ x.Meets h R y (x.demand h y) := by
  constructor
  · intro ha
    cases ha with
    | identical => exact .inl rfl
    | mapping hy hx hentries =>
      right
      rw [demand, hy]
      simp only [hx]
      exact hentries
    | sequence hy htype hx hitems =>
      right
      rw [demand, hy]
      simp only [hx, htype, hitems.length_eq, and_self, if_true]
      exact hitems
    | set hy hx hequal =>
      right
      rw [demand, hy]
      simp only [hx, if_true]
      exact hequal
    | object hy htype hentries =>
      right
      rw [demand, hy]
      simp only [htype, if_true]
      exact hentries
    | leaf hy hequal =>
      right
      rw [demand, hy]
      exact hequal
  · rintro (rfl | hmeets)
    · exact .identical x
    · rcases demand_cases h x y with hd | ⟨hd, hy | ⟨hy, hx⟩⟩ | ⟨as, bs, hd, hy, hx, htype, -⟩ |
        ⟨as, bs, hd, hy, hx⟩ | ⟨expected, hd, hy, htype⟩
      all_goals rw [hd] at hmeets
      · exact hmeets.elim
      · exact .leaf hy hmeets
      · exact .set hy hx hmeets
      · exact .sequence hy htype hx hmeets
      · exact .mapping hy hx hmeets
      · exact .object hy htype hmeets

/-- The demand is met exactly if `R` holds of these pairs. -/
def Splits (h : Heap) [h.Replies] (x y : Value) (parts : List (Value × Value)) : Prop :=
  ∀ R : Value → Value → Prop, x.Meets h R y (x.demand h y) ↔ ∀ p ∈ parts, R p.1 p.2

end Value

/-! ### Explorations -/

/-- An exploration of the pairs that wait, with pairs that are remembered, and its answer. Each
pair that waits may be taken next. -/
inductive Explores (h : Heap) [h.Replies] : List (Value × Value) → Seen → Bool → Prop
  | done {seen} : Explores h [] seen true
  | known {todo x y rest seen r} : todo.Perm ((x, y) :: rest) → x = y ∨ (x, y) ∈ seen →
      Explores h rest seen r → Explores h todo seen r
  | enter {todo x y rest parts seen r} : todo.Perm ((x, y) :: rest) → x ≠ y →
      x.Splits h y parts → Explores h (parts ++ rest) ((x, y) :: seen) r → Explores h todo seen r
  | differ {todo x y rest seen} : todo.Perm ((x, y) :: rest) → ¬ x.Agrees h (fun _ _ => True) y →
      Explores h todo seen false
  | forget {todo seen seen' r} : seen' ⊆ seen → Explores h todo seen' r → Explores h todo seen r

namespace Explores

/-- The same object, a pair that is remembered, or a pair of `R`. -/
def Upto (R : Value → Value → Prop) (seen : Seen) (x y : Value) : Prop := x = y ∨ (x, y) ∈ seen ∨ R x y

/-- If the answer is yes, the pairs met on the way agree up to those that were remembered. -/
theorem bisimulation {todo : List (Value × Value)} {seen : Seen} {r : Bool} (he : Explores h todo seen r)
    (hr : r = true) :
    ∃ R : Value → Value → Prop, (∀ p ∈ todo, Upto R seen p.1 p.2) ∧
      ∀ x y, R x y → x.Agrees h (Upto R seen) y := by
  induction he with
  | done => exact ⟨fun _ _ => False, fun p hp => absurd hp List.not_mem_nil, fun _ _ hR => hR.elim⟩
  | @known todo x y rest seen r hperm hknown _ ih =>
    obtain ⟨R, hrest, hR⟩ := ih hr
    refine ⟨R, fun p hp => ?_, hR⟩
    rcases List.mem_cons.mp (hperm.mem_iff.mp hp) with rfl | hp
    · exact hknown.imp_right .inl
    · exact hrest p hp
  | @enter todo x y rest parts seen r hperm hne hsplits _ ih =>
    obtain ⟨R, hrest, hR⟩ := ih hr
    -- the pair that was entered joins the relation, and need not be remembered any more
    let R' : Value → Value → Prop := fun u v => R u v ∨ (u, v) = (x, y)
    have hup : ∀ u v, Upto R ((x, y) :: seen) u v → Upto R' seen u v := by
      rintro u v (huv | huv | huv)
      · exact .inl huv
      · rcases List.mem_cons.mp huv with huv | huv
        · exact .inr (.inr (.inr huv))
        · exact .inr (.inl huv)
      · exact .inr (.inr (.inl huv))
    refine ⟨R', fun p hp => ?_, ?_⟩
    · rcases List.mem_cons.mp (hperm.mem_iff.mp hp) with rfl | hp
      · exact .inr (.inr (.inr rfl))
      · exact hup _ _ (hrest p (List.mem_append_right parts hp))
    · rintro u v (huv | huv)
      · exact (hR u v huv).mono hup
      · obtain ⟨rfl, rfl⟩ := Prod.mk.inj huv
        have hmeets := (hsplits (Upto R' seen)).mpr fun p hp =>
          hup _ _ (hrest p (List.mem_append_left rest hp))
        exact Value.agrees_iff.mpr (.inr hmeets)
  | differ => cases hr
  | @forget todo seen seen' r hsub _ ih =>
    obtain ⟨R, htodo, hR⟩ := ih hr
    have hup : ∀ u v, Upto R seen' u v → Upto R seen u v := fun u v huv =>
      huv.imp_right (Or.imp_left fun hmem => hsub hmem)
    exact ⟨R, fun p hp => hup _ _ (htodo p hp), fun x y hxy => (hR x y hxy).mono hup⟩

/-- If the answer is no, a pair that waited is not bisimilar. -/
theorem distinguishes {todo : List (Value × Value)} {seen : Seen} {r : Bool} (he : Explores h todo seen r)
    (hr : r = false) : ∃ p ∈ todo, ¬ Bisimilar h p.1 p.2 := by
  induction he with
  | done => cases hr
  | known hperm _ _ ih =>
    obtain ⟨p, hp, hdiffer⟩ := ih hr
    exact ⟨p, hperm.mem_iff.mpr (List.mem_cons_of_mem _ hp), hdiffer⟩
  | @enter todo x y rest parts seen r hperm hne hsplits _ ih =>
    obtain ⟨p, hp, hdiffer⟩ := ih hr
    rcases List.mem_append.mp hp with hp | hp
    · refine ⟨(x, y), hperm.mem_iff.mpr List.mem_cons_self, fun hxy => hdiffer ?_⟩
      have hmeets := (Value.agrees_iff.mp hxy.agrees).resolve_left hne
      exact (hsplits (Bisimilar h)).mp hmeets p hp
    · exact ⟨p, hperm.mem_iff.mpr (List.mem_cons_of_mem _ hp), hdiffer⟩
  | @differ todo x y rest seen hperm hnever =>
    refine ⟨(x, y), hperm.mem_iff.mpr List.mem_cons_self, fun hxy => hnever ?_⟩
    exact hxy.agrees.mono fun _ _ _ => trivial
  | forget _ _ ih => exact ih hr

/-- Every exploration that starts with one pair and ends answers whether it is bisimilar. -/
theorem answer {a b : Value} {r : Bool} (he : Explores h [(a, b)] [] r) : r = true ↔ Bisimilar h a b := by
  constructor
  · intro hr
    obtain ⟨R, htodo, hR⟩ := he.bisimulation hr
    refine ⟨Upto R [], htodo (a, b) List.mem_cons_self, ?_⟩
    rintro x y (rfl | hxy | hxy)
    · exact .identical x
    · exact absurd hxy List.not_mem_nil
    · exact hR x y hxy
  · intro hab
    by_contra hr
    obtain ⟨p, hp, hdiffer⟩ := he.distinguishes (Bool.eq_false_iff.mpr hr)
    rw [List.mem_singleton.mp hp] at hdiffer
    exact hdiffer hab

end Explores

end Exemplar
