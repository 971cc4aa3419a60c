import Exemplar.Proofs.Nesting
import Mathlib.Data.List.Pairwise
import Mathlib.Tactic.Ring

/-! Equality of acyclic values is an equivalence.

A NaN equals nothing, so the equivalence is `Value.Same`: to be one object, or equal. It is
established from the contents of values to the values (`Heap.EqualityOn.lift`): if it is an
equivalence for the contents, two mappings are equal if each entry of the one has an entry of the
other under the same key (`Matched`), and it does not matter from which of the two one looks. -/
namespace Exemplar

/-! ### Numbers -/

namespace Exact

theorem same_symm {x y : Exact} (hxy : x.same y = true) : y.same x = true := by
  cases x <;> cases y <;> simp_all [same]

theorem same_trans {x y z : Exact} (hy : y.IsProper) (hxy : x.same y = true) (hyz : y.same z = true) :
    x.same z = true := by
  cases x <;> cases y <;> try cases hxy
  case infinite.infinite => cases z <;> simp_all [same]
  case ratio.ratio a b c d =>
    cases z <;> try cases hyz
    case ratio e f =>
      simp only [same, decide_eq_true_eq] at hxy hyz ⊢
      have hd : (d : Int) ≠ 0 := Int.natCast_ne_zero.mpr hy
      refine Int.eq_of_mul_eq_mul_right hd ?_
      calc a * f * d = a * d * f := by ring
        _ = c * b * f := by rw [hxy]
        _ = c * f * b := by ring
        _ = e * d * b := by rw [hyz]
        _ = e * b * d := by ring

end Exact

theorem Binary64.exact_isProper (x : Binary64) : x.exact.IsProper := by
  cases x with
  | nan => trivial
  | infinite s => trivial
  | finite s m e =>
    rw [Binary64.exact]
    split
    · exact Nat.one_ne_zero
    · exact (Nat.pow_pos Nat.two_pos).ne'

/-! ### Lists in which no two members agree -/

section Matching

variable {α β γ : Type} {R : α → β → Prop} {as : List α} {bs : List β}

theorem forall₂_imp_mem {S : α → β → Prop} (hRS : ∀ a ∈ as, ∀ b ∈ bs, R a b → S a b)
    (hR : List.Forall₂ R as bs) : List.Forall₂ S as bs := by
  obtain ⟨hlength, hpairs⟩ := List.forall₂_iff_zip.mp hR
  refine List.forall₂_iff_zip.mpr ⟨hlength, fun hab => ?_⟩
  obtain ⟨ha, hb⟩ := List.of_mem_zip hab
  exact hRS _ ha _ hb (hpairs hab)

theorem forall₂_comp {S : β → γ → Prop} {cs : List γ} (hR : List.Forall₂ R as bs) (hS : List.Forall₂ S bs cs) :
    List.Forall₂ (Relation.Comp R S) as cs := by
  induction hR generalizing cs with
  | nil =>
    cases hS
    exact .nil
  | cons hab _ ih =>
    cases hS with
    | cons hbc hS => exact .cons ⟨_, hab, hbc⟩ (ih hS)

/-- If every member of the first list has a partner in the second, which is as long, and no two of
them share one, then every member of the second has a partner in the first. -/
theorem exists_partner (hlength : as.length = bs.length)
    (hdistinct : as.Pairwise fun a a' => ∀ b ∈ bs, R a b → ¬ R a' b) (hpartner : ∀ a ∈ as, ∃ b ∈ bs, R a b) :
    ∀ b ∈ bs, ∃ a ∈ as, R a b := by
  induction as generalizing bs with
  | nil =>
    rw [List.length_eq_zero_iff.mp hlength.symm]
    exact fun b hb => absurd hb List.not_mem_nil
  | cons a as ih =>
    obtain ⟨b, hb, hab⟩ := hpartner a List.mem_cons_self
    obtain ⟨before, after, rfl⟩ := List.append_of_mem hb
    obtain ⟨ha, hdistinct⟩ := List.pairwise_cons.mp hdistinct
    have hsub : ∀ c ∈ before ++ after, c ∈ before ++ b :: after := by
      intro c hc
      rcases List.mem_append.mp hc with hc | hc
      · exact List.mem_append_left _ hc
      · exact List.mem_append_right _ (List.mem_cons_of_mem b hc)
    -- the partners of the others are not that of `a`, so it can be left out
    have hrest : ∀ c ∈ before ++ after, ∃ x ∈ as, R x c := by
      refine ih ?_ (hdistinct.imp fun hxy c hc => hxy c (hsub c hc)) fun x hx => ?_
      · simp only [List.length_cons, List.length_append] at hlength ⊢
        omega
      · obtain ⟨c, hc, hxc⟩ := hpartner x (List.mem_cons_of_mem a hx)
        have hne : c ≠ b := by
          rintro rfl
          exact ha x hx c hb hab hxc
        refine ⟨c, ?_, hxc⟩
        simpa [hne] using hc
    intro c hc
    by_cases hcb : c = b
    · exact ⟨a, List.mem_cons_self, hcb ▸ hab⟩
    · obtain ⟨x, hx, hxc⟩ := hrest c (by simpa [hcb] using hc)
      exact ⟨x, List.mem_cons_of_mem a hx, hxc⟩

end Matching

/-! ### Equality as an equivalence -/

namespace Value

variable {h : Heap} {x y : Value}

theorem Same.refl (h : Heap) (x : Value) : x.Same h x := by simp [Same, sameItem]

theorem same_iff : x.Same h y ↔ x = y ∨ x.equal h y = .ok true := by
  unfold Same sameItem
  split
  · rename_i heq
    exact iff_of_true rfl (.inl heq)
  · rename_i hne
    simp [hne]

end Value

/-- `==` answers for the values of `P`, and on these it is an equivalence to be identical or
equal. -/
structure Heap.EqualityOn (h : Heap) (P : Value → Prop) : Prop where
  answers : ∀ x y, P x → P y → ∃ r, x.sameItem h y = .ok r
  symm : ∀ x y, P x → P y → x.Same h y → y.Same h x
  trans : ∀ x y z, P x → P y → P z → x.Same h y → y.Same h z → x.Same h z

section Matching

variable {α : Type} (h : Heap) (key : α → Value)

/-- As many members, and each of the second list has one of the first that is related to it and has
the same key. -/
def Matched (R : α → α → Prop) (as bs : List α) : Prop :=
  as.length = bs.length ∧ ∀ b ∈ bs, ∃ a ∈ as, (key a).Same h (key b) ∧ R a b

/-- No two members have the same key, and all keys are in `P`. -/
structure Keyed (P : Value → Prop) (members : List α) : Prop where
  distinct : members.Pairwise fun a b => ¬ (key a).Same h (key b)
  keys : ∀ a ∈ members, P (key a)

end Matching

namespace Heap.EqualityOn

variable {h : Heap} {P Q : Value → Prop}

theorem mono (hE : h.EqualityOn P) (hQP : ∀ x, Q x → P x) : h.EqualityOn Q where
  answers x y hx hy := hE.answers x y (hQP x hx) (hQP y hy)
  symm x y hx hy := hE.symm x y (hQP x hx) (hQP y hy)
  trans x y z hx hy hz := hE.trans x y z (hQP x hx) (hQP y hy) (hQP z hz)

section Pairs

variable {as bs cs : List Value}

theorem pairs_symm (hE : h.EqualityOn P) (has : ∀ a ∈ as, P a) (hbs : ∀ b ∈ bs, P b)
    (hab : List.Forall₂ (Value.Same h) as bs) : List.Forall₂ (Value.Same h) bs as :=
  (forall₂_imp_mem (fun a ha b hb => hE.symm a b (has a ha) (hbs b hb)) hab).flip

theorem pairs_trans (hE : h.EqualityOn P) (has : ∀ a ∈ as, P a) (hbs : ∀ b ∈ bs, P b) (hcs : ∀ c ∈ cs, P c)
    (hab : List.Forall₂ (Value.Same h) as bs) (hbc : List.Forall₂ (Value.Same h) bs cs) :
    List.Forall₂ (Value.Same h) as cs := by
  have hab : List.Forall₂ (fun a b => P b ∧ a.Same h b) as bs :=
    forall₂_imp_mem (fun a _ b hb hab => ⟨hbs b hb, hab⟩) hab
  refine forall₂_imp_mem (fun a ha c hc hcomp => ?_) (forall₂_comp hab hbc)
  obtain ⟨b, ⟨hb, hab⟩, hbc⟩ := hcomp
  exact hE.trans a b c (has a ha) hb (hcs c hc) hab hbc

end Pairs

section Matching

variable {α : Type} {key : α → Value} {R S : α → α → Prop} {as bs cs members : List α}

theorem key_ne (hE : h.EqualityOn P) (hm : Keyed h key P members) {a b : α} (ha : a ∈ members)
    (hb : b ∈ members) (hne : a ≠ b) : ¬ (key a).Same h (key b) := by
  have hboth : members.Pairwise fun a b => ¬ ((key a).Same h (key b) ∨ (key b).Same h (key a)) :=
    hm.distinct.imp_of_mem fun hx hy hxy hor =>
      hxy (hor.elim id (hE.symm _ _ (hm.keys _ hy) (hm.keys _ hx)))
  have : Std.Symm fun a b : α => ¬ ((key a).Same h (key b) ∨ (key b).Same h (key a)) :=
    ⟨fun _ _ hneither hor => hneither hor.symm⟩
  exact fun hsame => hboth.forall ha hb hne (.inl hsame)

/-- It does not matter from which list one looks. -/
theorem matched_flip (hE : h.EqualityOn P) (has : Keyed h key P as) (hbs : Keyed h key P bs)
    (hm : Matched h key R as bs) : Matched h key (flip R) bs as := by
  obtain ⟨hlength, hpartner⟩ := hm
  refine ⟨hlength.symm, fun a ha => ?_⟩
  have hdistinct : bs.Pairwise fun b b' => ∀ a ∈ as,
      (key a).Same h (key b) ∧ R a b → ¬ ((key a).Same h (key b') ∧ R a b') := by
    refine hbs.distinct.imp_of_mem fun {b b'} hb hb' hbb' a ha hab hab' => hbb' ?_
    exact hE.trans _ (key a) _ (hbs.keys b hb) (has.keys a ha) (hbs.keys b' hb')
      (hE.symm _ _ (has.keys a ha) (hbs.keys b hb) hab.1) hab'.1
  obtain ⟨b, hb, hkey, hR⟩ := exists_partner hlength.symm hdistinct hpartner a ha
  exact ⟨b, hb, hE.symm _ _ (has.keys a ha) (hbs.keys b hb) hkey, hR⟩

theorem matched_comp (hE : h.EqualityOn P) (has : Keyed h key P as) (hbs : Keyed h key P bs)
    (hcs : Keyed h key P cs) (hab : Matched h key R as bs) (hbc : Matched h key S bs cs) :
    Matched h key (fun a c => ∃ b ∈ bs, R a b ∧ S b c) as cs := by
  refine ⟨hab.1.trans hbc.1, fun c hc => ?_⟩
  obtain ⟨b, hb, hkey', hS⟩ := hbc.2 c hc
  obtain ⟨a, ha, hkey, hR⟩ := hab.2 b hb
  exact ⟨a, ha, hE.trans _ _ _ (has.keys a ha) (hbs.keys b hb) (hcs.keys c hc) hkey hkey', b, hb, hR, hS⟩

end Matching

variable {as bs : List (Value × Value)}

/-- A key finds what stands under a key that is the same. -/
theorem findEntry_iff (hE : h.EqualityOn P) (has : Keyed h Prod.fst P as) {k w : Value} (hk : P k) :
    findEntry (·.sameItem h) k as = .ok (some w) ↔ ∃ e ∈ as, e.1.Same h k ∧ e.2 = w := by
  constructor
  · exact findEntry_mem
  · rintro ⟨e, he, hsame, rfl⟩
    refine findEntry_eq he hsame fun e' he' hne => ?_
    obtain ⟨r, hr⟩ := hE.answers e'.1 k (has.keys e' he') hk
    cases r with
    | false => exact hr
    | true =>
      have hjoined := hE.trans _ k _ (has.keys e' he') hk (has.keys e he) hr
        (hE.symm _ _ (has.keys e he) hk hsame)
      exact (hE.key_ne has he' he hne hjoined).elim

/-! ### The searches of a comparison -/

theorem pairs_answer (hE : h.EqualityOn P) {as bs : List Value} (has : ∀ a ∈ as, P a) (hbs : ∀ b ∈ bs, P b) :
    ∃ r, allPairs (Value.sameItem h) as bs = .ok r ∧
      (as.length = bs.length → (r = true ↔ List.Forall₂ (Value.Same h) as bs)) := by
  obtain ⟨r, hr⟩ := allPairs_answers fun a ha b hb => hE.answers a b (has a ha) (hbs b hb)
  refine ⟨r, hr, fun hlength => ?_⟩
  rw [allPairs_iff hr, List.forall₂_iff_zip]
  exact ⟨fun hpairs => ⟨hlength, fun hab => hpairs _ hab⟩, fun hpairs p hp => hpairs.2 hp⟩

theorem items_answer (hE : h.EqualityOn P) {as bs : List Value} (has : Keyed h id P as) (hbs : Keyed h id P bs) :
    ∃ r, allItems (Value.sameItem h) bs as = .ok r ∧
      (as.length = bs.length → (r = true ↔ Matched h id (fun _ _ => True) as bs)) := by
  obtain ⟨r, hr⟩ := allItems_answers fun a ha b hb => hE.answers b a (hbs.keys b hb) (has.keys a ha)
  refine ⟨r, hr, fun hlength => ?_⟩
  have hiff : r = true ↔ Matched h id (fun _ _ => True) bs as := by
    rw [allItems_iff hr]
    simp [Matched, Value.Same, hlength]
  exact hiff.trans ⟨hE.matched_flip hbs has, hE.matched_flip has hbs⟩

theorem entries_answer (hE : h.EqualityOn P) (has : Keyed h Prod.fst P as) (hbs : Keyed h Prod.fst P bs)
    (has' : ∀ a ∈ as, P a.2) (hbs' : ∀ b ∈ bs, P b.2) :
    ∃ r, allEntries (Value.sameItem h) bs as = .ok r ∧
      (as.length = bs.length → (r = true ↔ Matched h Prod.fst (fun a b => a.2.Same h b.2) as bs)) := by
  obtain ⟨r, hr⟩ := allEntries_answers fun a ha b hb =>
    ⟨hE.answers b.1 a.1 (hbs.keys b hb) (has.keys a ha), hE.answers a.2 b.2 (has' a ha) (hbs' b hb)⟩
  refine ⟨r, hr, fun hlength => ?_⟩
  have hiff : r = true ↔ Matched h Prod.fst (fun b a => a.2.Same h b.2) bs as := by
    rw [allEntries_iff hr, Matched, and_iff_right hlength.symm]
    refine forall₂_congr fun a ha => ?_
    constructor
    · rintro ⟨w, hw, hsame⟩
      obtain ⟨b, hb, hkey, rfl⟩ := (hE.findEntry_iff hbs (has.keys a ha)).mp hw
      exact ⟨b, hb, hkey, hsame⟩
    · rintro ⟨b, hb, hkey, hsame⟩
      exact ⟨b.2, (hE.findEntry_iff hbs (has.keys a ha)).mpr ⟨b, hb, hkey, rfl⟩, hsame⟩
  exact hiff.trans ⟨hE.matched_flip hbs has, hE.matched_flip has hbs⟩

end Heap.EqualityOn

/-! ### From the contents to the values -/

/-- Two faces are equal: the same number or text, or containers of one kind with the same contents. -/
def Face.Equal (h : Heap) : Face → Face → Prop
  | .number re im, .number re' im' => re.same re' = true ∧ im.same im' = true
  | .text s, .text t => s = t
  | .list as, .list bs | .tuple as, .tuple bs => List.Forall₂ (Value.Same h) as bs
  | .mapping _ as, .mapping _ bs => Matched h Prod.fst (fun a b => a.2.Same h b.2) as bs
  | .set as, .set bs => Matched h id (fun _ _ => True) as bs
  | _, _ => False

namespace Face.Equal

variable {h : Heap} {f : Face}

theorem of_list {bs : List Value} (hf : f.Equal h (.list bs)) :
    ∃ as, f = .list as ∧ List.Forall₂ (Value.Same h) as bs := by
  cases f with
  | list as => exact ⟨as, rfl, hf⟩
  | _ => exact False.elim hf

theorem of_tuple {bs : List Value} (hf : f.Equal h (.tuple bs)) :
    ∃ as, f = .tuple as ∧ List.Forall₂ (Value.Same h) as bs := by
  cases f with
  | tuple as => exact ⟨as, rfl, hf⟩
  | _ => exact False.elim hf

theorem of_mapping {ordered : Bool} {bs : List (Value × Value)} (hf : f.Equal h (.mapping ordered bs)) :
    ∃ ordered' as, f = .mapping ordered' as ∧ Matched h Prod.fst (fun a b => a.2.Same h b.2) as bs := by
  cases f with
  | mapping ordered' as => exact ⟨ordered', as, rfl, hf⟩
  | _ => exact False.elim hf

theorem of_set {bs : List Value} (hf : f.Equal h (.set bs)) : ∃ as, f = .set as := by
  cases f with
  | set as => exact ⟨as, rfl⟩
  | _ => exact False.elim hf

theorem isAtom {g : Face} (hfg : f.Equal h g) (hg : g.isAtom = true) : f.isAtom = true := by
  cases f <;> cases g <;> first | rfl | exact False.elim hfg | cases hg

end Face.Equal

/-- The face is tidy, and what it shows is in `P`. -/
structure Face.Of (h : Heap) (P : Value → Prop) (f : Face) : Prop where
  tidy : f.Tidy h
  contents : ∀ x ∈ f.contents, P x

namespace Face

variable {h : Heap} {P : Value → Prop} {f g k : Face}

theorem Of.entries {ordered : Bool} {entries : List (Value × Value)} (hf : (mapping ordered entries).Of h P) :
    ordered = false ∧ Keyed h Prod.fst P entries ∧ ∀ e ∈ entries, P e.2 :=
  ⟨hf.tidy.1, ⟨hf.tidy.2, fun _ he => hf.contents _ (key_mem_contents he)⟩,
    fun _ he => hf.contents _ (value_mem_contents he)⟩

theorem Of.items {items : List Value} (hf : (set items).Of h P) : Keyed h id P items :=
  ⟨hf.tidy, hf.contents⟩

/-- The comparison of faces answers, and it says yes to equal faces, or to what is identical. -/
theorem equal_answers (hE : h.EqualityOn P) (hf : f.Of h P) (hg : g.Of h P) (identical : Bool) :
    ∃ r, f.equal (Value.sameItem h) identical g = .ok r ∧ (f.Equal h g → r = true) ∧
      (r = true → f.Equal h g ∨ identical = true) := by
  cases f <;> cases g
  case number.number => exact ⟨_, rfl, Bool.and_eq_true_iff.mpr, fun hr => .inl (Bool.and_eq_true_iff.mp hr)⟩
  case text.text s t =>
    exact ⟨decide (s = t), rfl, fun hfg => decide_eq_true hfg, fun hr => .inl (of_decide_eq_true hr : s = t)⟩
  case list.list as bs =>
    obtain ⟨r, hr, hiff⟩ := hE.pairs_answer hf.contents hg.contents
    by_cases hlength : as.length = bs.length
    · have hiff := hiff hlength
      exact ⟨r, (if_neg (not_not.mpr hlength)).trans hr, hiff.mpr, fun hr => .inl (hiff.mp hr)⟩
    · exact ⟨false, if_pos hlength, fun hfg => (hlength hfg.length_eq).elim, nofun⟩
  case tuple.tuple as bs =>
    obtain ⟨r, hr, hiff⟩ := hE.pairs_answer hf.contents hg.contents
    refine ⟨r && as.length = bs.length, ?_, fun hfg => ?_, fun hboth => .inl ?_⟩
    · change allPairs (Value.sameItem h) as bs = .ok r at hr
      rw [equal, hr]
      cases r <;> rfl
    · have hlength := List.Forall₂.length_eq hfg
      simpa [hlength] using (hiff hlength).mpr hfg
    · obtain ⟨hr, hlength⟩ := Bool.and_eq_true_iff.mp hboth
      exact (hiff (of_decide_eq_true hlength)).mp hr
  case mapping.mapping o as p bs =>
    obtain ⟨rfl, has, has'⟩ := hf.entries
    obtain ⟨rfl, hbs, hbs'⟩ := hg.entries
    obtain ⟨r, hr, hiff⟩ := hE.entries_answer has hbs has' hbs'
    by_cases hlength : as.length = bs.length
    · have hiff := hiff hlength
      refine ⟨r, ?_, hiff.mpr, fun hr => .inl (hiff.mp hr)⟩
      rw [equal, if_neg (not_not.mpr hlength), hr]
      cases r <;> rfl
    · refine ⟨false, ?_, fun hfg => (hlength hfg.1).elim, nofun⟩
      rw [equal, if_pos hlength]
      rfl
  case set.set as bs =>
    obtain ⟨r, hr, hiff⟩ := hE.items_answer hf.items hg.items
    by_cases hlength : as.length = bs.length
    · have hiff := hiff hlength
      exact ⟨r, (if_neg (not_not.mpr hlength)).trans hr, hiff.mpr, fun hr => .inl (hiff.mp hr)⟩
    · exact ⟨false, if_pos hlength, fun hfg => (hlength hfg.1).elim, nofun⟩
  case element.element => exact False.elim hf.tidy
  all_goals exact ⟨identical, rfl, False.elim, .inr⟩

theorem Equal.symm (hE : h.EqualityOn P) (hf : f.Of h P) (hg : g.Of h P) (hfg : f.Equal h g) :
    g.Equal h f := by
  cases f <;> cases g <;> try exact False.elim hfg
  case number.number => exact ⟨Exact.same_symm hfg.1, Exact.same_symm hfg.2⟩
  case text.text => exact Eq.symm hfg
  case list.list as bs =>
    exact hE.pairs_symm hf.contents hg.contents hfg
  case tuple.tuple as bs =>
    exact hE.pairs_symm hf.contents hg.contents hfg
  case mapping.mapping o as p bs =>
    obtain ⟨-, has, has'⟩ := hf.entries
    obtain ⟨-, hbs, hbs'⟩ := hg.entries
    obtain ⟨hlength, hpartner⟩ := hE.matched_flip has hbs hfg
    refine ⟨hlength, fun a ha => ?_⟩
    obtain ⟨b, hb, hkey, hvalue⟩ := hpartner a ha
    exact ⟨b, hb, hkey, hE.symm _ _ (has' a ha) (hbs' b hb) hvalue⟩
  case set.set as bs => exact hE.matched_flip hf.items hg.items hfg

theorem Equal.trans (hE : h.EqualityOn P) (hf : f.Of h P) (hg : g.Of h P) (hk : k.Of h P)
    (hfg : f.Equal h g) (hgk : g.Equal h k) : f.Equal h k := by
  cases f <;> cases g <;> try exact False.elim hfg
  all_goals cases k <;> try exact False.elim hgk
  case number.number.number =>
    exact ⟨Exact.same_trans hg.tidy.1 hfg.1 hgk.1, Exact.same_trans hg.tidy.2 hfg.2 hgk.2⟩
  case text.text.text => exact Eq.trans hfg hgk
  case list.list.list as bs cs => exact hE.pairs_trans hf.contents hg.contents hk.contents hfg hgk
  case tuple.tuple.tuple as bs cs => exact hE.pairs_trans hf.contents hg.contents hk.contents hfg hgk
  case mapping.mapping.mapping o as p bs q cs =>
    obtain ⟨-, has, has'⟩ := hf.entries
    obtain ⟨-, hbs, hbs'⟩ := hg.entries
    obtain ⟨-, hcs, hcs'⟩ := hk.entries
    obtain ⟨hlength, hpartner⟩ := hE.matched_comp has hbs hcs hfg hgk
    refine ⟨hlength, fun c hc => ?_⟩
    obtain ⟨a, ha, hkey, b, hb, hab, hbc⟩ := hpartner c hc
    exact ⟨a, ha, hkey, hE.trans _ _ _ (has' a ha) (hbs' b hb) (hcs' c hc) hab hbc⟩
  case set.set.set as bs cs =>
    obtain ⟨hlength, hpartner⟩ := hE.matched_comp hf.items hg.items hk.items hfg hgk
    exact ⟨hlength, fun c hc => (hpartner c hc).imp fun a ha => ⟨ha.1, ha.2.1, trivial⟩⟩

end Face

namespace Value

variable {h : Heap} {P : Value → Prop} {a b c : Value}

/-- An acyclic value whose contents are in `P`. -/
def Over (h : Heap) (P : Value → Prop) (v : Value) : Prop := v.Ground h ∧ ∀ x, Within h x v → P x

theorem Over.face (ha : a.Over h P) : (a.face h).Of h P := ⟨ha.1.tidy, ha.2⟩

theorem Over.equal_answers (hE : h.EqualityOn P) (ha : a.Over h P) (hb : b.Over h P) :
    ∃ r, a.equal h b = .ok r ∧ ((a.face h).Equal h (b.face h) → r = true) ∧
      (r = true → (a.face h).Equal h (b.face h) ∨ a = b) := by
  obtain ⟨r, hr, hequal, hyes⟩ := Face.equal_answers hE ha.face hb.face (a = b)
  rw [← ha.1.equal_eq hb.1] at hr
  exact ⟨r, hr, hequal, fun hr => (hyes hr).imp_right of_decide_eq_true⟩

theorem Over.sameItem_answers (hE : h.EqualityOn P) (ha : a.Over h P) (hb : b.Over h P) :
    ∃ r, a.sameItem h b = .ok r ∧ (r = true ↔ a = b ∨ (a.face h).Equal h (b.face h)) := by
  by_cases hab : a = b
  · exact ⟨true, if_pos hab, iff_of_true rfl (.inl hab)⟩
  · obtain ⟨r, hr, hequal, hyes⟩ := ha.equal_answers hE hb
    exact ⟨r, (if_neg hab).trans hr, fun hr => (hyes hr).symm, fun hor => hequal (hor.resolve_left hab)⟩

theorem Over.same_iff (hE : h.EqualityOn P) (ha : a.Over h P) (hb : b.Over h P) :
    a.Same h b ↔ a = b ∨ (a.face h).Equal h (b.face h) := by
  obtain ⟨r, hr, hiff⟩ := ha.sameItem_answers hE hb
  rw [← hiff, Same, hr, Except.ok.injEq]

end Value

namespace Heap

variable {h : Heap} {P : Value → Prop}

theorem EqualityOn.lift (hE : h.EqualityOn P) : h.EqualityOn (Value.Over h P) where
  answers a b ha hb := by
    obtain ⟨r, hr, -⟩ := ha.sameItem_answers hE hb
    exact ⟨r, hr⟩
  symm a b ha hb hab := by
    rw [ha.same_iff hE hb] at hab
    rw [hb.same_iff hE ha]
    exact hab.imp Eq.symm (Face.Equal.symm hE ha.face hb.face)
  trans a b c ha hb hc hab hbc := by
    rw [ha.same_iff hE hb] at hab
    rw [hb.same_iff hE hc] at hbc
    rw [ha.same_iff hE hc]
    rcases hab with rfl | hab
    · exact hbc
    · rcases hbc with rfl | hbc
      · exact .inr hab
      · exact .inr (Face.Equal.trans hE ha.face hb.face hc.face hab hbc)

/-- Equality is an equivalence on the acyclic values that are nested at most `n` deep. -/
theorem equalityOn_nests (h : Heap) (n : Nat) : h.EqualityOn fun v => v.Ground h ∧ v.Nests (Value.Within h) n := by
  induction n with
  | zero => exact ⟨fun x _ hx => hx.2.elim, fun x _ hx => hx.2.elim, fun x _ _ hx => hx.2.elim⟩
  | succ n ih => exact ih.lift.mono fun v hv => ⟨hv.1, fun x hx => ⟨hv.1.contents x hx, hv.2 x hx⟩⟩

theorem equalityOn_ground (h : Heap) : h.EqualityOn (Value.Ground h) :=
  (h.equalityOn_nests (h.size + 1)).mono fun _ hv => ⟨hv, hv.nests⟩

end Heap

namespace Value.Ground

variable {h : Heap} {a b : Value}

theorem overGround (ha : a.Ground h) : a.Over h (Ground h) := ⟨ha, ha.contents⟩

/-- Acyclic values are the same if they are one object or have equal faces. -/
theorem same_iff (ha : a.Ground h) (hb : b.Ground h) : a.Same h b ↔ a = b ∨ (a.face h).Equal h (b.face h) :=
  ha.overGround.same_iff h.equalityOn_ground hb.overGround

theorem equal_answers (ha : a.Ground h) (hb : b.Ground h) : ∃ r, a.equal h b = .ok r := by
  obtain ⟨r, hr, -⟩ := ha.overGround.equal_answers h.equalityOn_ground hb.overGround
  exact ⟨r, hr⟩

end Value.Ground

end Exemplar
