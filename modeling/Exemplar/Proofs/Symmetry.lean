import Exemplar.Proofs.Graph

/-! Structural equality as an equivalence.

The comparison looks at the expected value only to choose how to compare, so it is not symmetric by
its form. In a graph the choice is the same from both sides: entries, items and attributes agree in
one direction if they agree in the other (`Heap.Graph.agrees_symm`), and agreements of two pairs
compose (`Heap.Graph.agrees_trans`). Bisimilarity inherits both. Sealed values are left out: their
content is compared from one side only. -/
namespace Exemplar

variable {h : Heap} {R S T : Value → Value → Prop}

theorem Bisimilar.refl (h : Heap) (x : Value) : Bisimilar h x x := by
  refine ⟨Eq, rfl, ?_⟩
  rintro x _ rfl
  exact .identical x

/-! ### Entries -/

section Entries

variable {as bs cs : List (Value × Value)}

theorem EntriesAgree.nil : EntriesAgree h R [] [] := by simp [EntriesAgree, SameKeys]

theorem EntriesAgree.imp_mem (hRS : ∀ a ∈ as, ∀ b ∈ bs, R a.2 b.2 → S a.2 b.2)
    (hab : EntriesAgree h R as bs) : EntriesAgree h S as bs := by
  refine ⟨hab.1, fun b hb => ?_⟩
  obtain ⟨x, hx, hR⟩ := hab.2 b hb
  obtain ⟨a, ha, -, rfl⟩ := findEntry_mem hx
  exact ⟨a.2, hx, hRS a ha b hb hR⟩

theorem EntriesAgree.symm (has : Keyed h Prod.fst (Value.Ground h) as)
    (hbs : Keyed h Prod.fst (Value.Ground h) bs) (hab : EntriesAgree h R as bs) :
    EntriesAgree h (flip R) bs as := by
  rw [entriesAgree_iff_matched has hbs] at hab
  rw [entriesAgree_iff_matched hbs has]
  exact h.equalityOn_ground.matched_flip has hbs hab

theorem EntriesAgree.trans (has : Keyed h Prod.fst (Value.Ground h) as)
    (hbs : Keyed h Prod.fst (Value.Ground h) bs) (hcs : Keyed h Prod.fst (Value.Ground h) cs)
    (hab : EntriesAgree h R as bs) (hbc : EntriesAgree h S bs cs) :
    EntriesAgree h (Relation.Comp R S) as cs := by
  rw [entriesAgree_iff_matched has hbs] at hab
  rw [entriesAgree_iff_matched hbs hcs] at hbc
  rw [entriesAgree_iff_matched has hcs]
  obtain ⟨hlength, hpartner⟩ := h.equalityOn_ground.matched_comp has hbs hcs hab hbc
  refine ⟨hlength, fun c hc => ?_⟩
  obtain ⟨a, ha, hkey, b, -, hR, hS⟩ := hpartner c hc
  exact ⟨a, ha, hkey, b.2, hR, hS⟩

end Entries

/-! ### Agreement by the manner of the expected value -/

namespace Value

variable {x y z : Value}

theorem Same.of_equal (hxy : x.equal h y = .ok true) : x.Same h y := Value.same_iff.mpr (.inr hxy)

theorem Agrees.entries {bs : List (Value × Value)} (hxy : x.Agrees h R y) (hy : y.manner h = .entries bs) :
    x = y ∨ ∃ as, x.entries? h = some as ∧ EntriesAgree h R as bs := by
  cases hxy with
  | identical => exact .inl rfl
  | mapping hm hx hentries =>
    rw [hy] at hm
    cases hm
    exact .inr ⟨_, hx, hentries⟩
  | sequence hm _ _ _ | set hm _ _ | object hm _ _ | leaf hm _ =>
    rw [hy] at hm
    cases hm

theorem Agrees.items {bs : List Value} (hxy : x.Agrees h R y) (hy : y.manner h = .items bs) :
    x = y ∨ x.typeName h = y.typeName h ∧ ∃ as, x.items? h = some as ∧ List.Forall₂ R as bs := by
  cases hxy with
  | identical => exact .inl rfl
  | sequence hm htype hx hitems =>
    rw [hy] at hm
    cases hm
    exact .inr ⟨htype, _, hx, hitems⟩
  | mapping hm _ _ | set hm _ _ | object hm _ _ | leaf hm _ =>
    rw [hy] at hm
    cases hm

theorem Agrees.ofSet (hxy : x.Agrees h R y) (hy : y.manner h = .set) :
    x = y ∨ x.isSet h = true ∧ x.equal h y = .ok true := by
  cases hxy with
  | identical => exact .inl rfl
  | set _ hx hequal => exact .inr ⟨hx, hequal⟩
  | mapping hm _ _ | sequence hm _ _ _ | object hm _ _ | leaf hm _ =>
    rw [hy] at hm
    cases hm

theorem Agrees.attributes {bs : List (String × Value)} (hxy : x.Agrees h R y)
    (hy : y.manner h = .attributes bs) :
    x = y ∨ x.typeName h = y.typeName h ∧ EntriesAgree h R (x.attributeTable h) (attributeEntries bs) := by
  cases hxy with
  | identical => exact .inl rfl
  | object hm htype hentries =>
    rw [hy] at hm
    cases hm
    exact .inr ⟨htype, hentries⟩
  | mapping hm _ _ | sequence hm _ _ _ | set hm _ _ | leaf hm _ =>
    rw [hy] at hm
    cases hm

theorem Agrees.same (hxy : x.Agrees h R y) (hy : y.manner h = .equality) : x.Same h y := by
  cases hxy with
  | identical => exact Same.refl h x
  | leaf _ hequal => exact Same.of_equal hequal
  | mapping hm _ _ | sequence hm _ _ _ | set hm _ _ | object hm _ _ =>
    rw [hy] at hm
    cases hm

theorem Agrees.of_same (hy : y.manner h = .equality) (hxy : x.Same h y) : x.Agrees h R y := by
  rcases Value.same_iff.mp hxy with rfl | hequal
  · exact .identical x
  · exact .leaf hy hequal

theorem Agrees.of_same_set (hy : y.manner h = .set) (hx : x.isSet h = true) (hxy : x.Same h y) :
    x.Agrees h R y := by
  rcases Value.same_iff.mp hxy with rfl | hequal
  · exact .identical x
  · exact .set hy hx hequal

end Value

/-! ### Agreement in a graph -/

namespace Heap.Graph

variable {G : Value → Prop} {x y z : Value}

/-- A value of the type of one that is compared by its attributes is compared so itself. -/
theorem attributes_of_type (hG : h.Graph G) (hx : G x) (hy : G y) {bs : List (String × Value)}
    (hm : y.manner h = .attributes bs) (htype : x.typeName h = y.typeName h) :
    ∃ as, x.manner h = .attributes as := by
  have hkeeps := (hG y hy).attributes_iff.mp ⟨bs, Value.attributes_of_manner hm⟩
  rw [← htype] at hkeeps
  obtain ⟨as, has⟩ := (hG x hx).attributes_iff.mpr hkeeps
  exact ⟨as, ((hG x hx).of_attributes has).1⟩

theorem keyed_entries (hG : h.Graph G) (hx : G x) {as : List (Value × Value)} (has : x.entries? h = some as) :
    Keyed h Prod.fst (Value.Ground h) as := ((hG x hx).of_entries has).2.1

theorem keyed_attributes (hG : h.Graph G) (hx : G x) {as : List (String × Value)}
    (hm : x.manner h = .attributes as) : Keyed h Prod.fst (Value.Ground h) (attributeEntries as) :=
  keyed_attributeEntries ((hG x hx).of_attributes (Value.attributes_of_manner hm)).2.1

/-- Agreement is about the parts of the values, which are in the graph. -/
theorem agrees_within (hG : h.Graph G) (hx : G x) (hy : G y) (hxy : x.Agrees h R y) :
    x.Agrees h (fun u v => G u ∧ G v ∧ R u v) y := by
  cases hxy with
  | identical => exact .identical x
  | mapping hm has hentries =>
    have hxs := ((hG x hx).of_entries has).2.2
    have hys := ((hG y hy).of_entries (Value.manner_entries hm)).2.2
    exact .mapping hm has (hentries.imp_mem fun a ha b hb hR => ⟨hxs a ha, hys b hb, hR⟩)
  | sequence hm htype has hitems =>
    have hxs := ((hG x hx).of_items has).2
    have hys := ((hG y hy).of_items (Value.manner_items hm)).2
    exact .sequence hm htype has (forall₂_imp_mem (fun a ha b hb hR => ⟨hxs a ha, hys b hb, hR⟩) hitems)
  | set hm hset hequal => exact .set hm hset hequal
  | object hm htype hentries =>
    obtain ⟨as, has⟩ := hG.attributes_of_type hx hy hm htype
    have hxs := ((hG x hx).of_attributes (Value.attributes_of_manner has)).2.2
    have hys := ((hG y hy).of_attributes (Value.attributes_of_manner hm)).2.2
    refine .object hm htype (hentries.imp_mem ?_)
    rw [Value.manner_attributes has]
    intro a ha b hb hR
    obtain ⟨e, he, rfl⟩ := List.mem_map.mp ha
    obtain ⟨e', he', rfl⟩ := List.mem_map.mp hb
    exact ⟨hxs e he, hys e' he', hR⟩
  | leaf hm hequal => exact .leaf hm hequal

/-- Two values agree in both directions, unless a sealed value meets a scalar it is equal to. -/
theorem agrees_symm (hG : h.Graph G) (hx : G x) (hy : G y) (hplain : y.IsScalar h → ¬ x.IsSealed h)
    (hxy : x.Agrees h R y) : y.Agrees h (flip R) x := by
  have hE := h.equalityOn_ground
  cases hxy with
  | identical => exact .identical x
  | mapping hm has hentries =>
    have hbs := Value.manner_entries hm
    have hmx := ((hG x hx).of_entries has).1
    exact .mapping hmx hbs (hentries.symm (hG.keyed_entries hx has) (hG.keyed_entries hy hbs))
  | sequence hm htype has hitems =>
    have hmx := ((hG x hx).of_items has).1
    exact .sequence hmx htype.symm (Value.manner_items hm) hitems.flip
  | set hm hset hequal =>
    have hset' := Value.isSet_of_manner hm
    obtain ⟨hmx, hgx⟩ := (hG x hx).of_isSet hset
    obtain ⟨-, hgy⟩ := (hG y hy).of_isSet hset'
    exact .of_same_set hmx hset' (hE.symm x y hgx hgy (.of_equal hequal))
  | object hm htype hentries =>
    obtain ⟨as, hmx⟩ := hG.attributes_of_type hx hy hm htype
    rw [Value.manner_attributes hmx] at hentries
    refine .object hmx htype.symm ?_
    rw [Value.manner_attributes hm]
    exact hentries.symm (hG.keyed_attributes hx hmx) (hG.keyed_attributes hy hm)
  | leaf hm hequal =>
    have hsame := Value.Same.of_equal hequal
    have hscalar := (hG y hy).of_equality hm
    have hleaf := (hG x hx).leaf_of_same (.inl hscalar) hsame
    -- a sealed value in the place of `x` would be compared by its type from the other side
    have hmx := (hleaf.resolve_right (hplain hscalar)).manner
    exact .of_same hmx (hE.symm x y hleaf.ground (.leaf hscalar.simple) hsame)

/-- Agreements compose where no value is sealed. -/
theorem agrees_trans (hG : h.Graph G) (hplain : ∀ v, G v → ¬ v.IsSealed h) (hx : G x) (hy : G y) (hz : G z)
    (hR : ∀ u v, R u v → T u v) (hS : ∀ u v, S u v → T u v) (hRS : ∀ u v, Relation.Comp R S u v → T u v)
    (hxy : x.Agrees h R y) (hyz : y.Agrees h S z) : x.Agrees h T z := by
  have hE := h.equalityOn_ground
  cases hyz with
  | identical => exact hxy.mono hR
  | mapping hm hbs hbc =>
    have hcs := Value.manner_entries hm
    rcases hxy.entries ((hG y hy).of_entries hbs).1 with rfl | ⟨as, has, hab⟩
    · exact .mapping hm hbs (hbc.mono hS)
    · have hac := hab.trans (hG.keyed_entries hx has) (hG.keyed_entries hy hbs) (hG.keyed_entries hz hcs) hbc
      exact .mapping hm has (hac.mono hRS)
  | sequence hm htype hbs hbc =>
    rcases hxy.items ((hG y hy).of_items hbs).1 with rfl | ⟨htype', as, has, hab⟩
    · exact .sequence hm htype hbs (hbc.imp hS)
    · exact .sequence hm (htype'.trans htype) has ((forall₂_comp hab hbc).imp hRS)
  | set hm hset hequal =>
    obtain ⟨hmy, hgy⟩ := (hG y hy).of_isSet hset
    obtain ⟨-, hgz⟩ := (hG z hz).of_isSet (Value.isSet_of_manner hm)
    rcases hxy.ofSet hmy with rfl | ⟨hset', hequal'⟩
    · exact .set hm hset hequal
    · obtain ⟨-, hgx⟩ := (hG x hx).of_isSet hset'
      exact .of_same_set hm hset' (hE.trans x y z hgx hgy hgz (.of_equal hequal') (.of_equal hequal))
  | object hm htype hbc =>
    obtain ⟨bs, hmy⟩ := hG.attributes_of_type hy hz hm htype
    rcases hxy.attributes hmy with rfl | ⟨htype', hab⟩
    · exact .object hm htype (hbc.mono hS)
    · obtain ⟨as, hmx⟩ := hG.attributes_of_type hx hy hmy htype'
      rw [Value.manner_attributes hmx] at hab
      rw [Value.manner_attributes hmy] at hbc
      have hac := hab.trans (hG.keyed_attributes hx hmx) (hG.keyed_attributes hy hmy)
        (hG.keyed_attributes hz hm) hbc
      refine .object hm (htype'.trans htype) ?_
      rw [Value.manner_attributes hmx]
      exact hac.mono hRS
  | leaf hm hequal =>
    have hsame := Value.Same.of_equal hequal
    have hzleaf := (hG z hz).of_equality hm
    have hyleaf := (hG y hy).leaf_of_same (.inl hzleaf) hsame
    have hsame' := hxy.same (hyleaf.resolve_right (hplain y hy)).manner
    have hxleaf := (hG x hx).leaf_of_same hyleaf hsame'
    exact .of_same hm (hE.trans x y z hxleaf.ground hyleaf.ground (.leaf hzleaf.simple) hsame' hsame)

/-! ### Bisimilarity in a graph -/

theorem bisimilar_symm (hG : h.Graph G) (hplain : ∀ v, G v → ¬ v.IsSealed h) (hx : G x) (hy : G y)
    (hxy : Bisimilar h x y) : Bisimilar h y x := by
  refine ⟨flip fun u v => G u ∧ G v ∧ Bisimilar h u v, ⟨hx, hy, hxy⟩, fun u v huv => ?_⟩
  obtain ⟨hv, hu, hvu⟩ := huv
  exact hG.agrees_symm hv hu (fun _ => hplain v hv) (hG.agrees_within hv hu hvu.agrees)

theorem bisimilar_trans (hG : h.Graph G) (hplain : ∀ v, G v → ¬ v.IsSealed h) (hx : G x) (hy : G y) (hz : G z)
    (hxy : Bisimilar h x y) (hyz : Bisimilar h y z) : Bisimilar h x z := by
  -- the pairs that two pairs of the graph compose to
  let B : Value → Value → Prop := fun u v => G u ∧ G v ∧ Bisimilar h u v
  refine ⟨Relation.Comp B B, ⟨y, ⟨hx, hy, hxy⟩, hy, hz, hyz⟩, fun u w huw => ?_⟩
  obtain ⟨v, ⟨hu, hv, huv⟩, -, hw, hvw⟩ := huw
  refine hG.agrees_trans hplain hu hv hw ?_ ?_ (fun _ _ huw => huw) (hG.agrees_within hu hv huv.agrees)
    (hG.agrees_within hv hw hvw.agrees)
  · exact fun p q hpq => ⟨q, hpq, hpq.2.1, hpq.2.1, Bisimilar.refl h q⟩
  · exact fun p q hpq => ⟨p, ⟨hpq.1, hpq.1, Bisimilar.refl h p⟩, hpq⟩

end Heap.Graph

/-- Three rings of a point and the list it is held in. They share a NaN, and the second has its
attributes in another order. -/
def Heap.rings : Heap where
  cells := #[
    .record .point [("weight", .object 6), ("held in", .object 3)],
    .record .point [("held in", .object 4), ("weight", .object 6)],
    .record .point [("weight", .object 6), ("held in", .object 5)],
    .list false [.object 0], .list false [.object 1], .list false [.object 2], .float .nan]

namespace Heap.rings

def values : List Value := [.object 0, .object 1, .object 2, .object 3, .object 4, .object 5, .object 6]

theorem graph : rings.Graph (· ∈ values) := by
  intro v hv
  simp only [values, List.mem_cons, List.not_mem_nil, or_false] at hv
  rcases hv with rfl | rfl | rfl | rfl | rfl | rfl | rfl
  case inr.inr.inr.inr.inr.inr => exact .leaf (.inl (.float rfl))
  case inl | inr.inl | inr.inr.inl => exact .object rfl rfl (by decide) (by decide)
  all_goals exact .list rfl (by decide)

theorem not_sealed : ∀ v ∈ values, ¬ v.IsSealed rings := by
  have hattributes : ∀ v ∈ values, v.attributes? rings ≠ some [] := by decide
  exact fun v hv hsealed => hattributes v hv hsealed.attributes

end Heap.rings

/-- In an object graph of plain data and plain objects, structural equality gives the same answer
in both directions, and what is equal to an equal value is equal. The values may share parts and
contain themselves. -/
theorem deepEqual_symm_trans {G : Value → Prop} (hG : h.Graph G) (hplain : ∀ v, G v → ¬ v.IsSealed h)
    {a b c : Value} (ha : G a) (hb : G b) (hc : G c) :
    ∃ r, a.deepEqual h b = .ok r ∧ b.deepEqual h a = .ok r ∧
      (r = true → b.deepEqual h c = .ok true → a.deepEqual h c = .ok true) := by
  obtain ⟨r, hab, hiff⟩ := hG.deepEqual_iff ha hb
  obtain ⟨r', hba, hiff'⟩ := hG.deepEqual_iff hb ha
  obtain ⟨r₁, hbc, hiff₁⟩ := hG.deepEqual_iff hb hc
  obtain ⟨r₂, hac, hiff₂⟩ := hG.deepEqual_iff ha hc
  have hsymm : r = true ↔ r' = true := by
    rw [hiff, hiff']
    exact ⟨hG.bisimilar_symm hplain ha hb, hG.bisimilar_symm hplain hb ha⟩
  obtain rfl : r = r' := Bool.eq_iff_iff.mpr hsymm
  refine ⟨r, hab, hba, fun hr hequal => ?_⟩
  rw [hbc] at hequal
  cases hequal
  have hbisimilar := hG.bisimilar_trans hplain ha hb hc (hiff.mp hr) (hiff₁.mp rfl)
  rw [hac, hiff₂.mpr hbisimilar]

theorem deepEqual_symm_trans_rings :
    Heap.rings.Graph (· ∈ Heap.rings.values) ∧ (∀ v ∈ Heap.rings.values, ¬ v.IsSealed .rings) ∧
      (Value.object 0).deepEqual .rings (.object 1) = .ok true ∧
      (Value.object 1).deepEqual .rings (.object 0) = .ok true ∧
      (Value.object 0).deepEqual .rings (.object 2) = .ok true := by
  have hfirst : (Value.object 0).deepEqual .rings (.object 1) = .ok true := rfl
  have hsecond : (Value.object 1).deepEqual .rings (.object 2) = .ok true := rfl
  obtain ⟨r, hr, hr', htrans⟩ := deepEqual_symm_trans Heap.rings.graph Heap.rings.not_sealed
    (a := .object 0) (b := .object 1) (c := .object 2) (by decide) (by decide) (by decide)
  rw [hfirst] at hr
  cases hr
  exact ⟨Heap.rings.graph, Heap.rings.not_sealed, hfirst, hr', htrans rfl hsecond⟩

end Exemplar
