import Exemplar.Proofs.Symmetry

/-! What structural equality sees of sealed values.

A comparison of acyclic values goes through the pairs of values at corresponding places
(`Corresponds`), and its answer is yes if every pair agrees by itself
(`Value.IsData.bisimilar_iff`). Where the expected value of such a pair is a scalar, the other is
equal to it; where it is sealed, only the types are compared, so that its content is lost. The
answers in the two directions differ where a sealed value stands in the place of an expected scalar. -/
namespace Exemplar

variable {h : Heap}

namespace Value

/-- Acyclic values of scalars and sealed values. -/
def IsData (h : Heap) (v : Value) : Prop := v.BuiltFrom h (IsLeaf h)

/-- `v` and `w` stand at the same place in `x` and `y`: they are items with the same position, or
stand under the same key. -/
inductive Place (h : Heap) (x y : Value) : Value → Value → Prop
  | item {xs ys v w} (i : Nat) : x.items? h = some xs → y.items? h = some ys → xs[i]? = some v →
      ys[i]? = some w → Place h x y v w
  | entry {as bs e e'} : x.entries? h = some as → y.entries? h = some bs → e ∈ as → e' ∈ bs →
      e.1.Same h e'.1 → Place h x y e.2 e'.2

/-- `x` and `y` stand at corresponding places in `a` and `b`, at any depth. -/
inductive Corresponds (h : Heap) (a b : Value) : Value → Value → Prop
  | whole : Corresponds h a b a b
  | part {x y v w} : Corresponds h a b x y → Place h x y v w → Corresponds h a b v w

namespace IsData

variable {a b x y v w : Value} {R : Value → Value → Prop}

theorem node (hv : v.IsData h) : v.Node h (IsData h) := BuiltFrom.node (fun _ hv => hv) hv

theorem graph (h : Heap) : h.Graph (IsData h) := fun _ hv => node hv

theorem of_place (hx : x.IsData h) (hy : y.IsData h) (hp : Place h x y v w) : v.IsData h ∧ w.IsData h := by
  cases hp with
  | item i hxs hys hv hw =>
    exact ⟨(hx.node.of_items hxs).2 _ (List.mem_of_getElem? hv),
      (hy.node.of_items hys).2 _ (List.mem_of_getElem? hw)⟩
  | entry has hbs he he' _ => exact ⟨(hx.node.of_entries has).2.2 _ he, (hy.node.of_entries hbs).2.2 _ he'⟩

/-- Only sealed values are compared by attributes, and they have none. -/
theorem sealed_of_manner (hv : v.IsData h) {attributes : List (String × Value)}
    (hm : v.manner h = .attributes attributes) : v.IsSealed h ∧ attributes = [] := by
  unfold IsData at hv
  cases hv with
  | leaf hv =>
    rcases hv with hv | hv
    · rw [hv.manner] at hm
      cases hm
    · rw [hv.manner] at hm
      cases hm
      exact ⟨hv, rfl⟩
  | list hcell _ => rw [manner_of_list hcell] at hm; cases hm
  | tuple hcell _ => rw [manner_of_tuple hcell] at hm; cases hm
  | mapping hcell _ _ _ => rw [manner_of_mapping hcell] at hm; cases hm
  | set hcell _ _ => rw [manner_of_set hcell] at hm; cases hm

/-- Agreement asks for nothing but what stands at the same places. -/
theorem agrees_places (hx : x.IsData h) (hy : y.IsData h) (hxy : x.Agrees h R y) :
    x.Agrees h (fun v w => Place h x y v w ∧ R v w) y := by
  cases hxy with
  | identical => exact .identical x
  | mapping hm has hentries =>
    have hbs := manner_entries hm
    rw [entriesAgree_iff_matched ((graph h).keyed_entries hx has) ((graph h).keyed_entries hy hbs)] at hentries
    refine .mapping hm has ?_
    rw [entriesAgree_iff_matched ((graph h).keyed_entries hx has) ((graph h).keyed_entries hy hbs)]
    refine ⟨hentries.1, fun e' he' => ?_⟩
    obtain ⟨e, he, hkey, hR⟩ := hentries.2 e' he'
    exact ⟨e, he, hkey, .entry has hbs he he' hkey, hR⟩
  | sequence hm htype has hitems =>
    refine .sequence hm htype has ?_
    rw [List.forall₂_iff_zip] at hitems ⊢
    refine ⟨hitems.1, fun hp => ⟨?_, hitems.2 hp⟩⟩
    obtain ⟨i, hi⟩ := List.mem_iff_getElem?.mp hp
    obtain ⟨hv, hw⟩ := List.getElem?_zip_eq_some.mp hi
    exact .item i has (manner_items hm) hv hw
  | set hm hset hequal => exact .set hm hset hequal
  | object hm htype hentries =>
    obtain ⟨-, rfl⟩ := sealed_of_manner hy hm
    exact .object hm htype (hentries.imp_mem fun _ _ _ hb => absurd hb List.not_mem_nil)
  | leaf hm hequal => exact .leaf hm hequal

/-- What stands at the same place in bisimilar values is bisimilar. -/
theorem bisimilar_place (hx : x.IsData h) (hy : y.IsData h) (hxy : Bisimilar h x y) (hp : Place h x y v w) :
    Bisimilar h v w := by
  cases hp with
  | @item xs ys v w i hxs hys hv hw =>
    have hitems : List.Forall₂ (Bisimilar h) xs ys := by
      rcases hxy.agrees.items (hy.node.of_items hys).1 with rfl | ⟨-, as, has, hitems⟩
      · rw [hxs] at hys
        cases hys
        exact List.forall₂_same.mpr fun v _ => Bisimilar.refl h v
      · rw [hxs] at has
        cases has
        exact hitems
    have hmem : (v, w) ∈ xs.zip ys := List.mem_of_getElem? (List.getElem?_zip_eq_some.mpr ⟨hv, hw⟩)
    exact (List.forall₂_iff_zip.mp hitems).2 hmem
  | @entry as bs e e' has hbs he he' hkey =>
    have hkas := (graph h).keyed_entries hx has
    have hkbs := (graph h).keyed_entries hy hbs
    have hE := h.equalityOn_ground
    rcases hxy.agrees.entries (hy.node.of_entries hbs).1 with rfl | ⟨as', has', hentries⟩
    · rw [has] at hbs
      cases hbs
      by_cases hee : e = e'
      · rw [hee]
        exact Bisimilar.refl h _
      · exact absurd hkey (hE.key_ne hkas he he' hee)
    · rw [has] at has'
      cases has'
      obtain ⟨x', hfound, hbisimilar⟩ := hentries.2 e' he'
      rw [(hE.findEntry_iff hkas (hkbs.keys e' he')).mpr ⟨e, he, hkey, rfl⟩] at hfound
      cases hfound
      exact hbisimilar

end IsData

theorem Place.symm {x y v w : Value} (hx : x.IsData h) (hy : y.IsData h) (hp : Place h x y v w) :
    Place h y x w v := by
  cases hp with
  | item i hxs hys hv hw => exact .item i hys hxs hw hv
  | entry has hbs he he' hkey =>
    have hke := ((IsData.graph h).keyed_entries hx has).keys _ he
    have hke' := ((IsData.graph h).keyed_entries hy hbs).keys _ he'
    exact .entry hbs has he' he (h.equalityOn_ground.symm _ _ hke hke' hkey)

namespace Corresponds

variable {a b x y : Value}

theorem data (ha : a.IsData h) (hb : b.IsData h) (hxy : Corresponds h a b x y) : x.IsData h ∧ y.IsData h := by
  induction hxy with
  | whole => exact ⟨ha, hb⟩
  | part _ hp ih => exact IsData.of_place ih.1 ih.2 hp

theorem symm (ha : a.IsData h) (hb : b.IsData h) (hxy : Corresponds h a b x y) : Corresponds h b a y x := by
  induction hxy with
  | whole => exact .whole
  | part hxy hp ih =>
    obtain ⟨hx, hy⟩ := hxy.data ha hb
    exact .part ih (hp.symm hx hy)

theorem bisimilar (ha : a.IsData h) (hb : b.IsData h) (hab : Bisimilar h a b) (hxy : Corresponds h a b x y) :
    Bisimilar h x y := by
  induction hxy with
  | whole => exact hab
  | part hxy hp ih =>
    obtain ⟨hx, hy⟩ := hxy.data ha hb
    exact IsData.bisimilar_place hx hy ih hp

end Corresponds

/-- Two values agree, apart from their parts. -/
def Alike (h : Heap) (x y : Value) : Prop := x.Agrees h (fun _ _ => True) y

namespace IsData

variable {a b x y : Value}

/-- Acyclic values are bisimilar if the values at all corresponding places are alike. -/
theorem bisimilar_iff (ha : a.IsData h) (hb : b.IsData h) :
    Bisimilar h a b ↔ ∀ x y, Corresponds h a b x y → Alike h x y := by
  constructor
  · intro hab x y hxy
    exact (hxy.bisimilar ha hb hab).agrees.mono fun _ _ _ => trivial
  · intro halike
    refine ⟨Corresponds h a b, .whole, fun x y hxy => ?_⟩
    obtain ⟨hx, hy⟩ := hxy.data ha hb
    exact (agrees_places hx hy (halike x y hxy)).mono fun v w hvw => .part hxy hvw.1

theorem alike_scalar (hy : y.IsScalar h) : Alike h x y ↔ x.Same h y :=
  ⟨fun hxy => Agrees.same hxy hy.manner, Agrees.of_same hy.manner⟩

/-- The attributes of a sealed value are compared, of which it has none, and its type. -/
theorem alike_sealed (hx : x.IsData h) (hy : y.IsSealed h) : Alike h x y ↔ x.typeName h = y.typeName h := by
  constructor
  · intro hxy
    rcases Agrees.attributes hxy hy.manner with rfl | ⟨htype, -⟩
    · rfl
    · exact htype
  · intro htype
    obtain ⟨as, hm⟩ := (graph h).attributes_of_type hx (.leaf (.inr hy)) hy.manner htype
    obtain ⟨-, rfl⟩ := sealed_of_manner hx hm
    refine .object hy.manner htype ?_
    rw [manner_attributes hm]
    exact EntriesAgree.nil

/-- Nothing that is plain data is like a sealed value. -/
theorem not_alike (hx : x.IsScalar h) (hy : y.IsSealed h) : ¬ Alike h x y := by
  intro hxy
  rw [alike_sealed (.leaf (.inl hx)) hy] at hxy
  exact hy.typeName (hxy ▸ hx.typeName)

/-- Bisimilar values are so in the other direction, unless a sealed value stands in the place of an
expected scalar. -/
theorem bisimilar_comm_iff (ha : a.IsData h) (hb : b.IsData h) (hab : Bisimilar h a b) :
    Bisimilar h b a ↔ ∀ x y, Corresponds h a b x y → y.IsScalar h → ¬ x.IsSealed h := by
  constructor
  · intro hba x y hxy hscalar hsealed
    exact not_alike hscalar hsealed ((bisimilar_iff hb ha).mp hba y x (hxy.symm ha hb))
  · intro hplain
    refine (bisimilar_iff hb ha).mpr fun y x hyx => ?_
    have hxy := hyx.symm hb ha
    obtain ⟨hx, hy⟩ := hxy.data ha hb
    exact (graph h).agrees_symm hx hy (hplain x y hxy) ((bisimilar_iff ha hb).mp hab x y hxy)

end IsData
end Value

/-- What structural equality tells about acyclic values of scalars and sealed values. It says yes if
the values at all corresponding places are alike. A value is like an expected scalar if it is the
same; it is like a sealed value if it has its type, whatever the content. If the answer is yes, it
is yes in the other direction too, unless a sealed value stands in the place of a scalar. -/
theorem deepEqual_content {a b : Value} (ha : a.IsData h) (hb : b.IsData h) :
    ∃ r r', a.deepEqual h b = .ok r ∧ b.deepEqual h a = .ok r' ∧
      (r = true ↔ ∀ x y, Value.Corresponds h a b x y → Value.Alike h x y) ∧
      (∀ x y, Value.Corresponds h a b x y →
        (y.IsScalar h → (Value.Alike h x y ↔ x.Same h y)) ∧
        (y.IsSealed h → (Value.Alike h x y ↔ x.typeName h = y.typeName h))) ∧
      (r = true → (r' = true ↔
        ∀ x y, Value.Corresponds h a b x y → y.IsScalar h → ¬ x.IsSealed h)) := by
  obtain ⟨r, hr, hiff⟩ := (Value.IsData.graph h).deepEqual_iff ha hb
  obtain ⟨r', hr', hiff'⟩ := (Value.IsData.graph h).deepEqual_iff hb ha
  refine ⟨r, r', hr, hr', hiff.trans (ha.bisimilar_iff hb), fun x y hxy => ?_, fun hyes => ?_⟩
  · exact ⟨Value.IsData.alike_scalar, Value.IsData.alike_sealed (hxy.data ha hb).1⟩
  · exact hiff'.trans (ha.bisimilar_comm_iff hb (hiff.mp hyes))

/-- Two lists of a text of its own class and an error, with different contents, a list of the first
of these texts, and a list of the plain text. -/
def Heap.sealed : Heap where
  cells := #[
    .ownText "a", .ownText "b", .error .valueError [.text "a"], .error .valueError [.text "b"],
    .list false [.object 0, .object 2], .list false [.object 1, .object 3],
    .list false [.object 0], .list false [.text "a"]]

namespace Heap.sealed

theorem pair_data {v x y : Value} {t u : String}
    (hv : Heap.sealed.cell? v = some (.list false [x, y])) (hx : Heap.sealed.cell? x = some (.ownText t))
    (hy : Heap.sealed.cell? y = some (.error .valueError [.text u])) : v.IsData sealed :=
  .list hv (List.forall_mem_cons.mpr
    ⟨.leaf (.inr (.text hx)), List.forall_mem_singleton.mpr (.leaf (.inr (.error hy rfl)))⟩)

theorem single_data {v x : Value} (hv : Heap.sealed.cell? v = some (.list false [x]))
    (hx : x.IsLeaf sealed) : v.IsData sealed :=
  .list hv (List.forall_mem_singleton.mpr (.leaf hx))

end Heap.sealed

theorem deepEqual_content_sealed :
    (Value.object 6).IsData .sealed ∧ (Value.object 7).IsData .sealed ∧
      (∀ x y, Value.Corresponds .sealed (.object 6) (.object 7) x y → Value.Alike .sealed x y) ∧
      (Value.object 7).deepEqual .sealed (.object 6) = .ok false := by
  have ha : (Value.object 6).IsData .sealed := Heap.sealed.single_data rfl (.inr (.text rfl))
  have hb : (Value.object 7).IsData .sealed := Heap.sealed.single_data rfl (.inl (.text "a"))
  obtain ⟨r, r', hr, hr', halike, hleaves, hcomm⟩ := deepEqual_content ha hb
  have hyes : (Value.object 6).deepEqual .sealed (.object 7) = .ok true := rfl
  rw [hyes] at hr
  cases hr
  refine ⟨ha, hb, halike.mp rfl, ?_⟩
  have hplace : Value.Corresponds .sealed (.object 6) (.object 7) (.object 0) (.text "a") :=
    .part .whole (.item 0 rfl rfl rfl rfl)
  have hsealed : (Value.object 0).IsSealed .sealed := .text rfl
  cases r' with
  | false => exact hr'
  | true => exact absurd hsealed ((hcomm rfl).mp rfl _ _ hplace (.text "a"))

/-- Structural equality answers yes in both directions for lists whose texts and errors differ in
content, and for a text of its own class and a plain one it answers yes in one direction only. -/
theorem deepEqual_content_lost :
    (Value.object 4).IsData .sealed ∧ (Value.object 5).IsData .sealed ∧
      (Value.object 4).deepEqual .sealed (.object 5) = .ok true ∧
      Value.Corresponds .sealed (.object 4) (.object 5) (.object 0) (.object 1) ∧
      (Value.object 0).asText? .sealed = some "a" ∧ (Value.object 1).asText? .sealed = some "b" ∧
      Value.Corresponds .sealed (.object 4) (.object 5) (.object 2) (.object 3) ∧
      Heap.sealed.cell? (.object 2) = some (.error .valueError [.text "a"]) ∧
      Heap.sealed.cell? (.object 3) = some (.error .valueError [.text "b"]) ∧
      (Value.text "a").deepEqual .sealed (.text "b") = .ok false ∧
      (Value.object 0).deepEqual .sealed (.text "a") = .ok true ∧
      (Value.text "a").deepEqual .sealed (.object 0) = .ok false := by
  refine ⟨?_, ?_, rfl, ?_, rfl, rfl, ?_, rfl, rfl, rfl, rfl, rfl⟩
  · exact Heap.sealed.pair_data rfl rfl rfl
  · exact Heap.sealed.pair_data rfl rfl rfl
  · exact .part .whole (.item 0 rfl rfl rfl rfl)
  · exact .part .whole (.item 1 rfl rfl rfl rfl)

end Exemplar
