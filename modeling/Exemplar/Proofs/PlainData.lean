import Exemplar.Proofs.Symmetry

/-! Structural equality of plain data is `==`.

On acyclic data both comparisons see the same parts. What `==` finds the same agrees part by part,
so it is bisimilar (`Value.IsPlain.bisimilar`); and by induction on the expected value, what is
bisimilar is the same (`Value.IsPlain.same`). Identity is looked at before anything else by both,
for the values and for their items. -/
namespace Exemplar

variable {h : Heap}

namespace Value

/-- Acyclic data of the built-in types. -/
def IsPlain (h : Heap) (v : Value) : Prop := v.BuiltFrom h (IsScalar h)

namespace IsPlain

variable {a b v : Value}

theorem node (hv : v.IsPlain h) : v.Node h (IsPlain h) := BuiltFrom.node (fun _ hv => .inl hv) hv

theorem ground (hv : v.IsPlain h) : v.Ground h := BuiltFrom.mono (fun _ hv => hv.simple) hv

theorem graph (h : Heap) : h.Graph (IsPlain h) := fun _ hv => node hv

/-- Sequences that agree are the same if their bisimilar items are. -/
theorem same_of_items (ha : a.IsPlain h) (hb : b.IsPlain h) {bs : List Value} (hm : b.manner h = .items bs)
    (hsame : ∀ y ∈ bs, ∀ x, x.IsPlain h → Bisimilar h x y → x.Same h y) (hab : Bisimilar h a b) :
    a.Same h b := by
  rcases hab.agrees.items hm with rfl | ⟨htype, as, has, hitems⟩
  · exact Same.refl h a
  have hxs := (ha.node.of_items has).2
  have hitems := forall₂_imp_mem (fun x hx y hy => hsame y hy x (hxs x hx)) hitems
  refine (ha.ground.same_iff hb.ground).mpr (.inr ?_)
  rcases ha.node.sequence has with ⟨hta, hfa⟩ | ⟨hta, hfa⟩ <;>
    rcases hb.node.sequence (manner_items hm) with ⟨htb, hfb⟩ | ⟨htb, hfb⟩
  case inl.inl | inr.inr =>
    rw [hfa, hfb]
    exact hitems
  all_goals simp [hta, htb] at htype

/-- Bisimilar data is the same. -/
theorem same (ha : a.IsPlain h) (hb : b.IsPlain h) (hab : Bisimilar h a b) : a.Same h b := by
  -- by the expected value, which says how the pair is taken apart
  unfold IsPlain at hb
  induction hb generalizing a with
  | leaf hb => exact hab.agrees.same hb.manner
  | list hcell hitems ih =>
    exact same_of_items ha (.list hcell hitems) (manner_of_list hcell) (fun y hy x hx => ih y hy hx) hab
  | tuple hcell hitems ih =>
    exact same_of_items ha (.tuple hcell hitems) (manner_of_tuple hcell) (fun y hy x hx => ih y hy hx) hab
  | mapping hcell hdistinct hkeys hvalues _ ih =>
    have hb : IsPlain h _ := .mapping hcell hdistinct hkeys hvalues
    rcases hab.agrees.entries (manner_of_mapping hcell) with rfl | ⟨as, has, hentries⟩
    · exact Same.refl h _
    obtain ⟨-, has', hvalues'⟩ := ha.node.of_entries has
    have hbs := (hb.node.of_entries (manner_entries (manner_of_mapping hcell))).2.1
    obtain ⟨hlength, hpartner⟩ := (entriesAgree_iff_matched has' hbs).mp hentries
    refine (ha.ground.same_iff hb.ground).mpr (.inr ?_)
    obtain ⟨ordered, hface⟩ := face_of_entries has
    rw [hface, face_of_cell hcell]
    refine ⟨hlength, fun e he => ?_⟩
    obtain ⟨e', he', hkey, hvalue⟩ := hpartner e he
    exact ⟨e', he', hkey, ih e he (hvalues' e' he') hvalue⟩
  | set hcell _ _ _ =>
    rcases hab.agrees.ofSet (manner_of_set hcell) with rfl | ⟨-, hequal⟩
    · exact Same.refl h _
    · exact Same.of_equal hequal

/-- Sequences with equal faces agree. -/
theorem agrees_of_items (ha : a.IsPlain h) (hb : b.IsPlain h) {bs : List Value} (hm : b.manner h = .items bs)
    (hface : (a.face h).Equal h (b.face h)) : a.Agrees h (Value.Same h) b := by
  rcases hb.node.sequence (manner_items hm) with ⟨htb, hfb⟩ | ⟨htb, hfb⟩ <;> rw [hfb] at hface
  · obtain ⟨as, hfa, hitems⟩ := hface.of_list
    have has := items_of_face (.inl hfa)
    rcases ha.node.sequence has with ⟨hta, -⟩ | ⟨-, hother⟩
    · exact .sequence hm (hta.trans htb.symm) has hitems
    · simp [hfa] at hother
  · obtain ⟨as, hfa, hitems⟩ := hface.of_tuple
    have has := items_of_face (.inr hfa)
    rcases ha.node.sequence has with ⟨-, hother⟩ | ⟨hta, -⟩
    · simp [hfa] at hother
    · exact .sequence hm (hta.trans htb.symm) has hitems

/-- What is the same agrees, and its parts are the same. -/
theorem agrees (ha : a.IsPlain h) (hb : b.IsPlain h) (hab : a.Same h b) :
    a.Agrees h (fun u v => u.IsPlain h ∧ v.IsPlain h ∧ u.Same h v) b := by
  refine (graph h).agrees_within ha hb ?_
  rcases Value.same_iff.mp hab with rfl | hequal
  · exact .identical a
  rcases (ha.ground.same_iff hb.ground).mp hab with rfl | hface
  · exact .identical a
  unfold IsPlain at hb
  cases hb with
  | leaf hb => exact .leaf hb.manner hequal
  | list hcell hitems => exact agrees_of_items ha (.list hcell hitems) (manner_of_list hcell) hface
  | tuple hcell hitems => exact agrees_of_items ha (.tuple hcell hitems) (manner_of_tuple hcell) hface
  | mapping hcell hdistinct hkeys hvalues =>
    have hb : IsPlain h b := .mapping hcell hdistinct hkeys hvalues
    have hmb := manner_of_mapping hcell
    rw [face_of_cell hcell] at hface
    obtain ⟨ordered, as, hfa, hmatched⟩ := hface.of_mapping
    have has : a.entries? h = some as := by rw [entries?, cell_of_mapping hfa]
    have has' := (ha.node.of_entries has).2.1
    have hbs := (hb.node.of_entries (manner_entries hmb)).2.1
    exact .mapping hmb has ((entriesAgree_iff_matched has' hbs).mpr hmatched)
  | set hcell _ _ =>
    rw [face_of_cell hcell] at hface
    obtain ⟨as, hfa⟩ := hface.of_set
    obtain ⟨frozen, hcella⟩ := cell_of_set hfa
    exact .set (manner_of_set hcell) (by rw [isSet, hcella]) hequal

theorem bisimilar (ha : a.IsPlain h) (hb : b.IsPlain h) (hab : a.Same h b) : Bisimilar h a b :=
  ⟨fun u v => u.IsPlain h ∧ v.IsPlain h ∧ u.Same h v, ⟨ha, hb, hab⟩, fun _ _ huv =>
    agrees huv.1 huv.2.1 huv.2.2⟩

end IsPlain
end Value

/-- On acyclic data of the built-in types, with any sharing of parts, both comparisons answer, and
values are structurally equal if they are identical or `==` holds. -/
theorem deepEqual_iff_equal {a b : Value} (ha : a.IsPlain h) (hb : b.IsPlain h) :
    ∃ r e, a.deepEqual h b = .ok r ∧ a.equal h b = .ok e ∧ (r = true ↔ a = b ∨ e = true) := by
  obtain ⟨r, hr, hiff⟩ := (Value.IsPlain.graph h).deepEqual_iff ha hb
  obtain ⟨e, he⟩ := ha.ground.equal_answers hb.ground
  refine ⟨r, e, hr, he, ?_⟩
  calc r = true
      ↔ Bisimilar h a b := hiff
    _ ↔ a.Same h b := ⟨ha.same hb, ha.bisimilar hb⟩
    _ ↔ a = b ∨ e = true := by rw [Value.same_iff, he, Except.ok.injEq]

/-- Two mappings with the keys `True` and `1.0`. They share a NaN and a list that holds it twice. -/
def Heap.sharing : Heap where
  cells := #[
    .float .nan, .float (.finite false 4503599627370496 (-52)), .list false [.object 0, .object 0],
    .tuple false [.object 2, .object 2], .mapping false [(.bool true, .object 3)],
    .list false [.object 0, .object 0], .tuple false [.object 5, .object 2],
    .mapping false [(.object 1, .object 6)]]

namespace Heap.sharing

theorem nan_plain : (Value.object 0).IsPlain sharing := .leaf (.float rfl)

theorem list_plain {v : Value} (hv : sharing.cell? v = some (.list false [.object 0, .object 0])) :
    v.IsPlain sharing :=
  .list hv (List.forall_mem_cons.mpr ⟨nan_plain, List.forall_mem_singleton.mpr nan_plain⟩)

theorem tuple_plain {v x y : Value} (hv : sharing.cell? v = some (.tuple false [x, y]))
    (hx : x.IsPlain sharing) (hy : y.IsPlain sharing) : v.IsPlain sharing :=
  .tuple hv (List.forall_mem_cons.mpr ⟨hx, List.forall_mem_singleton.mpr hy⟩)

theorem mapping_plain {v k x : Value} (hv : sharing.cell? v = some (.mapping false [(k, x)]))
    (hk : k.IsScalar sharing) (hx : x.IsPlain sharing) : v.IsPlain sharing :=
  .mapping hv (List.pairwise_singleton _ _) (List.forall_mem_singleton.mpr (.leaf hk))
    (List.forall_mem_singleton.mpr hx)

theorem first_plain : (Value.object 4).IsPlain sharing :=
  mapping_plain rfl (.bool true) (tuple_plain rfl (list_plain rfl) (list_plain rfl))

theorem second_plain : (Value.object 7).IsPlain sharing :=
  mapping_plain rfl (.float rfl) (tuple_plain rfl (list_plain rfl) (list_plain rfl))

end Heap.sharing

theorem deepEqual_iff_equal_sharing :
    (Value.object 4).IsPlain .sharing ∧ (Value.object 7).IsPlain .sharing ∧
      (Value.object 4).equal .sharing (.object 7) = .ok true ∧
      (Value.object 4).deepEqual .sharing (.object 7) = .ok true := by
  obtain ⟨r, e, hr, he, hiff⟩ := deepEqual_iff_equal Heap.sharing.first_plain Heap.sharing.second_plain
  have hequal : (Value.object 4).equal .sharing (.object 7) = .ok true := rfl
  rw [hequal] at he
  cases he
  rw [hiff.mpr (.inr rfl)] at hr
  exact ⟨Heap.sharing.first_plain, Heap.sharing.second_plain, hequal, hr⟩

end Exemplar
