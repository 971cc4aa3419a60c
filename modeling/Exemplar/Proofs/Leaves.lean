import Exemplar.Proofs.Wording
import Mathlib.Data.List.Forall2

/-! The text of an argument, leaf by leaf.

An argument is read from left to right down to its leaves: the values that are neither lists nor tuples,
and the empty ones among these. Its text is that of the leaves, joined by commas
(`Value.Leaves.argumentText`), so it does not show where a list begins or ends: one that is not empty may
be replaced by its items wherever it stands (`argumentText_leaves`). -/
namespace Exemplar

/-! ### Lists of lists -/

theorem forall₂_append_left {α β : Type} {R : α → β → Prop} {as bs : List α} {cs : List β} :
    List.Forall₂ R (as ++ bs) cs ↔
      ∃ cs₁ cs₂, cs = cs₁ ++ cs₂ ∧ List.Forall₂ R as cs₁ ∧ List.Forall₂ R bs cs₂ := by
  constructor
  · intro h
    exact ⟨cs.take as.length, cs.drop as.length, (List.take_append_drop ..).symm,
      (List.forall₂_take_append cs as bs h.flip).flip, (List.forall₂_drop_append cs as bs h.flip).flip⟩
  · rintro ⟨cs₁, cs₂, rfl, has, hbs⟩
    exact List.rel_append has hbs

theorem forall₂_unique {α β : Type} {R : α → β → Prop} {as : List α} {bs cs : List β}
    (hR : ∀ a ∈ as, ∀ b c, R a b → R a c → b = c) (hbs : List.Forall₂ R as bs) (hcs : List.Forall₂ R as cs) :
    bs = cs := by
  induction hbs generalizing cs with
  | nil =>
    cases hcs
    rfl
  | cons hb _ ih =>
    obtain ⟨ha, hrest⟩ := List.forall_mem_cons.mp hR
    cases hcs with
    | cons hc hcs => rw [ha _ _ hb hc, ih hrest hcs]

theorem forall₂_right {α β : Type} {R : α → β → Prop} {Q : β → Prop} {as : List α} {bs : List β}
    (hQ : ∀ a ∈ as, ∀ b, R a b → Q b) (h : List.Forall₂ R as bs) : ∀ b ∈ bs, Q b := by
  induction h with
  | nil => simp
  | cons hab _ ih =>
    obtain ⟨ha, hrest⟩ := List.forall_mem_cons.mp hQ
    exact List.forall_mem_cons.mpr ⟨ha _ hab, ih hrest⟩

/-- Texts that are joined part by part, and then the parts, are joined as they stand. No part may be
empty: it would leave a separator of its own. -/
theorem intercalate_flatten (separator : String) {parts : List (List String)} (hparts : ∀ p ∈ parts, p ≠ []) :
    separator.intercalate parts.flatten = separator.intercalate (parts.map separator.intercalate) := by
  induction parts with
  | nil => rfl
  | cons p rest ih =>
    obtain ⟨hp, hrest⟩ := List.forall_mem_cons.mp hparts
    cases rest with
    | nil => simp
    | cons q more =>
      have hflat : (q :: more).flatten ≠ [] := by simp [hrest q List.mem_cons_self]
      rw [List.flatten_cons, String.intercalate_append_of_ne_nil hp hflat, ih hrest]
      simp

namespace Value

variable {h : Heap} {v v' : Value} {items ls : List Value}

/-! ### Leaves -/

/-- Neither a list nor a tuple, or an empty one. -/
def Itemless (h : Heap) (v : Value) : Prop := v.items? h = none ∨ v.items? h = some []

/-- An empty list or tuple has the empty text. -/
def leafText (h : Heap) (v : Value) : Except Failure String :=
  match v.items? h with
  | some _ => .ok ""
  | none => v.toText h

/-- The leaves of a value from left to right: those of its items, one item after the other. -/
inductive Leaves (h : Heap) : Value → List Value → Prop
  | leaf {v : Value} : v.Itemless h → Leaves h v [v]
  | items {v : Value} {items : List Value} {parts : List (List Value)} : v.items? h = some items → items ≠ [] →
      List.Forall₂ (Leaves h) items parts → Leaves h v parts.flatten

theorem Itemless.eq_nil (hv : v.Itemless h) (hitems : v.items? h = some items) : items = [] := by
  rcases hv with hv | hv
  · rw [hv] at hitems
    cases hitems
  · rw [hv] at hitems
    exact (Option.some.inj hitems).symm

theorem Leaves.of_leaf (hv : v.Itemless h) (hl : v.Leaves h ls) : ls = [v] := by
  cases hl with
  | leaf _ => rfl
  | items hitems hne _ => exact absurd (hv.eq_nil hitems) hne

theorem Leaves.of_items (hv : v.items? h = some items) (hne : items ≠ []) (hl : v.Leaves h ls) :
    ∃ parts, ls = parts.flatten ∧ List.Forall₂ (Leaves h) items parts := by
  cases hl with
  | leaf hleaf => exact absurd (hleaf.eq_nil hv) hne
  | items hitems _ hparts =>
    obtain rfl := Option.some.inj (hv.symm.trans hitems)
    exact ⟨_, rfl, hparts⟩

theorem itemless_or_items (h : Heap) (v : Value) :
    v.Itemless h ∨ ∃ items, v.items? h = some items ∧ items ≠ [] := by
  unfold Itemless
  cases hv : v.items? h with
  | none => exact .inl (.inl rfl)
  | some items =>
    by_cases hempty : items = []
    · exact .inl (.inr (by rw [hempty]))
    · exact .inr ⟨items, rfl, hempty⟩

theorem acc_of_items (hv : v.items? h = some items) (hitems : ∀ x ∈ items, Acc (ItemOf h) x) :
    Acc (ItemOf h) v := by
  refine .intro v fun x hx => ?_
  obtain ⟨items', hv', hmem⟩ := hx
  obtain rfl := Option.some.inj (hv.symm.trans hv')
  exact hitems x hmem

/-- A value that is not inside itself has leaves. -/
theorem exists_leaves (hv : Acc (ItemOf h) v) : ∃ leaves, v.Leaves h leaves := by
  induction hv with
  | intro v _ ih =>
    rcases itemless_or_items h v with hleaf | ⟨items, hitems, hne⟩
    · exact ⟨[v], .leaf hleaf⟩
    · choose! part hpart using ih
      refine ⟨(items.map part).flatten, .items hitems hne ?_⟩
      rw [List.forall₂_map_right_iff, List.forall₂_same]
      exact fun x hx => hpart x ⟨items, hitems, hx⟩

/-- It has no others. -/
theorem Leaves.unique (hl : v.Leaves h ls) (hv : Acc (ItemOf h) v) {others : List Value}
    (ho : v.Leaves h others) : ls = others := by
  induction hv generalizing ls others with
  | intro v _ ih =>
    rcases itemless_or_items h v with hleaf | ⟨items, hitems, hne⟩
    · rw [hl.of_leaf hleaf, ho.of_leaf hleaf]
    · obtain ⟨parts, rfl, hparts⟩ := hl.of_items hitems hne
      obtain ⟨parts', rfl, hparts'⟩ := ho.of_items hitems hne
      have hsame : parts = parts' :=
        forall₂_unique (fun x hx _ _ hp hq => ih x ⟨items, hitems, hx⟩ hp hq) hparts hparts'
      rw [hsame]

theorem Leaves.ne_nil (hl : v.Leaves h ls) (hv : Acc (ItemOf h) v) : ls ≠ [] := by
  induction hv generalizing ls with
  | intro v _ ih =>
    rcases itemless_or_items h v with hleaf | ⟨items, hitems, hne⟩
    · rw [hl.of_leaf hleaf]
      exact List.cons_ne_nil _ _
    · obtain ⟨parts, rfl, hparts⟩ := hl.of_items hitems hne
      cases hparts with
      | nil => exact absurd rfl hne
      | cons hp _ => simp [ih _ ⟨_, hitems, List.mem_cons_self⟩ hp]

/-! ### Texts -/

/-- The text of a value that is not inside itself is that of its items, joined. -/
theorem argumentText_of_acc (hv : Acc (ItemOf h) v) : v.argumentText h =
    match v.items? h with
    | some items => (items.mapM (argumentText h)).map (String.intercalate argumentSeparator)
    | none => v.toText h := by
  have hdeeper : v.argumentText h = v.argumentTextIn h (h.size + 2) :=
    ((encloses_itemOf h).nests hv).agree (F := fun n v => v.argumentTextIn h n)
      (G := fun n v => v.argumentTextIn h n) (fun {m n v} hx => ?_) (by omega) (by omega)
  · rw [hdeeper, argumentTextIn]
    cases v.items? h <;> rfl
  · simp only [argumentTextIn]
    cases hitems : v.items? h with
    | none => rfl
    | some items =>
      have hall : items.mapM (argumentTextIn h m) = items.mapM (argumentTextIn h n) :=
        mapM_eq_of_forall₂ (List.forall₂_same.mpr fun x hmem => hx x ⟨items, hitems, hmem⟩)
      simp only [hall]

theorem argumentText_leaf (hv : v.Itemless h) : v.argumentText h = v.leafText h := by
  have hnone : ∀ x, ¬ItemOf h x v := by
    rintro x ⟨items, hitems, hx⟩
    rw [hv.eq_nil hitems] at hx
    exact List.not_mem_nil hx
  rw [argumentText_of_acc (.intro v fun x hx => absurd hx (hnone x)), leafText]
  rcases hv with hv | hv
  · rw [hv]
  · rw [hv]
    rfl

/-- The text of an argument is that of its leaves, joined. -/
theorem Leaves.argumentText (hl : v.Leaves h ls) (hv : Acc (ItemOf h) v) :
    v.argumentText h = (ls.mapM (leafText h)).map (String.intercalate argumentSeparator) := by
  induction hv generalizing ls with
  | intro v hacc ih =>
    rcases itemless_or_items h v with hleaf | ⟨items, hitems, hne⟩
    · rw [hl.of_leaf hleaf, argumentText_leaf hleaf, List.mapM_cons]
      cases v.leafText h with
      | error f => rfl
      | ok text => exact congrArg Except.ok (String.intercalate_singleton).symm
    · obtain ⟨parts, rfl, hparts⟩ := hl.of_items hitems hne
      have hinside : ∀ x ∈ items, ItemOf h x v := fun x hx => ⟨items, hitems, hx⟩
      have hread : List.Forall₂ (fun x (part : List Value) => x.argumentText h =
          (part.mapM (leafText h)).map (String.intercalate argumentSeparator)) items parts :=
        ((List.forall₂_and_left _ _).mpr ⟨hinside, hparts⟩).imp fun x part hx => ih x hx.1 hx.2
      have hall : items.mapM (argumentText h) =
          (parts.mapM (List.mapM (leafText h))).map (List.map (String.intercalate argumentSeparator)) :=
        (mapM_eq_of_forall₂ hread).trans (mapM_map fun _ _ => rfl)
      have hflat : parts.flatten.mapM (leafText h) = (parts.mapM (List.mapM (leafText h))).map List.flatten := by
        rw [← List.flatMap_id]
        exact mapM_flatMap parts
      rw [argumentText_of_acc (.intro v hacc), hitems, hflat]
      simp only [hall]
      cases htexts : parts.mapM (List.mapM (leafText h)) with
      | error f => rfl
      | ok texts =>
        -- every item has a leaf, so that no text is missing between two separators
        have hfull : ∀ part ∈ parts, part ≠ [] :=
          forall₂_right (fun x hx part hpart => hpart.ne_nil (hacc x (hinside x hx))) hparts
        have hwritten : ∀ text ∈ texts, text ≠ [] :=
          forall₂_right (fun part hpart text htext hempty => hfull part hpart ?_) (mapM_forall₂ htexts)
        · exact congrArg Except.ok (intercalate_flatten argumentSeparator hwritten).symm
        · rw [hempty] at htext
          exact List.length_eq_zero_iff.mp (mapM_forall₂ htext).length_eq

/-! ### Replacing an item by its own -/

/-- The value `v'` is `v` but for one list or tuple in it, not an empty one, whose items stand in its
place. -/
inductive Opened (h : Heap) : Value → Value → Prop
  | item {v v' w : Value} {before inner after : List Value} : v.items? h = some (before ++ w :: after) →
      w.items? h = some inner → inner ≠ [] → v'.items? h = some (before ++ inner ++ after) → Opened h v v'
  | inside {v v' w w' : Value} {before after : List Value} : v.items? h = some (before ++ w :: after) →
      Opened h w w' → v'.items? h = some (before ++ w' :: after) → Opened h v v'

namespace Opened

/-- The leaves stay, in their order. -/
theorem leaves (ho : v.Opened h v') (hl : v.Leaves h ls) : v'.Leaves h ls := by
  induction ho generalizing ls with
  | @item v v' w before inner after hv hw hne hv' =>
    obtain ⟨parts, rfl, hparts⟩ := hl.of_items hv (by simp)
    obtain ⟨first, rest, rfl, hbefore, hrest⟩ := forall₂_append_left.mp hparts
    cases hrest with
    | @cons _ part _ last hpart hafter =>
      obtain ⟨parts', rfl, hinner⟩ := hpart.of_items hw hne
      have hitems : List.Forall₂ (Leaves h) (before ++ inner ++ after) (first ++ parts' ++ last) :=
        List.rel_append (List.rel_append hbefore hinner) hafter
      simpa using Leaves.items hv' (by simp [hne]) hitems
  | @inside v v' w w' before after hv _ hv' ih =>
    obtain ⟨parts, rfl, hparts⟩ := hl.of_items hv (by simp)
    obtain ⟨first, rest, rfl, hbefore, hrest⟩ := forall₂_append_left.mp hparts
    cases hrest with
    | cons hpart hafter => exact .items hv' (by simp) (List.rel_append hbefore (.cons (ih hpart) hafter))

/-- Nothing comes to be inside itself. -/
theorem acc (ho : v.Opened h v') (hv : Acc (ItemOf h) v) : Acc (ItemOf h) v' := by
  induction ho with
  | @item v v' w before inner after hitems hw _ hv' =>
    have hinside : ∀ x ∈ before ++ w :: after, Acc (ItemOf h) x := fun x hx => hv.inv ⟨_, hitems, hx⟩
    refine acc_of_items hv' ?_
    simp only [List.forall_mem_append, List.forall_mem_cons] at hinside ⊢
    obtain ⟨hbefore, hacc, hafter⟩ := hinside
    exact ⟨⟨hbefore, fun x hx => hacc.inv ⟨inner, hw, hx⟩⟩, hafter⟩
  | @inside v v' w w' before after hitems _ hv' ih =>
    have hinside : ∀ x ∈ before ++ w :: after, Acc (ItemOf h) x := fun x hx => hv.inv ⟨_, hitems, hx⟩
    refine acc_of_items hv' ?_
    simp only [List.forall_mem_append, List.forall_mem_cons] at hinside ⊢
    exact hinside.imp_right fun ⟨hacc, hafter⟩ => ⟨ih hacc, hafter⟩

end Opened

end Value

/-- An argument that is not inside itself has leaves, and no others. Its text is that of the leaves from
left to right, joined by commas, an empty list or tuple having the empty text; if a leaf has no text, the
argument has none for the same reason. So a list or tuple in it that is not empty may be replaced by its
items without a change of the text. -/
theorem argumentText_leaves {h : Heap} {v : Value} (hv : Acc (Value.ItemOf h) v) :
    ∃ leaves, (∀ ls, v.Leaves h ls ↔ ls = leaves) ∧
      v.argumentText h = (leaves.mapM (Value.leafText h)).map (String.intercalate ",") ∧
      ∀ v', v.Opened h v' → v'.argumentText h = v.argumentText h := by
  obtain ⟨leaves, hleaves⟩ := Value.exists_leaves hv
  have htext := hleaves.argumentText hv
  have hunique (ls : List Value) : v.Leaves h ls ↔ ls = leaves :=
    ⟨fun hls => hls.unique hv hleaves, fun hls => hls ▸ hleaves⟩
  refine ⟨leaves, hunique, htext, fun v' ho => ?_⟩
  rw [htext]
  exact (ho.leaves hleaves).argumentText (ho.acc hv)

/-- A list in a list of its own class, an empty tuple beside it, and both once more without the inner list. -/
def Heap.nested : Heap where
  cells := #[.list false [.int 1, .int 2], .tuple false [], .list true [.object 0, .object 1, .text "x"],
    .tuple false [.int 1, .int 2, .object 1, .text "x"], .list false [.object 2, .bool true],
    .list false [.object 3, .bool true]]

theorem argumentText_leaves_nested :
    Acc (Value.ItemOf .nested) (.object 4) ∧
    (Value.object 4).Leaves .nested [.int 1, .int 2, .object 1, .text "x", .bool true] ∧
    (Value.object 4).argumentText .nested = .ok "1,2,,x,True" ∧
    (Value.object 4).Opened .nested (.object 5) ∧ (Value.object 5).argumentText .nested = .ok "1,2,,x,True" := by
  have hacc : Acc (Value.ItemOf .nested) (.object 4) := (Value.renders_iff_leaves.mp (by decide)).1
  have hone : (Value.object 0).Leaves .nested [.int 1, .int 2] :=
    .items (show (Value.object 0).items? .nested = some [.int 1, .int 2] from rfl) (by decide)
      (.cons (.leaf (.inl rfl)) (.cons (.leaf (.inl rfl)) .nil))
  have htwo : (Value.object 2).Leaves .nested [.int 1, .int 2, .object 1, .text "x"] :=
    .items (show (Value.object 2).items? .nested = some [.object 0, .object 1, .text "x"] from rfl) (by decide)
      (.cons hone (.cons (.leaf (.inr rfl)) (.cons (.leaf (.inl rfl)) .nil)))
  have hleaves : (Value.object 4).Leaves .nested [.int 1, .int 2, .object 1, .text "x", .bool true] :=
    .items (show (Value.object 4).items? .nested = some [.object 2, .bool true] from rfl) (by decide)
      (.cons htwo (.cons (.leaf (.inl rfl)) .nil))
  have hopened : (Value.object 2).Opened .nested (.object 3) :=
    .item (show (Value.object 2).items? .nested = some ([] ++ .object 0 :: [.object 1, .text "x"]) from rfl)
      (show (Value.object 0).items? .nested = some [.int 1, .int 2] from rfl) (by decide) rfl
  have hinside : (Value.object 4).Opened .nested (.object 5) :=
    .inside (show (Value.object 4).items? .nested = some ([] ++ .object 2 :: [.bool true]) from rfl) hopened rfl
  obtain ⟨leaves, hunique, htext, hsame⟩ := argumentText_leaves hacc
  obtain rfl := (hunique _).mp hleaves
  exact ⟨hacc, hleaves, htext, hinside, (hsame _ hinside).trans htext⟩

end Exemplar
