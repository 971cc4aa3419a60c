import Exemplar.Proofs.Store
import Mathlib.Data.List.Forall2

/-! Elements, made by their models.

A model makes an element out of data or refuses with everything that is wrong. Making adds objects
and changes none, and the definitions of verbs among them have names that verbs may have
(`Schema.Model.make_grown`). An element that is made holds what its fields accepted
(`Schema.Model.makeIn_ok`), and it is made if all fields accept (`Schema.Model.makeIn_accepts`). -/
namespace Exemplar

namespace Heap

/-- Every object of `h` is in `h'` as it was. -/
def Extends (h h' : Heap) : Prop := ∀ r c, h.get? r = some c → h'.get? r = some c

theorem Extends.refl (h : Heap) : h.Extends h := fun _ _ hc => hc

theorem Extends.trans {h₁ h₂ h₃ : Heap} (a : h₁.Extends h₂) (b : h₂.Extends h₃) : h₁.Extends h₃ :=
  fun r c hc => b r c (a r c hc)

theorem extends_alloc (h : Heap) (c : Cell) : h.Extends (h.alloc c).1 := fun r c' hr => by
  rw [get?_alloc_of_lt (get?_lt hr)]
  exact hr

theorem Extends.size_le {h h' : Heap} (he : h.Extends h') : h.size ≤ h'.size := by
  by_contra hlt
  have hr : h'.size < h.cells.size := Nat.lt_of_not_le hlt
  exact Nat.lt_irrefl _ (get?_lt (he h'.size h.cells[h'.size] (Array.getElem?_eq_getElem hr)))

theorem Extends.kept {h h' : Heap} (e : h.Extends h') : h.Kept h' := fun r c hc => ⟨c, e r c hc, rfl⟩

/-- The store has the object that the value names, if it names one. -/
def Knows (h : Heap) (v : Value) : Prop := ∀ r, v = .object r → r < h.size

theorem Extends.cell?_some {h h' : Heap} (e : h.Extends h') {v : Value} {c : Cell}
    (hc : h.cell? v = some c) : h'.cell? v = some c := by
  cases v with
  | object r => exact e r c hc
  | _ => cases hc

theorem Extends.cell?_eq {h h' : Heap} (e : h.Extends h') {v : Value} (hv : h.Knows v) :
    h'.cell? v = h.cell? v := by
  cases v with
  | object r =>
    obtain ⟨c, hc⟩ : ∃ c, h.get? r = some c := ⟨_, Array.getElem?_eq_getElem (hv r rfl)⟩
    exact (e r c hc).trans hc.symm
  | _ => rfl

theorem Extends.items? {h h' : Heap} (e : h.Extends h') {v : Value} {items : List Value}
    (hv : v.items? h = some items) : v.items? h' = some items := by
  cases hc : h.cell? v with
  | none => simp [Value.items?, hc] at hv
  | some c => simpa [Value.items?, hc, e.cell?_some hc] using hv

end Heap

/-! ### Names of verbs -/

/-- All names of the definition are names that verbs may have. -/
def Definition.WellNamed (d : Definition) : Prop := ∀ name ∈ d.names, Schema.isName name = true

/-- A list of names that verbs may have. -/
def Schema.Naming (h : Heap) (v : Value) : Prop :=
  ∃ names : List String, v.items? h = some (names.map .text) ∧ ∀ name ∈ names, isName name = true

/-- The fields of a definition of a verb, with names that verbs may have. -/
structure Schema.Named (h : Heap) (fields : List (String × Value)) : Prop where
  name : ∃ name, fields.lookup "name" = some (.text name) ∧ isName name = true
  aliases : ∃ v, fields.lookup "aliases" = some v ∧ Naming h v

/-- The definitions of verbs in the store have names that verbs may have. -/
def Heap.WellNamed (h : Heap) : Prop :=
  ∀ r fields, h.get? r = some (.element "Assertion" fields) → Schema.Named h fields

/-- Objects were added to the store, and no script or definition with other names. -/
structure Heap.Grown (h h' : Heap) : Prop where
  objects : h.Extends h'
  names : h.WellNamed → h'.WellNamed
  scripts : ∀ r steps, h'.script? r = some steps → h.script? r = some steps

namespace Heap

theorem Grown.refl (h : Heap) : h.Grown h := ⟨.refl h, id, fun _ _ => id⟩

theorem Grown.trans {h₁ h₂ h₃ : Heap} (a : h₁.Grown h₂) (b : h₂.Grown h₃) : h₁.Grown h₃ :=
  ⟨a.objects.trans b.objects, b.names ∘ a.names,
    fun r steps hr => a.scripts r steps (b.scripts r steps hr)⟩

theorem Grown.inert {h h' : Heap} (g : h.Grown h') : h.Inert h' := ⟨g.objects.kept, g.scripts⟩

theorem Extends.named {h h' : Heap} (e : h.Extends h') {fields : List (String × Value)}
    (hn : Schema.Named h fields) : Schema.Named h' fields := by
  obtain ⟨hname, v, hv, names, hitems, hall⟩ := hn
  exact ⟨hname, v, hv, names, e.items? hitems, hall⟩

/-- An object is added, with the right names if it is a definition of a verb. -/
theorem grown_alloc {h : Heap} {c : Cell}
    (hs : c.script? = none) (hc : ∀ fields, c = .element "Assertion" fields → Schema.Named h fields) :
    h.Grown (h.alloc c).1 where
  objects := h.extends_alloc c
  scripts := (h.inert_alloc hs).scripts
  names hn r fields hr := by
    have hlt := get?_lt hr
    have hle : r ≤ h.size := Nat.le_of_lt_succ (by simpa [alloc, size] using hlt)
    rcases Nat.lt_or_eq_of_le hle with hold | rfl
    · rw [get?_alloc_of_lt hold] at hr
      exact (h.extends_alloc c).named (hn r fields hr)
    · rw [get?_alloc_self] at hr
      exact (h.extends_alloc c).named (hc fields (Option.some.inj hr))

end Heap

/-! ### Making -/

namespace Schema

/-- What is known of a function that checks values against types. -/
structure Making (make : Heap → FieldType → Value → Made) : Prop where
  grown : ∀ (h : Heap) t v, h.Grown (make h t v).1
  refused : ∀ {h t v issues}, (make h t v).2 = .error issues → issues ≠ []
  name : ∀ {h v w}, (make h .name v).2 = .ok w → ∃ s, w = .text s ∧ isName s = true
  names : ∀ {h v w}, (make h (.list .name) v).2 = .ok w → Naming (make h (.list .name) v).1 w

section Parts

variable {make : Heap → FieldType → Value → Made}

theorem makeItems_grown {make : Heap → Value → Made} (hmake : ∀ (h : Heap) v, h.Grown (make h v).1)
    (index : Nat) (h : Heap) (vs : List Value) : h.Grown (makeItems make index h vs).1 := by
  induction vs generalizing index h with
  | nil => exact .refl h
  | cons v rest ih =>
    have hrest := (hmake h v).trans (ih (index + 1) (make h v).1)
    simp only [makeItems]
    split <;> exact hrest

/-- Without an issue, every item was accepted. -/
theorem makeItems_ok {make : Heap → Value → Made} {P : Value → Prop}
    (hrefused : ∀ {h v issues}, (make h v).2 = .error issues → issues ≠ [])
    (hP : ∀ {h v w}, (make h v).2 = .ok w → P w) (index : Nat) (h : Heap) (vs : List Value)
    (hok : (makeItems make index h vs).2.1 = []) : ∀ w ∈ (makeItems make index h vs).2.2, P w := by
  induction vs generalizing index h with
  | nil => exact fun _ hw => absurd hw List.not_mem_nil
  | cons v rest ih =>
    have hrest := ih (index + 1) (make h v).1
    simp only [makeItems] at hok ⊢
    split at hok
    · rename_i w hw
      simp only [List.mem_cons, forall_eq_or_imp]
      exact ⟨hP hw, hrest hok⟩
    · rename_i found hfound
      simp only [below, List.append_eq_nil_iff, List.map_eq_nil_iff] at hok
      exact absurd hok.1 (hrefused hfound)

theorem makeDefault_grown (h : Heap) (d : Default) : h.Grown (makeDefault h d).1 := by
  cases d with
  | emptyList | emptyTuple => exact Heap.grown_alloc rfl nofun
  | _ => exact .refl h

theorem makeField_given {data v : Value} {entries : List (Value × Value)} {h : Heap} {f : Field}
    (hv : entry? h entries f.name = some v) : makeField make data entries h f = make h f.type v := by
  simp only [makeField, hv]

variable (hmake : Making make) (data : Value) (entries : List (Value × Value))
include hmake

theorem makeField_grown (h : Heap) (f : Field) : h.Grown (makeField make data entries h f).1 := by
  simp only [makeField]
  split
  · exact hmake.grown h f.type _
  · exact .refl h
  · exact makeDefault_grown h _

theorem makeField_refused {h : Heap} {f : Field} {issues : List Issue}
    (he : (makeField make data entries h f).2 = .error issues) : issues ≠ [] := by
  simp only [makeField] at he
  split at he
  · exact hmake.refused he
  · cases he
    simp
  · cases he

theorem makeFields_grown (h : Heap) (fields : List Field) :
    h.Grown (makeFields make data entries h fields).1 := by
  induction fields generalizing h with
  | nil => exact .refl h
  | cons f rest ih =>
    have hrest := (makeField_grown hmake data entries h f).trans (ih _)
    simp only [makeFields]
    split <;> exact hrest

/-- A field of an element that is made: its value was accepted on the way from `h₀` to `h'`. -/
def Holds (make : Heap → FieldType → Value → Made) (data : Value) (entries : List (Value × Value))
    (h₀ h' : Heap) (f : Field) (held : String × Value) : Prop :=
  held.1 = f.name ∧ ∃ h, h₀.Extends h ∧ (makeField make data entries h f).2 = .ok held.2 ∧
    (makeField make data entries h f).1.Extends h'

/-- Without an issue, every field holds what was made for it. -/
theorem makeFields_ok {h₀ h : Heap} (h₀h : h₀.Extends h) (fields : List Field)
    (hok : (makeFields make data entries h fields).2.1 = []) :
    List.Forall₂ (Holds make data entries h₀ (makeFields make data entries h fields).1) fields
      (makeFields make data entries h fields).2.2 := by
  induction fields generalizing h with
  | nil => exact .nil
  | cons f rest ih =>
    have hfield := makeField_grown hmake data entries h f
    have hrest := ih (h₀h.trans hfield.objects)
    have hgrown := makeFields_grown hmake data entries (makeField make data entries h f).1 rest
    simp only [makeFields] at hok ⊢
    split at hok
    · rename_i v hv
      exact .cons ⟨rfl, h, h₀h, hv, hgrown.objects⟩ (hrest hok)
    · rename_i found hfound
      simp only [below, List.append_eq_nil_iff, List.map_eq_nil_iff] at hok
      exact absurd hok.1 (makeField_refused hmake data entries hfound)

/-- There is no issue if every field accepts. -/
theorem makeFields_accept {h₀ h : Heap} (h₀h : h₀.Extends h) (fields : List Field)
    (hall : ∀ f ∈ fields, ∀ h, h₀.Extends h → ∃ v, (makeField make data entries h f).2 = .ok v) :
    (makeFields make data entries h fields).2.1 = [] := by
  induction fields generalizing h with
  | nil => rfl
  | cons f rest ih =>
    obtain ⟨v, hv⟩ := hall f List.mem_cons_self h h₀h
    have hfield := makeField_grown hmake data entries h f
    simp only [makeFields, hv]
    exact ih (h₀h.trans hfield.objects) fun g hg => hall g (List.mem_cons_of_mem f hg)

omit hmake in
/-- A field of the element is found under its name. -/
theorem Holds.lookup {h₀ h' : Heap} {fields : List Field} {held : List (String × Value)}
    (hfields : List.Forall₂ (Holds make data entries h₀ h') fields held)
    (hnodup : (fields.map (·.name)).Nodup) {f : Field} (hf : f ∈ fields) :
    ∃ v, held.lookup f.name = some v ∧ Holds make data entries h₀ h' f (f.name, v) := by
  induction hfields with
  | nil => exact absurd hf List.not_mem_nil
  | @cons g p rest held' hhead _ ih =>
    obtain ⟨hnew, hrest⟩ := List.nodup_cons.mp hnodup
    obtain ⟨n, v⟩ := p
    obtain rfl : n = g.name := hhead.1
    rcases List.mem_cons.mp hf with rfl | hmem
    · exact ⟨v, List.lookup_cons_self, hhead⟩
    · have hne : f.name ≠ g.name := fun he => hnew (List.mem_map.mpr ⟨f, hmem, he⟩)
      obtain ⟨w, hw, hholds⟩ := ih hrest hmem
      exact ⟨w, by rw [List.lookup_cons, beq_eq_false_iff_ne.mpr hne]; exact hw, hholds⟩

/-- An element that is made has the fields of its model, and there is nothing more in the data. -/
theorem Model.makeIn_ok {m : Model} {h : Heap} {v : Value}
    (hv : (m.makeIn make h data entries).2 = .ok v) :
    ∃ held h', h.Extends h' ∧ h'.Extends (m.makeIn make h data entries).1 ∧
      (m.makeIn make h data entries).1.cell? v = some (.element m.name held) ∧
      List.Forall₂ (Holds make data entries h h') m.fields held := by
  have hgrown := makeFields_grown hmake data entries h m.fields
  have hfields := makeFields_ok hmake data entries (.refl h) m.fields
  simp only [Model.makeIn] at hv ⊢
  split at hv
  · rename_i hnone
    obtain rfl := Except.ok.inj hv
    exact ⟨_, _, hgrown.objects, Heap.extends_alloc _ _, Heap.get?_alloc_self _ _,
      hfields (List.append_eq_nil_iff.mp hnone).1⟩
  · cases hv

/-- An element is made if every field accepts and there is nothing more in the data. -/
theorem Model.makeIn_accepts {m : Model} {h : Heap}
    (hall : ∀ f ∈ m.fields, ∀ h', h.Extends h' → ∃ v, (makeField make data entries h' f).2 = .ok v)
    (hnone : ∀ (h' : Heap) e, e ∈ entries → surplus? m h' e.1 e.2 = none) :
    ∃ v, (m.makeIn make h data entries).2 = .ok v := by
  have hfields := makeFields_accept hmake data entries (.refl h) m.fields hall
  have hsurplus := List.filterMap_eq_nil_iff.mpr (hnone (makeFields make data entries h m.fields).1)
  simp only [Model.makeIn]
  split
  · exact ⟨_, rfl⟩
  · rename_i hissues
    exact absurd (List.append_eq_nil_iff.mpr ⟨hfields, hsurplus⟩) hissues

/-- The names of a definition of a verb that is made may be names of verbs. -/
theorem assertion_named {h₀ h' : Heap} {held : List (String × Value)}
    (hfields : List.Forall₂ (Holds make data entries h₀ h') assertion.fields held) : Named h' held := by
  have hnodup : (assertion.fields.map (·.name)).Nodup := by decide
  obtain ⟨v, hv, -, h₁, -, hname, -⟩ := Holds.lookup data entries hfields hnodup
    (f := ⟨"name", .name, .required⟩) (by simp [assertion])
  obtain ⟨w, hw, -, h₂, -, haliases, hlater⟩ := Holds.lookup data entries hfields hnodup
    (f := ⟨"aliases", .list .name, .emptyList⟩) (by simp [assertion])
  refine ⟨?_, w, hw, ?_⟩
  · cases hgiven : entry? h₁ entries "name" with
    | none => simp [makeField, hgiven, refuse] at hname
    | some u =>
      simp only [makeField, hgiven] at hname
      obtain ⟨name, rfl, hok⟩ := hmake.name hname
      exact ⟨name, hv, hok⟩
  · cases hgiven : entry? h₂ entries "aliases" with
    | none =>
      simp only [makeField, hgiven] at haliases hlater
      obtain rfl : Value.object h₂.size = w := Except.ok.inj haliases
      refine ⟨[], hlater.items? ?_, nofun⟩
      simp [makeDefault, Value.items?, Heap.cell?, Heap.alloc, Heap.get?, Heap.size]
    | some u =>
      simp only [makeField, hgiven] at haliases hlater
      obtain ⟨names, hitems, hall⟩ := hmake.names haliases
      exact ⟨names, hlater.items? hitems, hall⟩

/-- Making an element adds objects. -/
theorem Model.makeIn_grown {m : Model} (hm : m.name = "Assertion" → m = assertion) (h : Heap) :
    h.Grown (m.makeIn make h data entries).1 := by
  have hgrown := makeFields_grown hmake data entries h m.fields
  have hfields := makeFields_ok hmake data entries (.refl h) m.fields
  simp only [Model.makeIn]
  split
  · rename_i hnone
    refine hgrown.trans (Heap.grown_alloc rfl fun fields hc => ?_)
    obtain ⟨hname, rfl⟩ := Cell.element.inj hc
    obtain rfl := hm hname
    exact assertion_named hmake data entries (hfields (List.append_eq_nil_iff.mp hnone).1)
  · exact hgrown

end Parts

theorem ofChecked_heap {α : Type} (h : Heap) (v : Value) (make : α → Value) (c : Checked α) :
    (ofChecked h v make c).1 = h := by
  cases c <;> rfl

theorem collect_grown {h : Heap} {found : Heap × List Issue × List Value} (g : h.Grown found.1)
    {cell : List Value → Cell} (hs : ∀ vs, (cell vs).script? = none)
    (hcell : ∀ vs fields, cell vs ≠ .element "Assertion" fields) :
    h.Grown (makeValue.collect found cell).1 := by
  obtain ⟨h', issues, vs⟩ := found
  cases issues with
  | nil => exact g.trans (Heap.grown_alloc (hs vs) fun fields hc => absurd hc (hcell vs fields))
  | cons _ _ => exact g

theorem collect_refused {found : Heap × List Issue × List Value} {cell : List Value → Cell}
    {issues : List Issue} (he : (makeValue.collect found cell).2 = .error issues) : issues ≠ [] := by
  obtain ⟨h', _ | ⟨i, rest⟩, vs⟩ := found
  · cases he
  · obtain rfl := Except.error.inj he
    exact List.cons_ne_nil i rest

theorem ofChecked_refused {α : Type} {h : Heap} {v : Value} {make : α → Value} {c : Checked α}
    {issues : List Issue} (he : (ofChecked h v make c).2 = .error issues) : issues ≠ [] := by
  cases c with
  | ok a => cases he
  | error kind =>
    obtain rfl := Except.error.inj he
    exact List.cons_ne_nil _ _

theorem Model.makeIn_refused {make : Heap → FieldType → Value → Made} {m : Model} {h : Heap}
    {data : Value} {entries : List (Value × Value)} {issues : List Issue}
    (he : (m.makeIn make h data entries).2 = .error issues) : issues ≠ [] := by
  simp only [Model.makeIn] at he
  split at he
  · cases he
  · rename_i hne
    obtain rfl := Except.error.inj he
    exact hne

theorem model?_assertion {name : String} {m : Model} (hm : model? name = some m)
    (hname : m.name = "Assertion") : m = assertion := by
  have hmem : m ∈ models := List.mem_of_find?_eq_some hm
  simp only [models, List.mem_cons, List.not_mem_nil, or_false] at hmem
  rcases hmem with rfl | rfl | rfl | rfl | rfl | rfl | rfl | rfl | rfl
  · rfl
  all_goals exact absurd hname (by decide)

theorem name_ok {h : Heap} {v : Value} {s : String} (hs : name h v = .ok s) : isName s = true := by
  unfold name at hs
  cases htext : text h v with
  | error kind =>
    rw [htext] at hs
    cases hs
  | ok s' =>
    simp only [htext, bind, Except.bind, pure, Except.pure, throw, throwThe, MonadExceptOf.throw] at hs
    split at hs
    · rename_i hok
      obtain rfl := Except.ok.inj hs
      exact hok
    · cases hs

/-- A list that is made of texts that are names. -/
theorem collect_names {found : Heap × List Issue × List Value} {w : Value}
    (hall : found.2.1 = [] → ∀ v ∈ found.2.2, ∃ s, v = .text s ∧ isName s = true)
    (hw : (makeValue.collect found (.list false)).2 = .ok w) :
    Naming (makeValue.collect found (.list false)).1 w := by
  obtain ⟨h, _ | ⟨i, rest⟩, vs⟩ := found
  · obtain rfl : Value.object h.size = w := Except.ok.inj hw
    have htexts : ∀ vs : List Value, (∀ v ∈ vs, ∃ s, v = .text s ∧ isName s = true) →
        ∃ names : List String, vs = names.map .text ∧ ∀ name ∈ names, isName name = true := by
      intro vs hvs
      induction vs with
      | nil => exact ⟨[], rfl, nofun⟩
      | cons v rest ih =>
        obtain ⟨⟨s, rfl, hs⟩, hrest⟩ := List.forall_mem_cons.mp hvs
        obtain ⟨names, rfl, hnames⟩ := ih hrest
        exact ⟨s :: names, rfl, List.forall_mem_cons.mpr ⟨hs, hnames⟩⟩
    obtain ⟨names, rfl, hnames⟩ := htexts vs (hall rfl)
    refine ⟨names, ?_, hnames⟩
    simp [makeValue.collect, Value.items?, Heap.cell?, Heap.alloc, Heap.get?, Heap.size]
  · cases hw

/-- Checking a value adds objects, and refuses for a reason. -/
theorem makeValue_making (depth : Nat) : Making (makeValue depth) := by
  induction depth with
  | zero =>
    exact ⟨fun h _ _ => .refl h, fun he => by cases he; simp, nofun, nofun⟩
  | succ depth ih =>
    refine ⟨fun h t v => ?_, fun {h t v issues} he => ?_, fun {h v w} hw => ?_, fun {h v w} hw => ?_⟩
    · cases t with
      | list item | tuple item =>
        simp only [makeValue]
        split
        · exact .refl h
        · exact collect_grown (makeItems_grown (fun h v => ih.grown h item v) 0 h _) (fun _ => rfl) nofun
      | element m =>
        simp only [makeValue]
        split
        · split <;> exact .refl h
        · rename_i hm
          exact Model.makeIn_grown ih _ _ (model?_assertion hm) h
        · exact .refl h
      | _ => simp only [makeValue, ofChecked_heap, Heap.Grown.refl]
    · cases t with
      | list item | tuple item =>
        simp only [makeValue] at he
        split at he
        · cases he
          simp
        · exact collect_refused he
      | element m =>
        simp only [makeValue] at he
        split at he
        · split at he
          · cases he
          · cases he
            simp
        · exact Model.makeIn_refused he
        · cases he
          simp
      | _ => exact ofChecked_refused he
    · cases hs : name h v with
      | error kind =>
        simp only [makeValue, hs] at hw
        cases hw
      | ok s =>
        simp only [makeValue, hs] at hw
        obtain rfl := Except.ok.inj hw
        exact ⟨s, rfl, name_ok hs⟩
    · simp only [makeValue] at hw ⊢
      split at hw
      · cases hw
      · exact collect_names (makeItems_ok ih.refused ih.name 0 h _) hw

theorem Model.make_grown {m : Model} (hm : m.name = "Assertion" → m = assertion) (h : Heap)
    (data : List (String × Value)) : h.Grown (m.make h data).1 := by
  have hwhole : h.Grown (h.alloc (.mapping false (data.map fun d => (Value.text d.1, d.2)))).1 :=
    Heap.grown_alloc rfl nofun
  exact hwhole.trans (Model.makeIn_grown (makeValue_making modelDepth) _ _ hm _)

theorem Model.make_invalid {m : Model} {h : Heap} {data : List (String × Value)} {f : Failure}
    (hf : (m.make h data).2 = .error f) : ∃ issues, f = .invalid m.name issues := by
  simp only [Model.make] at hf
  cases hin : (m.makeIn (makeValue modelDepth) _ _ _).2 with
  | error issues =>
    rw [hin] at hf
    exact ⟨issues, (Except.error.inj hf).symm⟩
  | ok v =>
    rw [hin] at hf
    cases hf

end Schema

end Exemplar
