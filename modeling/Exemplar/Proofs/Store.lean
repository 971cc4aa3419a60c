import Exemplar.Example.Outline
import Exemplar.Registry.Basic
import Exemplar.Value.Arithmetic

/-! Objects of the store keep their shape.

A program adds objects and changes what a list, a mapping or a plain object holds, but no
object goes away and none becomes an object of another kind. `Heap.Kept h h'` says so of two
stores; everything that makes values only takes a store to one that keeps it. In particular
what could be called once can be called ever after (`isCallable_of_kept`).

Scripts are added as programs write them, and never as a part of anything else: the values that
are made besides are `Heap.Inert`. -/
namespace Exemplar

/-- A cell without what may change in it. -/
def Cell.shape : Cell → Cell
  | .list own _ => .list own []
  | .mapping ordered _ => .mapping ordered []
  | .record cls _ => .record cls []
  | c => c

/-- The steps of a script. -/
def Cell.script? : Cell → Option (List Step)
  | .procedure (.script _ steps _) => some steps
  | _ => none

theorem Cell.script?_shape (c : Cell) : c.shape.script? = c.script? := by
  cases c <;> rfl

/-- Every object of `h` is still there in `h'`, with its shape. -/
def Heap.Kept (h h' : Heap) : Prop :=
  ∀ r c, h.get? r = some c → ∃ c', h'.get? r = some c' ∧ c'.shape = c.shape

namespace Heap

def script? (h : Heap) (r : Ref) : Option (List Step) := (h.get? r).bind Cell.script?

/-- The store is kept, and has no new script. -/
structure Inert (h h' : Heap) : Prop where
  kept : h.Kept h'
  scripts : ∀ r steps, h'.script? r = some steps → h.script? r = some steps

theorem Kept.refl (h : Heap) : h.Kept h := fun _ c hc => ⟨c, hc, rfl⟩

theorem Kept.trans {h₁ h₂ h₃ : Heap} (a : h₁.Kept h₂) (b : h₂.Kept h₃) : h₁.Kept h₃ := by
  intro r c hc
  obtain ⟨c₂, h₂, e₂⟩ := a r c hc
  obtain ⟨c₃, h₃, e₃⟩ := b r c₂ h₂
  exact ⟨c₃, h₃, e₃.trans e₂⟩

theorem get?_lt {h : Heap} {r : Ref} {c : Cell} (hc : h.get? r = some c) : r < h.size :=
  (Array.getElem?_eq_some_iff.mp hc).1

theorem get?_alloc_of_lt {h : Heap} {r : Ref} (hr : r < h.size) (c : Cell) :
    (h.alloc c).1.get? r = h.get? r := by
  have hne : r ≠ h.cells.size := Nat.ne_of_lt hr
  simp [alloc, get?, Array.getElem?_push, hne]

theorem get?_alloc_self (h : Heap) (c : Cell) : (h.alloc c).1.get? h.size = some c := by
  simp [alloc, get?, size]

theorem script?_alloc (h : Heap) (c : Cell) (r : Ref) :
    (h.alloc c).1.script? r = if r = h.size then c.script? else h.script? r := by
  by_cases hr : r = h.cells.size <;> simp [script?, alloc, get?, size, Array.getElem?_push, hr]

theorem Inert.refl (h : Heap) : h.Inert h := ⟨.refl h, fun _ _ => id⟩

theorem Inert.trans {h₁ h₂ h₃ : Heap} (a : h₁.Inert h₂) (b : h₂.Inert h₃) : h₁.Inert h₃ :=
  ⟨a.kept.trans b.kept, fun r steps hr => a.scripts r steps (b.scripts r steps hr)⟩

theorem kept_alloc (h : Heap) (c : Cell) : h.Kept (h.alloc c).1 := fun _ c' hr =>
  ⟨c', by rw [get?_alloc_of_lt (get?_lt hr)]; exact hr, rfl⟩

theorem kept_set {h : Heap} {r : Ref} {c c' : Cell} (hr : h.get? r = some c)
    (hs : c'.shape = c.shape) : h.Kept (h.set r c') := by
  intro r' d hd
  by_cases he : r = r'
  · subst he
    refine ⟨c', ?_, ?_⟩
    · have hlt := get?_lt hr
      simp only [size] at hlt
      simp [set, get?, hlt]
    · rw [hr] at hd
      rw [hs, Option.some.inj hd]
  · refine ⟨d, ?_, rfl⟩
    simpa [set, get?, Array.getElem?_setIfInBounds, he] using hd

theorem inert_alloc (h : Heap) {c : Cell} (hc : c.script? = none) : h.Inert (h.alloc c).1 where
  kept := h.kept_alloc c
  scripts r steps hr := by
    rw [script?_alloc, hc] at hr
    split at hr
    · cases hr
    · exact hr

theorem inert_set {h : Heap} {r : Ref} {c c' : Cell} (hr : h.get? r = some c)
    (hs : c'.shape = c.shape) : h.Inert (h.set r c') where
  kept := kept_set hr hs
  scripts r' steps hsteps := by
    by_cases he : r = r'
    · subst he
      have hlt := get?_lt hr
      simp only [size] at hlt
      have hset : (h.set r c').script? r = c'.script? := by simp [script?, set, get?, hlt]
      rw [hset, ← c'.script?_shape, hs, c.script?_shape] at hsteps
      rw [script?, hr]
      exact hsteps
    · simpa [script?, set, get?, Array.getElem?_setIfInBounds, he] using hsteps

/-- A value keeps its shape. -/
theorem Kept.cell? {h h' : Heap} (k : h.Kept h') {v : Value} {c : Cell} (hc : h.cell? v = some c) :
    ∃ c', h'.cell? v = some c' ∧ c'.shape = c.shape := by
  cases v with
  | object r => exact k r c hc
  | _ => cases hc

end Heap

theorem Cell.callable_of_shape {c c' : Cell} (hs : c'.shape = c.shape) :
    (∀ p, c = .procedure p → c' = .procedure p) ∧
      (∀ fields, c = .record .callableBox fields → ∃ fields', c' = .record .callableBox fields') := by
  constructor
  · intro p hc
    subst hc
    cases c' <;> simp_all [shape]
  · intro fields hc
    subst hc
    cases c' <;> simp_all [shape]

theorem isCallable_of_kept {h h' : Heap} (k : h.Kept h') {v : Value} (hv : v.isCallable h = true) :
    v.isCallable h' = true := by
  cases v with
  | object r =>
    simp only [Value.isCallable] at hv ⊢
    cases hc : h.cell? (.object r) with
    | none => simp [hc] at hv
    | some c =>
      obtain ⟨c', hc', hs⟩ := k.cell? hc
      obtain ⟨hprocedure, hbox⟩ := Cell.callable_of_shape hs
      rw [hc] at hv
      split at hv
      · rename_i p he
        rw [hc', hprocedure p (Option.some.inj he)]
      · rename_i fields he
        obtain ⟨fields', he'⟩ := hbox fields (Option.some.inj he)
        rw [hc', he']
      · cases hv
  | _ => exact hv

/-! ### Outlines and numbers -/

/-- A list that is left out when it is empty. -/
theorem optionalList_inert {h h' : Heap} (k : h.Inert h') {empty : Prop} [Decidable empty] {c : Cell}
    (hc : c.script? = none) {entries : List (Value × Value)} :
    h.Inert (if empty then (h', []) else ((h'.alloc c).1, entries)).1 := by
  split
  · exact k
  · exact k.trans (h'.inert_alloc hc)

mutual

theorem Outline.toValue_inert (h : Heap) : (o : Outline) → h.Inert (o.toValue h).1
  | .group name specs groups => by
    cases hs : specs.isEmpty with
    | true =>
      simp only [Outline.toValue, hs, if_true]
      exact (optionalList_inert (Outline.toValues_inert h groups) rfl).trans (Heap.inert_alloc _ rfl)
    | false =>
      simp only [Outline.toValue, hs, Bool.false_eq_true, if_false]
      exact (optionalList_inert ((h.inert_alloc rfl).trans (Outline.toValues_inert _ groups)) rfl).trans
        (Heap.inert_alloc _ rfl)

theorem Outline.toValues_inert (h : Heap) : (os : List Outline) → h.Inert (Outline.toValues h os).1
  | [] => .refl h
  | o :: os => (Outline.toValue_inert h o).trans (Outline.toValues_inert _ os)

end

theorem Numeral.alloc_inert (h : Heap) (n : Numeral) : h.Inert (n.alloc h).1 := by
  cases n with
  | int => exact .refl h
  | _ => exact h.inert_alloc rfl

theorem Value.divNat_inert {h : Heap} {v : Value} {n : Nat} {made : Heap × Value}
    (hm : v.divNat h n = .ok made) : h.Inert made.1 := by
  simp only [Value.divNat] at hm
  split at hm
  · rename_i x _
    cases hx : x.divNat n with
    | error f => rw [hx] at hm; cases hm
    | ok y =>
      rw [hx] at hm
      cases hm
      exact Numeral.alloc_inert h y
  · cases hm

theorem Value.add_inert {h : Heap} {a b : Value} {made : Heap × Value}
    (hm : a.add h b = .ok made) : h.Inert made.1 := by
  simp only [Value.add] at hm
  split at hm
  · rename_i sum _
    cases sum with
    | error f => cases hm
    | ok y =>
      cases hm
      exact Numeral.alloc_inert h y
  · split at hm
    · split at hm
      · cases hm; exact .refl h
      · cases hm
    · split at hm
      · cases hm; exact .refl h
      · cases hm
    · split at hm
      · cases hm; exact h.inert_alloc rfl
      · cases hm
    · split at hm
      · cases hm; exact h.inert_alloc rfl
      · cases hm
    · cases hm

end Exemplar
