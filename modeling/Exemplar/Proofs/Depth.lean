import Exemplar.Value.Basic
import Mathlib.Data.Finset.Card
import Mathlib.Data.Finset.Range
import Mathlib.Logic.Relation
import Mathlib.Order.WellFounded

/-! How deep values are nested.

What is inside a value is a relation `R x v`, of which only objects of the store have anything
inside (`Heap.Encloses`). Values that are not inside themselves are nested no deeper than there are
objects (`Heap.Encloses.nests`). So a function that goes down to a given depth, and has no answer
where it does not get to the end, has the same answer for every depth beyond that number
(`Heap.Encloses.agree`). -/
namespace Exemplar

/-- Only objects of the store have anything inside. -/
def Heap.Encloses (h : Heap) (R : Value → Value → Prop) : Prop :=
  ∀ x v, R x v → ∃ i < h.size, v = .object i

/-- The value is nested at most `n` deep. -/
def Value.Nests (R : Value → Value → Prop) : Nat → Value → Prop
  | 0, _ => False
  | n + 1, v => ∀ x, R x v → Nests R n x

variable {R : Value → Value → Prop} {h : Heap} {v : Value}

theorem Value.Nests.mono {n m : Nat} (hnm : n ≤ m) (hv : v.Nests R n) : v.Nests R m := by
  induction n generalizing v m with
  | zero => exact hv.elim
  | succ n ih =>
    obtain ⟨m, rfl⟩ : ∃ k, m = k + 1 := ⟨m - 1, by omega⟩
    exact fun x hx => ih (by omega) (hv x hx)

/-- No acyclic value is inside itself. -/
theorem Value.not_transGen_self (hv : Acc R v) : ¬ Relation.TransGen R v v := by
  induction acc_transGen_iff.mpr hv with
  | intro v _ ih => exact fun hself => ih v hself hv hself

namespace Heap

open Classical in
/-- The objects inside a value, itself included. -/
noncomputable def inside (h : Heap) (R : Value → Value → Prop) (v : Value) : Finset Ref :=
  (Finset.range h.size).filter fun r => Relation.ReflTransGen R (.object r) v

theorem mem_inside {r : Ref} :
    r ∈ h.inside R v ↔ r < h.size ∧ Relation.ReflTransGen R (.object r) v := by
  simp [inside]

theorem inside_card_le (h : Heap) (R : Value → Value → Prop) (v : Value) : (h.inside R v).card ≤ h.size :=
  calc (h.inside R v).card
      ≤ (Finset.range h.size).card :=
        Finset.card_le_card fun _ hr => Finset.mem_range.mpr (mem_inside.mp hr).1
    _ = h.size := Finset.card_range h.size

namespace Encloses

variable (hR : h.Encloses R)
include hR

/-- What is inside a value has fewer objects inside. -/
theorem inside_lt (hv : Acc R v) {x : Value} (hx : R x v) : (h.inside R x).card < (h.inside R v).card := by
  obtain ⟨i, hi, rfl⟩ := hR x v hx
  refine Finset.card_lt_card ⟨fun r hr => ?_, fun hsub => ?_⟩
  · obtain ⟨hrange, hreach⟩ := mem_inside.mp hr
    exact mem_inside.mpr ⟨hrange, hreach.tail hx⟩
  · obtain ⟨-, hreach⟩ := mem_inside.mp (hsub (mem_inside.mpr ⟨hi, .refl⟩))
    exact Value.not_transGen_self hv (.tail' hreach hx)

/-- An acyclic value is nested no deeper than there are objects inside. -/
theorem nests_inside (hv : Acc R v) : v.Nests R ((h.inside R v).card + 1) := by
  induction hv with
  | intro v hacc ih => exact fun x hx => (ih x hx).mono (hR.inside_lt (.intro v hacc) hx)

theorem nests (hv : Acc R v) : v.Nests R (h.size + 1) :=
  (hR.nests_inside hv).mono (Nat.succ_le_succ (h.inside_card_le R v))

end Encloses

end Heap

/-! ### Going down to a depth -/

section Descent

variable {α : Type} {F G : Nat → Value → Option α}

/-- An answer about a value needs one about each value inside, and none is given at depth zero. -/
structure Descends (R : Value → Value → Prop) (F : Nat → Value → Option α) : Prop where
  zero : ∀ v, F 0 v = none
  needs : ∀ {n v}, F (n + 1) v ≠ none → ∀ x, R x v → F n x ≠ none

/-- Only values that are not inside themselves have an answer. -/
theorem Descends.acc (hF : Descends R F) {n : Nat} (hv : F n v ≠ none) : Acc R v := by
  induction n generalizing v with
  | zero => exact absurd (hF.zero v) hv
  | succ n ih => exact .intro v fun x hx => ih (hF.needs hv x hx)

theorem Descends.mono {S : Value → Value → Prop} (hRS : ∀ x v, R x v → S x v) (hF : Descends S F) :
    Descends R F := ⟨hF.zero, fun hv x hx => hF.needs hv x (hRS x _ hx)⟩

/-- Two functions that answer alike about a value if they do about the values inside answer alike at any
depths that it is not nested beyond. -/
theorem Value.Nests.agree {β : Type} {F G : Nat → Value → β}
    (hstep : ∀ {m n v}, (∀ x, R x v → F m x = G n x) → F (m + 1) v = G (n + 1) v) {k m n : Nat}
    (hv : v.Nests R k) (hm : k ≤ m) (hn : k ≤ n) : F m v = G n v := by
  induction k generalizing v m n with
  | zero => exact hv.elim
  | succ k ih =>
    obtain ⟨m, rfl⟩ : ∃ i, m = i + 1 := ⟨m - 1, by omega⟩
    obtain ⟨n, rfl⟩ : ∃ i, n = i + 1 := ⟨n - 1, by omega⟩
    exact hstep fun x hx => ih (hv x hx) (by omega) (by omega)

/-- Two functions that answer alike about a value if they do about the values inside answer alike at
any depths beyond the number of objects. -/
theorem Heap.Encloses.agree (hR : h.Encloses R) (hF : Descends R F) (hG : Descends R G)
    (hstep : ∀ {m n v}, (∀ x, R x v → F m x = G n x) → F (m + 1) v = G (n + 1) v) {m n : Nat}
    (hm : h.size < m) (hn : h.size < n) (v : Value) : F m v = G n v := by
  by_cases hv : Acc R v
  · exact (hR.nests hv).agree (F := F) (G := G) hstep hm hn
  · have hFv : F m v = none := by_contra fun hne => hv (hF.acc hne)
    have hGv : G n v = none := by_contra fun hne => hv (hG.acc hne)
    rw [hFv, hGv]

end Descent

end Exemplar
