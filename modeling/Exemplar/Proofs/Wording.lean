import Exemplar.Proofs.Depth
import Exemplar.Proofs.Elements
import Exemplar.Proofs.Traversal
import Exemplar.Value.Argument

/-! Texts in a store that gets new procedures.

The text of a value does not depend on procedures that are added to the store, be the value what it
may: a list inside itself still has none (`Heap.Equipped.argumentText_eq`). The arguments with a text
are those that are not inside themselves and whose leaves have one (`Value.renders_iff_leaves`). -/
namespace Exemplar

/-- The store `h'` has the objects of `h`, and no others but procedures. -/
structure Heap.Equipped (h h' : Heap) : Prop where
  objects : h.Extends h'
  procedures : ∀ r c, h.get? r = none → h'.get? r = some c → ∃ p, c = .procedure p

theorem Heap.get?_eq_none {h : Heap} {r : Ref} : h.get? r = none ↔ h.size ≤ r := by
  simp [get?, size]

namespace Heap.Equipped

variable {h h' : Heap}

theorem refl (h : Heap) : h.Equipped h where
  objects := .refl h
  procedures r c hnone hsome := by
    rw [hnone] at hsome
    cases hsome

theorem trans {h₁ h₂ h₃ : Heap} (a : h₁.Equipped h₂) (b : h₂.Equipped h₃) : h₁.Equipped h₃ where
  objects := a.objects.trans b.objects
  procedures r c hnone hsome := by
    cases hr : h₂.get? r with
    | none => exact b.procedures r c hr hsome
    | some d =>
      rw [b.objects r d hr] at hsome
      obtain rfl := Option.some.inj hsome
      exact a.procedures r d hnone hr

theorem alloc (h : Heap) (p : Callable) : h.Equipped (h.alloc (.procedure p)).1 where
  objects := h.extends_alloc _
  procedures r c hnone hsome := by
    have hge : h.size ≤ r := get?_eq_none.mp hnone
    have hlt : r < h.size + 1 := by simpa [Heap.alloc, size] using get?_lt hsome
    obtain rfl : r = h.size := Nat.le_antisymm (Nat.le_of_lt_succ hlt) hge
    rw [get?_alloc_self] at hsome
    exact ⟨p, (Option.some.inj hsome).symm⟩

variable (e : h.Equipped h')
include e

theorem cell?_cases (v : Value) :
    h'.cell? v = h.cell? v ∨ h.cell? v = none ∧ ∃ p, h'.cell? v = some (.procedure p) := by
  cases hv : h.cell? v with
  | some c => exact .inl (e.objects.cell?_some hv)
  | none =>
    cases hv' : h'.cell? v with
    | none => exact .inl rfl
    | some c =>
      cases v with
      | object r =>
        obtain ⟨p, rfl⟩ := e.procedures r c hv hv'
        exact .inr ⟨rfl, p, rfl⟩
      | _ => cases hv'

theorem items?_eq (v : Value) : v.items? h' = v.items? h := by
  unfold Value.items?
  rcases e.cell?_cases v with hv | ⟨hv, p, hv'⟩
  · rw [hv]
  · rw [hv, hv']

theorem asText?_eq (v : Value) : v.asText? h' = v.asText? h := by
  unfold Value.asText?
  rcases e.cell?_cases v with hv | ⟨hv, p, hv'⟩
  · rw [hv]
  · rw [hv, hv']
    cases v <;> rfl

theorem asInt?_eq (v : Value) : v.asInt? h' = v.asInt? h := by
  unfold Value.asInt?
  rcases e.cell?_cases v with hv | ⟨hv, p, hv'⟩
  · rw [hv]
  · rw [hv, hv']
    cases v <;> rfl

theorem setOrder_eq : setOrder h' = setOrder h := by
  funext items
  simp only [setOrder, e.asInt?_eq]

/-! ### Values as they are shown -/

omit e in
/-- There are no more objects being written than there are objects. -/
theorem length_le_size {within : List Ref} (hnodup : within.Nodup) (hlt : ∀ r ∈ within, r < h.size) :
    within.length ≤ h.size := by
  have hsub : within ⊆ List.range h.size := fun r hr => List.mem_range.mpr (hlt r hr)
  simpa using (hnodup.subperm hsub).length_le

/-- Objects that are being written are not entered again, so the depth is never used up. -/
theorem shownIn_eq {within : List Ref} (hnodup : within.Nodup) (hlt : ∀ r ∈ within, r < h.size) {m n : Nat}
    (hm : h.size < m + within.length) (hn : h.size < n + within.length) (v : Value) :
    v.shownIn h' m within = v.shownIn h n within := by
  have hlength := length_le_size hnodup hlt
  induction m generalizing n within v with
  | zero => omega
  | succ m ih =>
    obtain ⟨n, rfl⟩ : ∃ k, n = k + 1 := ⟨n - 1, by omega⟩
    cases v with
    | object r =>
      simp only [Value.shownIn]
      rcases e.cell?_cases (.object r) with hr | ⟨hr, p, hr'⟩
      · rw [show h'.get? r = h.get? r from hr]
        cases hc : h.get? r with
        | none => rfl
        | some c =>
          by_cases hmem : r ∈ within
          · simp [hmem]
          · have hinner : Value.shownIn h' m (r :: within) = Value.shownIn h n (r :: within) := by
              funext w
              have hnodup' : (r :: within).Nodup := List.nodup_cons.mpr ⟨hmem, hnodup⟩
              have hlt' : ∀ i ∈ r :: within, i < h.size := List.forall_mem_cons.mpr ⟨get?_lt hc, hlt⟩
              refine ih hnodup' hlt' ?_ ?_ w (length_le_size hnodup' hlt') <;>
                rw [List.length_cons] <;> omega
            simp only [hinner, e.setOrder_eq]
      · have hmem : r ∉ within := fun hmem => absurd (hlt r hmem) (Nat.not_lt.mpr (get?_eq_none.mp hr))
        rw [show h.get? r = none from hr, show h'.get? r = _ from hr']
        simp [hmem]
    | _ => rfl

theorem shown_eq (v : Value) : v.shown h' = v.shown h := by
  have hle := e.objects.size_le
  exact e.shownIn_eq List.nodup_nil (fun _ hr => absurd hr List.not_mem_nil) (by simp; omega) (by simp) v

theorem errorText_eq {text text' : Value → Except Failure String} (kind : ErrorKind) {args : List Value}
    (htext : ∀ a, args = [a] → kind ≠ .keyError → (text' a).toOption = (text a).toOption) :
    (errorText h' text' kind args).toOption = (errorText h text kind args).toOption := by
  cases args with
  | nil => rfl
  | cons a rest =>
    cases rest with
    | nil =>
      simp only [errorText, e.shown_eq, e.asText?_eq]
      by_cases hkey : kind = .keyError
      · simp only [if_pos hkey]
      · simp only [if_neg hkey]
        split
        · rfl
        · exact htext a rfl hkey
    | cons b more => simp only [errorText, e.shown_eq]

end Heap.Equipped

/-! ### Texts for a reader -/

section Reader

variable {h h' : Heap}

/-- The text of `v` is that of `x`. -/
def Value.Echoes (h : Heap) (x v : Value) : Prop :=
  ∃ kind, h.cell? v = some (.error kind [x]) ∧ kind ≠ .keyError

theorem Value.encloses_echoes (h : Heap) : h.Encloses (Echoes h) := by
  rintro x v ⟨kind, hv, -⟩
  cases v with
  | object r => exact ⟨r, Heap.get?_lt hv, rfl⟩
  | _ => cases hv

theorem Value.descends_toText (h : Heap) : Descends (Echoes h) fun n v => (v.toTextIn h n).toOption where
  zero _ := rfl
  needs := by
    rintro n v hv x ⟨kind, hcell, hkey⟩
    cases v with
    | object r =>
      simp only [toTextIn, hcell, errorText, if_neg hkey] at hv
      split at hv
      · exact absurd rfl hv
      · exact hv
    | _ => cases hcell

theorem Heap.Equipped.toText_eq (e : h.Equipped h') (v : Value) :
    (v.toText h').toOption = (v.toText h).toOption := by
  have hsize := e.objects.size_le
  have hecho : ∀ x v, Value.Echoes h x v → Value.Echoes h' x v := by
    rintro x v ⟨kind, hcell, hkey⟩
    exact ⟨kind, e.objects.cell?_some hcell, hkey⟩
  refine (Value.encloses_echoes h).agree ((Value.descends_toText h').mono hecho) (Value.descends_toText h)
    (fun {m n v} hx => ?_) (by omega) (by omega) v
  cases v with
  | object r =>
    simp only [Value.toTextIn]
    rcases e.cell?_cases (.object r) with hr | ⟨hr, p, hr'⟩
    · rw [hr]
      cases hc : h.cell? (.object r) with
      | none => simp only [e.shown_eq]
      | some c =>
        cases c with
        | error kind args =>
          refine e.errorText_eq kind fun a hargs hkey => hx a ⟨kind, ?_, hkey⟩
          rw [hc, hargs]
        | _ => simp only [e.shown_eq]
    · rw [hr, hr']
      simp only [e.shown_eq]
  | _ => rfl

end Reader

/-! ### Texts of arguments -/

section Argument

variable {h h' : Heap}

/-- `x` is an item of the list or tuple `v`. -/
def Value.ItemOf (h : Heap) (x v : Value) : Prop := ∃ items, v.items? h = some items ∧ x ∈ items

theorem Value.encloses_itemOf (h : Heap) : h.Encloses (ItemOf h) := by
  rintro x v ⟨items, hv, -⟩
  cases v with
  | object r =>
    cases hr : h.get? r with
    | none => simp [Value.items?, Heap.cell?, hr] at hv
    | some c => exact ⟨r, Heap.get?_lt hr, rfl⟩
  | _ => cases hv

theorem Value.descends_argumentText (h : Heap) :
    Descends (ItemOf h) fun n v => (v.argumentTextIn h n).toOption where
  zero _ := rfl
  needs := by
    rintro n v hv x ⟨items, hitems, hx⟩ hnone
    simp only [argumentTextIn, hitems] at hv
    cases hall : items.mapM (argumentTextIn h n) with
    | error f => simp [hall, Except.map, Except.toOption] at hv
    | ok texts =>
      obtain ⟨text, htext⟩ := mapM_eq_ok hall x hx
      simp [htext, Except.toOption] at hnone

theorem Heap.Equipped.argumentTextIn_eq (e : h.Equipped h') {m n : Nat} (hm : h.size < m) (hn : h.size < n)
    (v : Value) : (v.argumentTextIn h' m).toOption = (v.argumentTextIn h n).toOption := by
  have hitem : ∀ x v, Value.ItemOf h x v → Value.ItemOf h' x v := by
    rintro x v ⟨items, hv, hx⟩
    exact ⟨items, (e.items?_eq v).trans hv, hx⟩
  refine (Value.encloses_itemOf h).agree ((Value.descends_argumentText h').mono hitem)
    (Value.descends_argumentText h) (fun {m n v} hx => ?_) hm hn v
  simp only [Value.argumentTextIn, e.items?_eq]
  cases hv : v.items? h with
  | none => exact e.toText_eq v
  | some items =>
    have hall := mapM_toOption_congr fun x hmem => hx x ⟨items, hv, hmem⟩
    simp only [toOption_map, hall]

theorem Heap.Equipped.argumentText_eq (e : h.Equipped h') (v : Value) :
    (v.argumentText h').toOption = (v.argumentText h).toOption := by
  have hsize := e.objects.size_le
  exact e.argumentTextIn_eq (by omega) (by omega) v

namespace Value

variable {v x : Value}

/-- The text of an argument is that of its items, whatever they are. -/
theorem argumentText_items (h : Heap) (v : Value) : (v.argumentText h).toOption =
    match v.items? h with
    | some items => ((items.mapM (argumentText h)).map (String.intercalate argumentSeparator)).toOption
    | none => (v.toText h).toOption := by
  have hdeeper : (v.argumentText h).toOption = (v.argumentTextIn h (h.size + 2)).toOption :=
    (Heap.Equipped.refl h).argumentTextIn_eq (by omega) (by omega) v
  rw [hdeeper, argumentTextIn]
  cases v.items? h <;> rfl

/-- Whether the argument has a text. -/
def renders (h : Heap) (v : Value) : Bool := (v.argumentText h).toOption.isSome

theorem renders_iff_ok : v.renders h = true ↔ ∃ text, v.argumentText h = .ok text := by
  rw [renders, Option.isSome_iff_exists]
  simp only [toOption_eq_some_iff]

theorem exists_error (hv : v.renders h = false) : ∃ f, v.argumentText h = .error f := by
  cases hf : v.argumentText h with
  | error f => exact ⟨f, rfl⟩
  | ok text =>
    rw [renders_iff_ok.mpr ⟨text, hf⟩] at hv
    cases hv

theorem renders_items : v.renders h = true ↔
    match v.items? h with
    | some items => ∀ x ∈ items, x.renders h = true
    | none => ∃ text, v.toText h = .ok text := by
  rw [renders, argumentText_items]
  cases v.items? h with
  | none => simp [Option.isSome_iff_exists, toOption_eq_some_iff]
  | some items =>
    simp only [toOption_map, Option.isSome_map, renders_iff_ok]
    rw [Option.isSome_iff_exists]
    simp only [toOption_eq_some_iff]
    exact ⟨fun ⟨_, hall⟩ => mapM_eq_ok hall, exists_mapM_ok⟩

theorem renders_of_itemOf (hv : v.renders h = true) (hx : ItemOf h x v) : x.renders h = true := by
  obtain ⟨items, hitems, hmem⟩ := hx
  rw [renders_items, hitems] at hv
  exact hv x hmem

/-- The arguments that have a text are those that are not inside themselves and whose leaves have
one. -/
theorem renders_iff_leaves : v.renders h = true ↔ Acc (ItemOf h) v ∧
    ∀ leaf, Relation.ReflTransGen (ItemOf h) leaf v → leaf.items? h = none →
      ∃ text, leaf.toText h = .ok text := by
  constructor
  · intro hv
    refine ⟨(descends_argumentText h).acc (n := h.size + 1) ?_, fun leaf hreach hleaf => ?_⟩
    · exact Option.isSome_iff_ne_none.mp hv
    · have hrenders : leaf.renders h = true := by
        induction hreach with
        | refl => exact hv
        | tail _ hx ih => exact ih (renders_of_itemOf hv hx)
      rw [renders_items, hleaf] at hrenders
      exact hrenders
  · rintro ⟨hacc, hleaves⟩
    induction hacc with
    | intro v _ ih =>
      rw [renders_items]
      cases hv : v.items? h with
      | none => exact hleaves v .refl hv
      | some items =>
        exact fun x hmem => ih x ⟨items, hv, hmem⟩ fun leaf hreach => hleaves leaf (hreach.tail ⟨items, hv, hmem⟩)

end Value

theorem Heap.Equipped.renders_eq (e : h.Equipped h') : Value.renders h' = Value.renders h := by
  funext v
  rw [Value.renders, Value.renders, e.argumentText_eq]

end Argument

/-! ### What has no text -/

/-- The computation fails with errors of the host only. -/
def FailsByFault {α : Type} (x : Except Failure α) : Prop := ∀ f, x = .error f → ∃ cause, f = .fault cause

namespace FailsByFault

variable {α β : Type}

theorem ok (a : α) : FailsByFault (.ok a) := fun _ hf => by cases hf

theorem fault (cause : Fault) : FailsByFault (.error (.fault cause) : Except Failure α) := fun _ hf =>
  ⟨cause, (Except.error.inj hf).symm⟩

theorem bind {x : Except Failure α} {k : α → Except Failure β} (hx : FailsByFault x)
    (hk : ∀ a, FailsByFault (k a)) : FailsByFault (x >>= k) := by
  cases x with
  | error f => exact fun g hg => hx f rfl |>.imp fun _ hf => (Except.error.inj hg).symm.trans hf
  | ok a => exact hk a

theorem mapM {g : α → Except Failure β} (hg : ∀ x, FailsByFault (g x)) (l : List α) :
    FailsByFault (l.mapM g) := by
  induction l with
  | nil => exact ok []
  | cons x rest ih =>
    rw [List.mapM_cons]
    exact (hg x).bind fun _ => ih.bind fun _ => ok _

end FailsByFault

theorem long_repr {k n : Nat} (hk : 0 < k) (hn : Nat.pow 10 k ≤ n) : ¬ n.repr.length ≤ k := fun h =>
  Nat.not_lt.mpr hn ((Nat.length_repr_le_iff hk).mp h)

theorem intText_error {i : Int} (hi : Nat.pow 10 digitLimit ≤ i.natAbs) :
    intText i = .error (.fault .tooManyDigits) := by
  have hpos : 0 < digitLimit := Nat.zero_lt_succ _
  exact if_neg (long_repr hpos hi)

/-- The least integer that has no text. -/
def leastLong : Int := Nat.pow 10 digitLimit

theorem intText_leastLong : intText leastLong = .error (.fault .tooManyDigits) :=
  intText_error (Nat.le_of_eq (Int.natAbs_natCast _).symm)

theorem intText_fails (i : Int) : FailsByFault (intText i) := by
  unfold intText
  split
  · exact .ok _
  · exact .fault _

theorem Fraction.text_fails (x : Fraction) : FailsByFault x.text := by
  refine (intText_fails _).bind fun n => ?_
  split
  · exact .ok _
  · exact (intText_fails _).bind fun _ => .ok _

namespace Value

variable (h : Heap)

theorem shownIn_fails (n : Nat) (within : List Ref) (v : Value) : FailsByFault (v.shownIn h n within) := by
  induction n generalizing within v with
  | zero =>
    cases v with
    | int i => exact intText_fails i
    | object r => exact .fault _
    | _ => exact .ok _
  | succ n ih =>
    cases v with
    | int i => exact intText_fails i
    | object r =>
      rw [shownIn]
      split
      · exact .ok _
      · rename_i cell _
        split
        · exact .ok _
        · have hinner := ih (r :: within)
          cases cell with
          | fraction x => exact (intText_fails _).bind fun _ => (intText_fails _).bind fun _ => .ok _
          | ownInt i => exact intText_fails i
          | list own items => exact (FailsByFault.mapM hinner items).bind fun _ => .ok _
          | tuple own items => exact (FailsByFault.mapM hinner items).bind fun _ => .ok _
          | mapping ordered entries =>
            cases ordered with
            | true =>
              refine (FailsByFault.mapM (fun e => ?_) entries).bind fun _ => .ok _
              exact (hinner e.1).bind fun _ => (hinner e.2).bind fun _ => .ok _
            | false =>
              refine (FailsByFault.mapM (fun e => ?_) entries).bind fun _ => .ok _
              exact (hinner e.1).bind fun _ => (hinner e.2).bind fun _ => .ok _
          | set frozen items =>
            refine (FailsByFault.mapM hinner _).bind fun _ => ?_
            exact .ok _
          | error kind args => exact (FailsByFault.mapM hinner args).bind fun _ => .ok _
          | element model fields =>
            exact (FailsByFault.mapM (fun e => (hinner e.2).bind fun _ => .ok _) fields).bind fun _ => .ok _
          | _ => exact .ok _
    | _ => exact .ok _

theorem shown_fails (v : Value) : FailsByFault (v.shown h) := shownIn_fails h _ [] v

theorem errorText_fails {text : Value → Except Failure String} (htext : ∀ v, FailsByFault (text v))
    (kind : ErrorKind) (args : List Value) : FailsByFault (errorText h text kind args) := by
  unfold errorText
  split
  · exact .ok _
  · split
    · exact shown_fails h _
    · split
      · exact .fault _
      · exact htext _
  · exact (FailsByFault.mapM (shown_fails h) args).bind fun _ => .ok _

theorem toText_fails (v : Value) : FailsByFault (v.toText h) := by
  unfold toText
  induction h.size + 1 generalizing v with
  | zero => exact .fault _
  | succ n ih =>
    unfold toTextIn
    split
    · exact .ok _
    · exact .ok _
    · exact Fraction.text_fails _
    · exact .ok _
    · exact errorText_fails h ih _ _
    · exact shown_fails h _

end Value

end Exemplar
