import Exemplar.Scope.Layers

/-! Looking names up.

What a name stands for is known by name, whatever the order in which names were set or erased. As long as
a function has set no names itself, it finds through the layers what it finds in the module once the verbs
are merged into it (`Layers.Untouched.find?_eq_merge`). -/
namespace Exemplar

namespace Bindings

variable {α : Type} (b : Bindings α) (name : String) (a : α) (n : String)

theorem has_eq : b.has name = (b.lookup name).isSome := by
  induction b with
  | nil => rfl
  | cons entry rest ih =>
    obtain ⟨k, x⟩ := entry
    unfold has at ih ⊢
    grind

theorem lookup_erase : (b.erase name).lookup n = if n = name then none else b.lookup n := by
  induction b with
  | nil => simp [erase]
  | cons entry rest ih =>
    obtain ⟨k, x⟩ := entry
    unfold erase at ih ⊢
    grind

theorem lookup_replaced : (b.map fun (k, old) => if k = name then (k, a) else (k, old)).lookup n =
    if n = name then (b.lookup n).map (fun _ => a) else b.lookup n := by
  induction b with
  | nil => simp
  | cons entry rest ih =>
    obtain ⟨k, x⟩ := entry
    have hkey : (if k = name then (k, a) else (k, x)) = (k, if k = name then a else x) := by
      split <;> rfl
    simp only [List.map_cons, hkey, List.lookup_cons, ih]
    cases hk : n == k with
    | false => rfl
    | true =>
      obtain rfl := eq_of_beq hk
      by_cases hn : n = name
      · simp [hn]
      · simp [hn]

theorem lookup_set : (b.set name a).lookup n = if n = name then some a else b.lookup n := by
  have hhas : b.any (·.1 = name) = (b.lookup name).isSome := b.has_eq name
  unfold set
  split
  · rename_i hany
    rw [lookup_replaced]
    rw [hhas, Option.isSome_iff_exists] at hany
    obtain ⟨old, hold⟩ := hany
    split
    · rename_i hn
      rw [hn, hold]
      rfl
    · rfl
  · rename_i hany
    rw [hhas, Bool.not_eq_true, Option.isSome_eq_false_iff, Option.isNone_iff_eq_none] at hany
    rw [List.lookup_append]
    grind

theorem lookup_eq_none : b.lookup n = none ↔ n ∉ b.names := by
  rw [List.lookup_eq_none_iff]
  simp only [bne_iff_ne, ne_eq, names, List.mem_map]
  exact ⟨fun h ⟨p, hp, hn⟩ => h p hp hn.symm, fun h p hp hn => h ⟨p, hp, hn.symm⟩⟩

theorem lookup_setAll {more : Bindings α} (hm : more.names.Nodup) :
    (b.setAll more).lookup n = (more.lookup n).or (b.lookup n) := by
  induction more generalizing b with
  | nil => rfl
  | cons entry rest ih =>
    obtain ⟨k, x⟩ := entry
    obtain ⟨hk, hrest⟩ := List.nodup_cons.mp hm
    have hnone := (lookup_eq_none rest k).mpr hk
    show ((b.set k x).setAll rest).lookup n = _
    rw [ih (b.set k x) hrest, lookup_set]
    grind

/-- Some names of `b`, under which they stand there. -/
theorem lookup_restricted (names : List String) :
    List.lookup n (names.filterMap fun k => (b.lookup k).map (k, ·)) =
      if n ∈ names then b.lookup n else none := by
  induction names with
  | nil => rfl
  | cons k rest ih =>
    cases h : b.lookup k with
    | none => grind
    | some x => grind

theorem names_set : (b.set name a).names = if name ∈ b.names then b.names else b.names ++ [name] := by
  have hany : b.any (·.1 = name) = true ↔ name ∈ b.names := by simp [names]
  unfold set
  by_cases hname : name ∈ b.names
  · rw [if_pos (hany.mpr hname), if_pos hname, names, List.map_map]
    refine List.map_congr_left fun (n, old) _ => ?_
    show (if n = name then (n, a) else (n, old)).1 = n
    split <;> rfl
  · rw [if_neg (mt hany.mp hname), if_neg hname, names, List.map_append]
    rfl

theorem names_erase : (b.erase name).names = b.names.filter (· ≠ name) := by
  rw [erase, names, names, List.filter_map]
  rfl

end Bindings

namespace Layers

variable {α : Type} {l : Layers α}

/-- A function has set no names itself: what it has are the attributes of the module. -/
def Untouched (l : Layers α) : Prop :=
  ∀ n, l.own.lookup n = if n ∈ moduleAttributes then l.module.lookup n else none

theorem untouched_ofModule (module verbs : Bindings α) : (ofModule module verbs).Untouched :=
  fun n => module.lookup_restricted n moduleAttributes

theorem Untouched.find?_eq (h : l.Untouched) (hv : ∀ n ∈ moduleAttributes, n ∉ l.verbs.names) (n : String) :
    l.find? true n = (l.verbs.lookup n).or (l.module.lookup n) := by
  rw [find?, if_pos rfl, get?, h n]
  split
  · rw [(Bindings.lookup_eq_none l.verbs n).mpr (hv n ‹_›)]
    cases l.module.lookup n <;> rfl
  · rfl

theorem find?_merge (hv : l.verbs.names.Nodup) (n : String) :
    l.merge.find? false n = (l.verbs.lookup n).or (l.module.lookup n) := l.module.lookup_setAll n hv

/-- A name stands for the same through the layers and in the module with the verbs. -/
theorem Untouched.find?_eq_merge (h : l.Untouched) (hv : ∀ n ∈ moduleAttributes, n ∉ l.verbs.names)
    (hnodup : l.verbs.names.Nodup) (n : String) : l.find? true n = l.merge.find? false n :=
  (h.find?_eq hv n).trans (find?_merge hnodup n).symm

end Layers

end Exemplar
