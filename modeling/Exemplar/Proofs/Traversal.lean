import Mathlib.Data.List.Basic

/-! Traversals of lists that may fail.

A traversal succeeds if it does so at every item, and fails as it does at the first item where it
fails. -/
namespace Exemplar

theorem bind_eq_ok_iff {α β ε : Type} {x : Except ε α} {k : α → Except ε β} {r : β} :
    x >>= k = .ok r ↔ ∃ a, x = .ok a ∧ k a = .ok r := by
  constructor
  · intro hr
    cases x with
    | error e => cases hr
    | ok a => exact ⟨a, rfl, hr⟩
  · rintro ⟨a, rfl, hr⟩
    exact hr

theorem exists_bind_ok_iff {α β ε : Type} {x : Except ε α} {k : α → Except ε β} :
    (∃ r, x >>= k = .ok r) ↔ ∃ a, x = .ok a ∧ ∃ r, k a = .ok r := by
  simp only [bind_eq_ok_iff]
  rw [exists_comm]
  exact exists_congr fun _ => exists_and_left

theorem mapM_ok {α β ε : Type} {g : α → Except ε β} {k : α → β} {l : List α}
    (hg : ∀ x ∈ l, g x = .ok (k x)) : l.mapM g = .ok (l.map k) := by
  induction l with
  | nil => rfl
  | cons x rest ih =>
    rw [List.mapM_cons, hg x List.mem_cons_self, ih fun y hy => hg y (List.mem_cons_of_mem _ hy)]
    rfl

theorem exists_mapM_ok {α β ε : Type} {g : α → Except ε β} {l : List α} (hg : ∀ x ∈ l, ∃ y, g x = .ok y) :
    ∃ r, l.mapM g = .ok r := by
  induction l with
  | nil => exact ⟨[], rfl⟩
  | cons x rest ih =>
    obtain ⟨y, hy⟩ := hg x List.mem_cons_self
    obtain ⟨ys, hys⟩ := ih fun z hz => hg z (List.mem_cons_of_mem _ hz)
    rw [List.mapM_cons, hy, hys]
    exact ⟨y :: ys, rfl⟩

theorem mapM_eq_ok {α β ε : Type} {g : α → Except ε β} {l : List α} {r : List β} (h : l.mapM g = .ok r) :
    ∀ x ∈ l, ∃ y, g x = .ok y := by
  induction l generalizing r with
  | nil => exact fun _ hx => absurd hx List.not_mem_nil
  | cons x rest ih =>
    rw [List.mapM_cons] at h
    obtain ⟨y, hy, h⟩ := bind_eq_ok_iff.mp h
    obtain ⟨ys, hys, -⟩ := bind_eq_ok_iff.mp h
    intro z hz
    rcases List.mem_cons.mp hz with rfl | hz
    · exact ⟨y, hy⟩
    · exact ih hys z hz

theorem mapM_refused {α β ε : Type} {g : α → Except ε β} {before after : List α} {x : α} {e : ε}
    (hb : ∀ y ∈ before, ∃ z, g y = .ok z) (hx : g x = .error e) :
    (before ++ x :: after).mapM g = .error e := by
  induction before with
  | nil =>
    rw [List.nil_append, List.mapM_cons, hx]
    rfl
  | cons y rest ih =>
    obtain ⟨z, hz⟩ := hb y List.mem_cons_self
    rw [List.cons_append, List.mapM_cons, hz, ih fun w hw => hb w (List.mem_cons_of_mem _ hw)]
    rfl

theorem mapM_flatMap {α β γ ε : Type} {g : β → Except ε γ} {k : α → List β} (l : List α) :
    (l.flatMap k).mapM g = (l.mapM fun x => (k x).mapM g).map List.flatten := by
  induction l with
  | nil => rfl
  | cons x rest ih =>
    rw [List.flatMap_cons, List.mapM_append, ih, List.mapM_cons]
    cases (k x).mapM g with
    | error e => rfl
    | ok ys => cases rest.mapM fun x => (k x).mapM g <;> rfl

theorem mapM_map {α β γ ε : Type} {g : α → Except ε β} {k : α → Except ε γ} {F : β → γ} {l : List α}
    (hk : ∀ x ∈ l, k x = (g x).map F) : l.mapM k = (l.mapM g).map (List.map F) := by
  induction l with
  | nil => rfl
  | cons x rest ih =>
    rw [List.mapM_cons, List.mapM_cons, hk x List.mem_cons_self, ih fun y hy => hk y (List.mem_cons_of_mem _ hy)]
    cases g x with
    | error e => rfl
    | ok y => cases rest.mapM g <;> rfl

/-- Two traversals that do the same at every place do the same. -/
theorem mapM_eq_of_forall₂ {α β γ ε : Type} {f : α → Except ε γ} {g : β → Except ε γ} {l : List α} {l' : List β}
    (h : List.Forall₂ (fun x y => f x = g y) l l') : l.mapM f = l'.mapM g := by
  induction h with
  | nil => rfl
  | cons hxy _ ih => rw [List.mapM_cons, List.mapM_cons, hxy, ih]

theorem mapM_forall₂ {α β ε : Type} {g : α → Except ε β} {l : List α} {r : List β} (h : l.mapM g = .ok r) :
    List.Forall₂ (fun x y => g x = .ok y) l r := by
  induction l generalizing r with
  | nil =>
    obtain rfl := Except.ok.inj h
    exact .nil
  | cons x rest ih =>
    rw [List.mapM_cons] at h
    obtain ⟨y, hy, h⟩ := bind_eq_ok_iff.mp h
    obtain ⟨ys, hys, h⟩ := bind_eq_ok_iff.mp h
    obtain rfl := Except.ok.inj h
    exact .cons hy (ih hys)

theorem foldlM_ok {α β ε : Type} {f : β → α → Except ε β} {l : List α}
    (hf : ∀ x ∈ l, ∀ b, ∃ b', f b x = .ok b') (b : β) : ∃ b', l.foldlM f b = .ok b' := by
  induction l generalizing b with
  | nil => exact ⟨b, rfl⟩
  | cons x rest ih =>
    obtain ⟨b', hb'⟩ := hf x List.mem_cons_self b
    rw [List.foldlM_cons, hb']
    exact ih (fun y hy => hf y (List.mem_cons_of_mem _ hy)) b'

/-- What every step keeps holds at the end of a run that succeeds. -/
theorem foldlM_eq_ok {α β ε : Type} {f : β → α → Except ε β} {l : List α} (I : β → Prop) {Q : α → Prop}
    (hf : ∀ x ∈ l, ∀ b b', I b → f b x = .ok b' → Q x ∧ I b') {b b' : β} (hb : I b)
    (h : l.foldlM f b = .ok b') : (∀ x ∈ l, Q x) ∧ I b' := by
  induction l generalizing b with
  | nil =>
    obtain rfl : b = b' := Except.ok.inj h
    exact ⟨fun _ hx => absurd hx List.not_mem_nil, hb⟩
  | cons x rest ih =>
    rw [List.foldlM_cons] at h
    obtain ⟨c, hc, h⟩ := bind_eq_ok_iff.mp h
    obtain ⟨hx, hI⟩ := hf x List.mem_cons_self b c hb hc
    obtain ⟨hrest, hend⟩ := ih (fun y hy => hf y (List.mem_cons_of_mem _ hy)) hI h
    exact ⟨List.forall_mem_cons.mpr ⟨hx, hrest⟩, hend⟩

/-! ### Results, whatever the failure -/

theorem toOption_eq_some_iff {α ε : Type} {x : Except ε α} {a : α} : x.toOption = some a ↔ x = .ok a := by
  cases x <;> simp [Except.toOption]

theorem toOption_eq_iff {α ε : Type} {x y : Except ε α} :
    x.toOption = y.toOption ↔ ∀ a, x = .ok a ↔ y = .ok a := by
  rw [Option.ext_iff]
  simp only [toOption_eq_some_iff]

theorem toOption_map {α β ε : Type} (f : α → β) (x : Except ε α) : (x.map f).toOption = x.toOption.map f := by
  cases x <;> rfl

theorem mapM_ok_of_ok {α β ε : Type} {f g : α → Except ε β} {l : List α} {r : List β}
    (hfg : ∀ x ∈ l, ∀ y, f x = .ok y → g x = .ok y) (h : l.mapM f = .ok r) : l.mapM g = .ok r := by
  induction l generalizing r with
  | nil => exact h
  | cons x rest ih =>
    rw [List.mapM_cons] at h
    obtain ⟨y, hy, h⟩ := bind_eq_ok_iff.mp h
    obtain ⟨ys, hys, h⟩ := bind_eq_ok_iff.mp h
    rw [List.mapM_cons, hfg x List.mem_cons_self y hy,
      ih (fun z hz => hfg z (List.mem_cons_of_mem _ hz)) hys]
    exact h

theorem mapM_toOption_congr {α β ε : Type} {f g : α → Except ε β} {l : List α}
    (hfg : ∀ x ∈ l, (f x).toOption = (g x).toOption) : (l.mapM f).toOption = (l.mapM g).toOption := by
  refine toOption_eq_iff.mpr fun r => ⟨mapM_ok_of_ok fun x hx y => ?_, mapM_ok_of_ok fun x hx y => ?_⟩
  · exact (toOption_eq_iff.mp (hfg x hx) y).mp
  · exact (toOption_eq_iff.mp (hfg x hx) y).mpr

end Exemplar
