import Exemplar.Proofs.Testing

/-! An engine that is not current is not seen.

While another engine is current, or none, nothing that programs do depends on what the engine `e`
is: with `x'` in the place of `x` every program goes the same way, and leaves `e` as it found it.
A build goes the same whichever engine its specification is for (`Unseen.accord`). -/
namespace Exemplar

open Act

/-- The same session, but for the engine `e`, which is not current: `x` here, `x'` there. -/
structure Unseen (e : Nat) (x x' : Engine) (s s' : Session) : Prop where
  eq : s' = s.withEngine e x'
  engine : s.engines[e]? = some x
  running : s.running ≠ some e

namespace Unseen

variable {e : Nat} {x x' : Engine} {s s' : Session}

theorem same (h : Unseen e x x' s s') : s.Matches False s' := by
  rw [h.eq]
  exact (Session.Matches.refl s False.elim).withEngine e x'

/-- Engines stay as they are, and the current one is not `e`. -/
theorem moved (h : Unseen e x x' s s') {t t' : Session} (ht : t.engines = s.engines)
    (hr : t.running ≠ some e) (he : t' = t.withEngine e x') : Unseen e x x' t t' := ⟨he, ht ▸ h.engine, hr⟩

theorem adding (h : Unseen e x x' s s') (kind : EngineKind) :
    Unseen e x x' (s.adding kind) (s'.adding kind) where
  eq := by
    have hlt := Session.lt_of_engine h.engine
    have hpush : (s.engines.setIfInBounds e x').push (.fresh kind) =
        (s.engines.push (.fresh kind)).setIfInBounds e x' := by
      simp only [Array.setIfInBounds, Array.size_push, hlt, Nat.lt_succ_of_lt hlt, dif_pos, Array.set_push]
    rw [h.eq, Session.adding, Session.withEngine, hpush]
    rfl
  engine := by
    rw [Session.adding, Array.getElem?_push, if_neg (Nat.ne_of_lt (Session.lt_of_engine h.engine))]
    exact h.engine
  running := h.running

theorem withEngine (h : Unseen e x x' s s') {a : Nat} (ha : a ≠ e) (y : Engine) :
    Unseen e x x' (s.withEngine a y) (s'.withEngine a y) where
  eq := by
    have hcomm : (s.engines.setIfInBounds a y).setIfInBounds e x' =
        (s.engines.setIfInBounds e x').setIfInBounds a y := Array.setIfInBounds_comm y x' ha
    simp only [h.eq, Session.withEngine, hcomm]
  engine := by
    rw [Session.getElem?_withEngine_ne ha]
    exact h.engine
  running := h.running

/-- Programs do not see the engine. -/
def accord (e : Nat) (x x' : Engine) : Accord none none where
  World := Unit
  rel _ := Unseen e x x'
  twin _ a b := a = b ∧ a ≠ e
  odd _ _ _ := False
  same h := h.same
  memory h _ _ := h.moved rfl h.running (h.eq ▸ rfl)
  scoping h _ := h.moved rfl h.running (h.eq ▸ rfl)
  group name h _ := ⟨(), h.moved rfl h.running (h.eq ▸ rfl), trivial,
    fun _ _ hu => hu.moved rfl hu.running (hu.eq ▸ rfl)⟩
  declare h _ _ _ := h.moved rfl h.running (h.eq ▸ rfl)
  build h := ⟨(), h.moved rfl h.running (h.eq ▸ rfl), trivial,
    fun _ _ hu => hu.moved rfl hu.running (hu.eq ▸ rfl)⟩
  thread h := ⟨(), h.moved rfl nofun (h.eq ▸ rfl), trivial,
    fun _ _ hu => hu.moved rfl h.running (by rw [hu.eq, h.eq]; rfl)⟩
  current {w s s'} h := by
    have hr : s'.running = s.running := by rw [h.eq]; rfl
    cases ha : s.running with
    | none => exact .inl ⟨rfl, hr.trans ha⟩
    | some a => exact .inr ⟨a, a, rfl, hr.trans ha, .inl ⟨rfl, fun hae => h.running (hae ▸ ha)⟩⟩
  run {w s s' a b} h ht := by
    obtain ⟨rfl, hne⟩ := ht
    exact ⟨(), h.moved rfl (fun ha => hne (Option.some.inj ha)) (h.eq ▸ rfl), ⟨rfl, hne⟩,
      fun _ _ hu => hu.moved rfl h.running (by rw [hu.eq, h.eq]; rfl)⟩
  fresh {w s s'} kind h := by
    refine ⟨(), h.adding kind, ⟨?_, ?_⟩, fun _ _ hu => hu⟩
    · rw [h.eq]
      simp [Session.withEngine]
    · exact Nat.ne_of_gt (Session.lt_of_engine h.engine)
  content h ht := by
    obtain ⟨rfl, hne⟩ := ht
    rw [h.eq, Array.getD_eq_getD_getElem?, Array.getD_eq_getD_getElem?]
    rw [Session.getElem?_withEngine_ne hne.symm]
  setting y h ht := by
    obtain ⟨rfl, hne⟩ := ht
    exact h.withEngine hne y
  free _ := ⟨nofun, nofun⟩
  report _ _ h := h.elim
  pause h := h.elim
  resume h := h.elim
  wait _ _ h := h.elim
  setTitle _ h := h.elim
  declareGroup _ _ _ h := h.elim
  runTest _ _ h _ := h.elim
  specify _ h _ _ := h.elim

end Unseen

end Exemplar
