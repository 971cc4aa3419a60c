import Exemplar.Proofs.Later
import Exemplar.Proofs.Shifted

/-! An engine that is not current might as well not be there.

The second of two sessions has one engine more, with the number `n`, which is not current. Programs
go the same way in both, so that a build for a new engine is the build without it
(`BuilderFunction.Programmed.build_absent`). -/
namespace Exemplar

open Act

/-- The sessions are the same but for the numbers of engines and the engine `n`, which the first
does not have. -/
structure Absent (n : Nat) (x : Engine) (s s' : Session) : Prop where
  same : s.Matches False s'
  size : s'.engines.size = s.engines.size + 1
  known : n ≤ s.engines.size
  running : s'.running = s.running.map (shift n)
  others : ∀ a, s.engines[a]? = s'.engines[shift n a]?
  engine : s'.engines[n]? = some x

namespace Absent

variable {n : Nat} {x : Engine} {s s' : Session}

/-- Nothing but the builds and the memory moves on. -/
theorem moved (h : Absent n x s s') {t t' : Session} (hm : t.Matches False t')
    (ht : t.running = s.running ∧ t.engines = s.engines)
    (ht' : t'.running = s'.running ∧ t'.engines = s'.engines) : Absent n x t t' := by
  obtain ⟨-, size, known, running, others, engine⟩ := h
  rw [← ht.1, ← ht'.1] at running
  rw [← ht.2, ← ht'.2] at size
  rw [← ht.2] at known
  rw [← ht'.2] at engine
  simp only [← ht.2, ← ht'.2] at others
  exact ⟨hm, size, known, running, others, engine⟩

theorem withRunning (h : Absent n x s s') (r : Option EngineId) :
    Absent n x (s.withRunning r) (s'.withRunning (r.map (shift n))) :=
  { h with same := ⟨h.same.memory, h.same.builds, h.same.building⟩, running := rfl }

theorem adding (h : Absent n x s s') (kind : EngineKind) : Absent n x (s.adding kind) (s'.adding kind) where
  same := ⟨h.same.memory, h.same.builds, h.same.building⟩
  size := by simp [Session.adding, h.size]
  known := by
    have hknown := h.known
    simp only [Session.adding, Array.size_push]
    omega
  running := h.running
  others a := by
    have hsize : shift n s.engines.size = s.engines.size + 1 := if_neg (Nat.not_lt.mpr h.known)
    have hiff : a = s.engines.size ↔ shift n a = s'.engines.size := by
      rw [h.size, ← hsize]
      exact ⟨congrArg _, shift_inj⟩
    simp only [Session.adding, Array.getElem?_push, hiff, h.others a]
  engine := by
    rw [Session.adding, Array.getElem?_push, if_neg (Nat.ne_of_lt (Session.lt_of_engine h.engine))]
    exact h.engine

/-- An engine that both have changes. -/
theorem withOther (h : Absent n x s s') (a : Nat) (y : Engine) :
    Absent n x (s.withEngine a y) (s'.withEngine (shift n a) y) where
  same := ⟨h.same.memory, h.same.builds, h.same.building⟩
  size := by simp [Session.withEngine, h.size]
  known := by
    simp only [Session.withEngine, Array.size_setIfInBounds]
    exact h.known
  running := h.running
  others b := by
    have hknown := h.known
    have hiff : a = b ↔ shift n a = shift n b := ⟨congrArg _, shift_inj⟩
    have hlt : a < s.engines.size ↔ shift n a < s'.engines.size := by
      rw [h.size]
      unfold shift
      split <;> omega
    simp only [Session.withEngine, Array.getElem?_setIfInBounds, hiff, hlt, h.others b]
  engine := by
    rw [Session.getElem?_withEngine_ne (shift_ne n a)]
    exact h.engine

/-- Programs go alike with the engine and without it. -/
def accord (n : Nat) (x : Engine) : Accord none none where
  World := Unit
  rel _ := Absent n x
  twin _ a b := b = shift n a
  odd _ _ _ := False
  same h := h.same
  memory h _ _ := h.moved (h.same.recalling False.elim) ⟨rfl, rfl⟩ ⟨rfl, rfl⟩
  scoping h hc := h.moved (h.same.configuring hc) ⟨rfl, rfl⟩ ⟨rfl, rfl⟩
  group {w s s' b} name h _ := ⟨(), h.moved (h.same.opened b name) ⟨rfl, rfl⟩ ⟨rfl, rfl⟩, trivial,
    fun u u' hu => hu.moved (hu.same.withCursor b _) ⟨rfl, rfl⟩ ⟨rfl, rfl⟩⟩
  declare {w s s' b m d} h _ _ _ := h.moved (h.same.declaring b m d) ⟨rfl, rfl⟩ ⟨rfl, rfl⟩
  build h := ⟨(), h.moved h.same.entering ⟨rfl, rfl⟩ ⟨rfl, rfl⟩, trivial,
    fun u u' hu => hu.moved (hu.same.withBuilding _) ⟨rfl, rfl⟩ ⟨rfl, rfl⟩⟩
  thread {w s s'} h := by
    have hin := h.moved (h.same.withBuilding none) ⟨rfl, rfl⟩ ⟨rfl, rfl⟩
    refine ⟨(), hin.withRunning none, trivial, fun u u' hu => ?_⟩
    have hout := hu.withRunning s.running
    rw [h.same.building, h.running]
    exact hout.moved (hout.same.withBuilding _) ⟨rfl, rfl⟩ ⟨rfl, rfl⟩
  current {w s s'} h := by
    rw [h.running]
    cases s.running with
    | none => exact .inl ⟨rfl, rfl⟩
    | some a => exact .inr ⟨a, shift n a, rfl, rfl, .inl rfl⟩
  run {w s s' a b} h ht := by
    refine ⟨(), ht ▸ h.withRunning (some a), ht, fun u u' hu => ?_⟩
    rw [h.running]
    exact hu.withRunning s.running
  fresh {w s s'} kind h := by
    refine ⟨(), h.adding kind, ?_, fun u u' hu => hu⟩
    rw [h.size, shift, if_neg (Nat.not_lt.mpr h.known)]
  content {w s s' a b} h ht := by
    rw [Array.getD_eq_getD_getElem?, Array.getD_eq_getD_getElem?, h.others a, ht]
  setting {w s s' a b} y h ht := ht ▸ h.withOther a y
  free _ := ⟨nofun, nofun⟩
  report _ _ h := h.elim
  pause h := h.elim
  resume h := h.elim
  wait _ _ h := h.elim
  setTitle _ h := h.elim
  declareGroup _ _ _ h := h.elim
  runTest _ _ h _ := h.elim
  specify _ h _ _ := h.elim

end Absent

/-- There is a new engine, which is `x`. -/
def Session.withNew (s : Session) (x : Engine) : Session := { s with engines := s.engines.push x }

theorem Session.absent_withNew (s : Session) (hr : ∀ r, s.running = some r → r < s.engines.size)
    (x : Engine) : Absent s.engines.size x s (s.withNew x) where
  same := ⟨(Session.Matches.refl s False.elim).memory, rfl, rfl⟩
  size := Array.size_push ..
  known := Nat.le_refl _
  running := by
    show s.running = _
    cases hs : s.running with
    | none => rfl
    | some r => exact congrArg some (if_pos (hr r hs)).symm
  others a := by
    unfold shift withNew
    split
    · rename_i ha
      rw [Array.getElem?_push, if_neg (Nat.ne_of_lt ha)]
    · rename_i ha
      rw [Array.getElem?_eq_none (Nat.not_lt.mp ha), Array.getElem?_eq_none]
      simp only [Array.size_push]
      omega
  engine := Array.getElem?_push_size

/-- A build goes the same with a new engine, and leaves it as it is. -/
theorem BuilderFunction.Programmed.build_absent {fn : BuilderFunction} (hfn : fn.Programmed) {s t : Session}
    {r : Except Failure BuildId} (hb : buildForest fn s = (r, t))
    (hr : ∀ r, s.running = some r → r < s.engines.size) (x : Engine) :
    ∃ u, buildForest fn (s.withNew x) = (r, u) ∧ u.heap = t.heap ∧ (∀ b, u.build b = t.build b) ∧
      u.engines[s.engines.size]? = some x := by
  obtain ⟨hresult, hrel⟩ := hfn.build_alike (A := Absent.accord s.engines.size x) (w := ())
    ⟨id, Nat.zero_le⟩ s _ (s.absent_withNew hr x)
  rw [hb] at hresult hrel
  exact ⟨(buildForest fn (s.withNew x)).2, Prod.ext hresult.symm rfl, hrel.same.heap.symm,
    fun b => congrArg (·.getD b {}) hrel.same.builds.symm, hrel.engine⟩

end Exemplar
