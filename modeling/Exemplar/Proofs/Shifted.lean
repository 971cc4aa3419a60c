import Exemplar.Proofs.Testing

/-! A run on one engine beside the same run on another.

The second of two sessions has one engine more, with the number `n`, so that the engines made since
are numbered differently. Its engine `n` goes with the engine `e` of the first session, and may
differ from it in the results of earlier runs. Nothing that a program does shows a difference. -/
namespace Exemplar

open Act

/-- The number of an engine where there is one more engine, with the number `n`. -/
def shift (n a : Nat) : Nat := if a < n then a else a + 1

theorem shift_ne (n a : Nat) : shift n a ≠ n := by
  unfold shift
  split <;> omega

theorem shift_inj {n a b : Nat} (h : shift n a = shift n b) : a = b := by
  unfold shift at h
  split at h <;> split at h <;> omega

/-- The sessions are the same but for the numbers of engines, and the engines `e` and `n`, of which
`P` is known. These are current only if `driven`. -/
structure Shifted (e n : Nat) (P : Engine → Engine → Prop) (driven : Prop) (s s' : Session) : Prop where
  same : s.Matches False s'
  size : s'.engines.size = s.engines.size + 1
  known : n ≤ s.engines.size
  running : s.running = none ∧ s'.running = none ∨ ∃ a b, s.running = some a ∧ s'.running = some b ∧
    (a ≠ e ∧ b = shift n a ∨ driven ∧ a = e ∧ b = n)
  others : ∀ a, a ≠ e → s.engines[a]? = s'.engines[shift n a]?
  pair : ∃ x x', s.engines[e]? = some x ∧ s'.engines[n]? = some x' ∧ P x x'

namespace Shifted

variable {e n : Nat} {P : Engine → Engine → Prop} {driven : Prop} {s s' : Session}

/-- Nothing but the builds and the memory moves on. -/
theorem moved (h : Shifted e n P driven s s') {t t' : Session} (hm : t.Matches False t')
    (ht : t.running = s.running ∧ t.engines = s.engines)
    (ht' : t'.running = s'.running ∧ t'.engines = s'.engines) : Shifted e n P driven t t' := by
  obtain ⟨-, size, known, running, others, pair⟩ := h
  rw [← ht.1, ← ht'.1] at running
  rw [← ht.2, ← ht'.2] at size pair
  rw [← ht.2] at known
  simp only [← ht.2, ← ht'.2] at others
  exact ⟨hm, size, known, running, others, pair⟩

/-- Other engines become current, and the two may be driven from now on or no more. -/
theorem withRunning (h : Shifted e n P driven s s') {driven' : Prop} {r r' : Option EngineId}
    (hr : r = none ∧ r' = none ∨ ∃ a b, r = some a ∧ r' = some b ∧
      (a ≠ e ∧ b = shift n a ∨ driven' ∧ a = e ∧ b = n)) :
    Shifted e n P driven' (s.withRunning r) (s'.withRunning r') :=
  { h with same := ⟨h.same.memory, h.same.builds, h.same.building⟩, running := hr }

theorem mono (h : Shifted e n P driven s s') {Q : Engine → Engine → Prop} (hQ : ∀ x x', P x x' → Q x x') :
    Shifted e n Q driven s s' := by
  obtain ⟨x, x', hx, hx', hP⟩ := h.pair
  exact { h with pair := ⟨x, x', hx, hx', hQ x x' hP⟩ }

theorem adding (h : Shifted e n P driven s s') (kind : EngineKind) :
    Shifted e n P driven (s.adding kind) (s'.adding kind) where
  same := ⟨h.same.memory, h.same.builds, h.same.building⟩
  size := by simp [Session.adding, h.size]
  known := by
    have hknown := h.known
    simp only [Session.adding, Array.size_push]
    omega
  running := h.running
  others a ha := by
    have hknown := h.known
    have hsize : shift n s.engines.size = s.engines.size + 1 := if_neg (Nat.not_lt.mpr hknown)
    have hiff : a = s.engines.size ↔ shift n a = s'.engines.size := by
      rw [h.size, ← hsize]
      exact ⟨congrArg _, shift_inj⟩
    simp only [Session.adding, Array.getElem?_push, hiff, h.others a ha]
  pair := by
    obtain ⟨x, x', hx, hx', hP⟩ := h.pair
    refine ⟨x, x', ?_, ?_, hP⟩
    · rw [Session.adding, Array.getElem?_push, if_neg (Nat.ne_of_lt (Session.lt_of_engine hx))]
      exact hx
    · rw [Session.adding, Array.getElem?_push, if_neg (Nat.ne_of_lt (Session.lt_of_engine hx'))]
      exact hx'

/-- Another engine changes. -/
theorem withOther (h : Shifted e n P driven s s') {a : Nat} (ha : a ≠ e) (y : Engine) :
    Shifted e n P driven (s.withEngine a y) (s'.withEngine (shift n a) y) where
  same := ⟨h.same.memory, h.same.builds, h.same.building⟩
  size := by simp [Session.withEngine, h.size]
  known := by
    simp only [Session.withEngine, Array.size_setIfInBounds]
    exact h.known
  running := h.running
  others b hb := by
    have hknown := h.known
    have hiff : a = b ↔ shift n a = shift n b := ⟨congrArg _, shift_inj⟩
    have hlt : a < s.engines.size ↔ shift n a < s'.engines.size := by
      rw [h.size]
      unfold shift
      split <;> omega
    simp only [Session.withEngine, Array.getElem?_setIfInBounds, hiff, hlt, h.others b hb]
  pair := by
    obtain ⟨x, x', hx, hx', hP⟩ := h.pair
    refine ⟨x, x', ?_, ?_, hP⟩
    · rw [Session.getElem?_withEngine_ne ha]
      exact hx
    · rw [Session.getElem?_withEngine_ne (shift_ne n a)]
      exact hx'

/-- The two engines change. -/
theorem withPair (h : Shifted e n P driven s s') {Q : Engine → Engine → Prop} {y y' : Engine}
    (hy : Q y y') : Shifted e n Q driven (s.withEngine e y) (s'.withEngine n y') where
  same := ⟨h.same.memory, h.same.builds, h.same.building⟩
  size := by simp [Session.withEngine, h.size]
  known := by
    simp only [Session.withEngine, Array.size_setIfInBounds]
    exact h.known
  running := h.running
  others a ha := by
    rw [Session.getElem?_withEngine_ne ha.symm, Session.getElem?_withEngine_ne (shift_ne n a).symm]
    exact h.others a ha
  pair := by
    obtain ⟨x, x', hx, hx', -⟩ := h.pair
    exact ⟨y, y', Session.getElem?_withEngine (Session.lt_of_engine hx) y,
      Session.getElem?_withEngine (Session.lt_of_engine hx') y', hy⟩

/-- What does nothing with engines goes alike. -/
def building (e n : Nat) (P : Engine → Engine → Prop) (driven : Prop) : BuildAccord where
  World := Unit
  rel _ := Shifted e n P driven
  same h := h.same
  memory h _ _ := h.moved (h.same.recalling False.elim) ⟨rfl, rfl⟩ ⟨rfl, rfl⟩
  scoping h hc := h.moved (h.same.configuring hc) ⟨rfl, rfl⟩ ⟨rfl, rfl⟩
  group {w s s' b} name h _ := ⟨(), h.moved (h.same.opened b name) ⟨rfl, rfl⟩ ⟨rfl, rfl⟩, trivial,
    fun u u' hu => hu.moved (hu.same.withCursor b _) ⟨rfl, rfl⟩ ⟨rfl, rfl⟩⟩
  declare {w s s' b n d} h _ _ _ := h.moved (h.same.declaring b n d) ⟨rfl, rfl⟩ ⟨rfl, rfl⟩
  build {w s s'} h := ⟨(), h.moved h.same.entering ⟨rfl, rfl⟩ ⟨rfl, rfl⟩, trivial,
    fun u u' hu => hu.moved (hu.same.withBuilding _) ⟨rfl, rfl⟩ ⟨rfl, rfl⟩⟩

end Shifted

/-! ### The two engines -/

namespace SyncEngine

/-- The engine with results of earlier runs before its own. -/
def after (earlier : List TestResult) (y : SyncEngine) : SyncEngine :=
  { y with results := earlier ++ y.results }

theorem addReport_after (earlier : List TestResult) (y : SyncEngine) (r : Report) :
    (y.after earlier).addReport r = (y.addReport r).after earlier := by
  unfold addReport after
  cases h : y.ledgers <;> simp [h]

theorem addResult_after (earlier : List TestResult) (y : SyncEngine) (r : TestResult) :
    (y.after earlier).addResult r = (y.addResult r).after earlier := by
  simp [addResult, after]

end SyncEngine

/-- The engines are the same but for the results of earlier runs. -/
def Resumed (earlier : List TestResult) (x x' : Engine) : Prop :=
  ∃ y : SyncEngine, x = .sync (y.after earlier) ∧ x' = .sync y

namespace Shifted

section Pair

variable {e n : Nat} {earlier : List TestResult} {driven : Prop} {α : Type}

theorem engine_alike {k k' : Engine → Act α} (hk : ∀ y : SyncEngine,
      Alike (Shifted e n (Resumed earlier) driven) (k (.sync (y.after earlier))) (k' (.sync y))) :
    Alike (Shifted e n (Resumed earlier) driven) (engine e >>= k) (engine n >>= k') := by
  intro s s' h
  obtain ⟨x, x', hx, hx', y, rfl, rfl⟩ := h.pair
  unfold AlikeAt
  rw [engine_bind hx, engine_bind hx']
  exact hk y s s' h

theorem setEngine_alike (y : SyncEngine) : Alike (Shifted e n (Resumed earlier) driven)
    (setEngine e (.sync (y.after earlier))) (setEngine n (.sync y)) :=
  fun _ _ h => ⟨rfl, h.withPair ⟨y, rfl, rfl⟩⟩

theorem changeSync_alike (change : SyncEngine → SyncEngine)
    (hc : ∀ y, change (y.after earlier) = (change y).after earlier) :
    Alike (Shifted e n (Resumed earlier) driven) (changeSync e change) (changeSync n change) := by
  refine engine_alike fun y => ?_
  show Alike _ (setEngine e (.sync (change (y.after earlier)))) _
  rw [hc]
  exact setEngine_alike _

theorem syncEngine_alike {k k' : SyncEngine → Act α}
    (hk : ∀ y, Alike (Shifted e n (Resumed earlier) driven) (k (y.after earlier)) (k' y)) :
    Alike (Shifted e n (Resumed earlier) driven) (syncEngine e >>= k) (syncEngine n >>= k') := by
  unfold syncEngine
  rw [bind_assoc, bind_assoc]
  exact engine_alike fun y => hk y

theorem setTitle_alike (title : Value) : Alike (Shifted e n (Resumed earlier) driven)
    (Act.setTitle e title) (Act.setTitle n title) :=
  engine_alike fun y => setEngine_alike { y with title }

theorem declareGroup_alike (name : Value) (setup teardown : Hook) :
    Alike (Shifted e n (Resumed earlier) driven) (Act.declareGroup e name setup teardown)
      (Act.declareGroup n name setup teardown) :=
  engine_alike fun y => setEngine_alike { y with group := name, setup, teardown }

theorem reportTo_alike (passed : Bool) (message : Value) : Alike (Shifted e n (Resumed earlier) driven)
    (reportTo e passed message) (reportTo n passed message) := by
  refine engine_alike fun y => Alike.ite (fun _ => ?_) fun _ => .throw _
  exact ((building e n (Resumed earlier) driven).quiet (w := ()) (makeReport_quiet passed message)).bind
    fun r => changeSync_alike (·.addReport r) (SyncEngine.addReport_after earlier · r)

theorem pause_alike :
    Alike (Shifted e n (Resumed earlier) driven) (Act.pause e) (Act.pause n) :=
  engine_alike fun y => Alike.ite (fun _ => .throw _) fun _ => setEngine_alike { y with paused := true }

theorem resume_alike :
    Alike (Shifted e n (Resumed earlier) driven) (Act.resume e) (Act.resume n) :=
  engine_alike fun y => setEngine_alike { y with paused := false }

section Calls

variable {call call' : Call}
  (hc : ∀ v args named, Alike (Shifted e n (Resumed earlier) driven) (call v args named) (call' v args named))
include hc

theorem runTest_alike (description body : Value) : Alike (Shifted e n (Resumed earlier) driven)
    (Act.runTest call e description body) (Act.runTest call' n description body) := by
  refine engine_alike fun _ => (changeSync_alike (·.begin) fun _ => rfl).bind fun _ => ?_
  refine Alike.bind (.attempt ?_) fun outcome s s' h => .get ?_
  · refine syncEngine_alike fun y => wrapped_alike hc y.setup body fun hk => ?_
    rw [bind_assoc, bind_assoc]
    exact syncEngine_alike fun y => hk y.teardown
  · rw [← h.same.heap]
    have hquiet : ∀ {α : Type} {a : Act α}, Quiet False a →
        Alike (Shifted e n (Resumed earlier) driven) a a :=
      (building e n (Resumed earlier) driven).quiet (w := ())
    refine syncEngine_alike (fun y => ?_) s s' h
    refine (changeSync_alike (·.finish) fun _ => rfl).bind fun _ => (hquiet (.ofExcept _)).bind fun error =>
      (hquiet (makeResult_quiet _ _ _ _)).bind fun r => ?_
    exact changeSync_alike (·.addResult r) (SyncEngine.addResult_after earlier · r)

theorem performAll_alike (statements : List Statement) : Alike (Shifted e n (Resumed earlier) driven)
    (performAll call e statements) (performAll call' n statements) := by
  induction statements with
  | nil => exact .pure _
  | cons statement rest ih =>
    cases statement with
    | group name befores afters => exact (declareGroup_alike _ _ _).bind fun _ => ih
    | test description body => exact (runTest_alike hc _ body).bind fun _ => ih

end Calls

/-- What is logged of the engines does not matter. -/
theorem record_alike (event event' : Event) :
    Alike (Shifted e n (Resumed earlier) driven) (record event) (record event') := fun _ _ h =>
  ⟨rfl, h.moved ⟨h.same.memory.logging _ _, h.same.builds, h.same.building⟩ ⟨rfl, rfl⟩ ⟨rfl, rfl⟩⟩

theorem specifyOn_alike (hd : driven) {call call' : Call}
    (hc : ∀ v args named, Alike (Shifted e n (Resumed earlier) driven) (call v args named)
      (call' v args named))
    (name : Value) {style : Style} {saveAs : Option String} {module : ModuleId}
    {body body' : Frame → Act Unit}
    (hb : ∀ f, Alike (Shifted e n (Resumed earlier) driven) (body f) (body' f)) :
    Alike (Shifted e n (Resumed earlier) driven) (specifyOn none call e name ⟨style, saveAs, module, body⟩)
      (specifyOn none call' n name ⟨style, saveAs, module, body'⟩) := by
  have hrun : Alike (Shifted e n (Resumed earlier) driven)
      (runSpecification call name ⟨style, saveAs, module, body⟩ e)
      (runSpecification call' name ⟨style, saveAs, module, body'⟩ n) := by
    refine (setTitle_alike name).bind fun _ => ?_
    refine ((building e n (Resumed earlier) driven).buildForest_alike (w := ()) False.elim
      (Nat.zero_le module) fun _ => hb).bind fun b => ?_
    refine ((building e n (Resumed earlier) driven).quiet (w := ()) (compile_quiet b)).bind
      fun statements s s' h => ?_
    have hin : Shifted e n (Resumed earlier) driven (s.withRunning (some e)) (s'.withRunning (some n)) :=
      h.withRunning (.inr ⟨e, n, rfl, rfl, .inr ⟨hd, rfl, rfl⟩⟩)
    show AlikeAt _ (ensuring (performAll call e statements) (modify (·.withRunning s.running)))
      (ensuring (performAll call' n statements) (modify (·.withRunning s'.running)))
      (s.withRunning (some e)) (s'.withRunning (some n))
    exact (performAll_alike hc statements _ _ hin).ensuring fun t t' ht => ⟨rfl, ht.withRunning h.running⟩
  exact hrun.bind fun _ => engine_alike fun y => record_alike _ _

end Pair

/-- Programs go alike on both sides, also while the two engines are current, if all that they differ in
are earlier results. -/
def accord {e n : Nat} {P : Engine → Engine → Prop} {driven : Prop} (earlier : List TestResult)
    (hP : driven → P = Resumed earlier) : Accord none none where
  toBuildAccord := building e n P driven
  twin _ a b := a ≠ e ∧ b = shift n a
  odd _ a b := driven ∧ a = e ∧ b = n
  thread {w s s'} h := by
    have hin := h.moved (h.same.withBuilding none) ⟨rfl, rfl⟩ ⟨rfl, rfl⟩
    refine ⟨(), hin.withRunning (.inl ⟨rfl, rfl⟩), trivial, fun u u' hu => ?_⟩
    have hout := hu.withRunning h.running
    rw [h.same.building]
    exact hout.moved (hout.same.withBuilding _) ⟨rfl, rfl⟩ ⟨rfl, rfl⟩
  current h := h.running
  run {w s s' a b} h ht :=
    ⟨(), h.withRunning (.inr ⟨a, b, rfl, rfl, .inl ht⟩), ht, fun u u' hu => hu.withRunning h.running⟩
  fresh {w s s'} kind h := by
    obtain ⟨x, x', hx, -, -⟩ := h.pair
    refine ⟨(), h.adding kind, ⟨Nat.ne_of_gt (Session.lt_of_engine hx), ?_⟩, fun u u' hu => hu⟩
    rw [h.size, shift, if_neg (Nat.not_lt.mpr h.known)]
  content {w s s' a b} h ht := by
    obtain ⟨ha, rfl⟩ := ht
    rw [Array.getD_eq_getD_getElem?, Array.getD_eq_getD_getElem?, h.others a ha]
  setting x h ht := by
    obtain ⟨ha, rfl⟩ := ht
    exact h.withOther ha x
  free _ := ⟨nofun, nofun⟩
  report passed message ho := by
    obtain ⟨hd, rfl, rfl⟩ := ho
    obtain rfl := hP hd
    exact reportTo_alike passed message
  pause ho := by
    obtain ⟨hd, rfl, rfl⟩ := ho
    obtain rfl := hP hd
    exact pause_alike
  resume ho := by
    obtain ⟨hd, rfl, rfl⟩ := ho
    obtain rfl := hP hd
    exact resume_alike
  wait ms body ho hc := by
    obtain ⟨hd, rfl, rfl⟩ := ho
    obtain rfl := hP hd
    exact waitOn_alike (building _ _ _ _).same (building _ _ _ _).memory (hc ()) pause_alike resume_alike
      ms body
  setTitle title ho := by
    obtain ⟨hd, rfl, rfl⟩ := ho
    obtain rfl := hP hd
    exact setTitle_alike title
  declareGroup name setup teardown ho := by
    obtain ⟨hd, rfl, rfl⟩ := ho
    obtain rfl := hP hd
    exact declareGroup_alike name setup teardown
  runTest description body ho hc := by
    obtain ⟨hd, rfl, rfl⟩ := ho
    obtain rfl := hP hd
    exact runTest_alike (hc ()) description body
  specify name ho hc hb := by
    obtain ⟨hd, rfl, rfl⟩ := ho
    obtain rfl := hP hd
    exact specifyOn_alike hd (hc ()) name (hb ())

end Shifted

end Exemplar
