import Exemplar.Proofs.Trial
import Exemplar.Proofs.Program

/-! One test on a synchronous engine beside the same test on an item engine.

While the test runs, programs can not tell the two apart: reports, waits and pauses go the same
way, and driving is refused by both, if the synchronous engine is barred. Engines that were made
meanwhile go in pairs. -/
namespace Exemplar

open Act

/-- The engine while a test runs that began on `z`. -/
def SyncEngine.during (z : SyncEngine) (reports : List Report) (paused : Bool) : SyncEngine :=
  { z.begin with ledgers := reports :: z.ledgers, paused }

namespace Session

variable {s : Session} {e : EngineId}

theorem sync_eq {x : SyncEngine} (h : s.engines[e]? = some (.sync x)) : s.sync e = x := by
  simp [sync, Array.getD_eq_getD_getElem?, h]

theorem getElem?_withEngine (he : e < s.engines.size) (x : Engine) :
    (s.withEngine e x).engines[e]? = some x := by
  simp [withEngine, he]

theorem getElem?_withEngine_ne {a : EngineId} (hne : a ≠ e) (x : Engine) :
    (s.withEngine a x).engines[e]? = s.engines[e]? := by
  simp [withEngine, hne]

theorem withEngine_withEngine (s : Session) (e : EngineId) (x y : Engine) :
    (s.withEngine e x).withEngine e y = s.withEngine e y := by
  simp [withEngine]

theorem lt_of_engine {x : Engine} (h : s.engines[e]? = some x) : e < s.engines.size :=
  (Array.getElem?_eq_some_iff.mp h).1

theorem withEngine_self {x : Engine} (h : s.engines[e]? = some x) : s.withEngine e x = s := by
  obtain ⟨he, hx⟩ := Array.getElem?_eq_some_iff.mp h
  have hset : s.engines.setIfInBounds e x = s.engines := by
    refine Array.ext (Array.size_setIfInBounds ..) fun j hj hj' => ?_
    rw [Array.getElem_setIfInBounds]
    split
    · rename_i hej
      simp only [← hx, hej]
    · rfl
  rw [withEngine, hset]

theorem begun_eq {x : SyncEngine} (h : s.engines[e]? = some (.sync x)) :
    s.begun e = s.withEngine e (.sync x.begin) := by
  rw [begun, withSync, sync_eq h]

theorem begun_engine {x : SyncEngine} (h : s.engines[e]? = some (.sync x)) :
    (s.begun e).engines[e]? = some (.sync x.begin) := by
  rw [begun_eq h, getElem?_withEngine (lt_of_engine h)]

end Session

/-- Two sessions beside each other: the engine `e` of the one is in the test that the engine `i`
of the other runs, and the engines from `n` and from `n'` on are the same. The engines `w` are
current. -/
structure Alongside (e i n n' : Nat) (z : SyncEngine) (w : Option EngineId × Option EngineId)
    (s s' : Session) : Prop where
  same : s.Matches False s'
  running : (s.running, s'.running) = w
  paired : w = (none, none) ∨ ∃ a b, w = (some a, some b) ∧
    ((∃ j, a = n + j ∧ b = n' + j) ∨ a = e ∧ b = i)
  sizes : ∃ k, s.engines.size = n + k ∧ s'.engines.size = n' + k
  others : ∀ j, s.engines.getD (n + j) .recording = s'.engines.getD (n' + j) .recording
  test : ∃ reports paused, s.engines[e]? = some (.sync (z.during reports paused)) ∧
    s'.engines[i]? = some (.item ⟨reports, paused⟩)

namespace Alongside

variable {e i n n' : Nat} {z : SyncEngine} {w : Option EngineId × Option EngineId} {s s' : Session}

theorem lt (h : Alongside e i n n' z w s s') : e < s.engines.size ∧ i < s'.engines.size := by
  obtain ⟨reports, paused, he, hi⟩ := h.test
  exact ⟨Session.lt_of_engine he, Session.lt_of_engine hi⟩

theorem withRunning (h : Alongside e i n n' z w s s') {r r' : Option EngineId}
    (hr : (r, r') = (none, none) ∨ ∃ a b, (r, r') = (some a, some b) ∧
      ((∃ j, a = n + j ∧ b = n' + j) ∨ a = e ∧ b = i)) :
    Alongside e i n n' z (r, r') (s.withRunning r) (s'.withRunning r') :=
  { h with same := ⟨h.same.memory, h.same.builds, h.same.building⟩, running := rfl, paired := hr }

theorem recalling (h : Alongside e i n n' z w s s') (m : Memory) :
    Alongside e i n n' z w (s.recalling m) (s'.recalling m) :=
  { h with same := h.same.recalling False.elim }

theorem configuring (h : Alongside e i n n' z w s s') {change : Scoping → Scoping} {floor : ModuleId}
    (hc : Scoping.Regular floor change) :
    Alongside e i n n' z w (s.configuring change) (s'.configuring change) :=
  { h with same := h.same.configuring hc }

/-- Nothing but the builds moves on. -/
theorem moved (h : Alongside e i n n' z w s s') {t t' : Session} (hm : t.Matches False t')
    (ht : t.running = s.running ∧ t.engines = s.engines)
    (ht' : t'.running = s'.running ∧ t'.engines = s'.engines) : Alongside e i n n' z w t t' := by
  obtain ⟨-, running, paired, sizes, others, test⟩ := h
  rw [← ht.1, ← ht'.1] at running
  rw [← ht.2, ← ht'.2] at sizes test
  simp only [← ht.2, ← ht'.2] at others
  exact ⟨hm, running, paired, sizes, others, test⟩

theorem adding (h : Alongside e i n n' z w s s') (kind : EngineKind) :
    Alongside e i n n' z w (s.adding kind) (s'.adding kind) where
  same := ⟨h.same.memory, h.same.builds, h.same.building⟩
  running := h.running
  paired := h.paired
  sizes := by
    obtain ⟨k, hk, hk'⟩ := h.sizes
    refine ⟨k + 1, ?_, ?_⟩ <;> simp [Session.adding, hk, hk', Nat.add_assoc]
  others j := by
    obtain ⟨k, hk, hk'⟩ := h.sizes
    have hj := h.others j
    simp only [Session.adding, Array.getD_eq_getD_getElem?, Array.getElem?_push, hk, hk',
      Nat.add_left_cancel_iff] at hj ⊢
    split
    · rfl
    · exact hj
  test := by
    obtain ⟨reports, paused, he, hi⟩ := h.test
    refine ⟨reports, paused, ?_, ?_⟩
    · rw [Session.adding, Array.getElem?_push, if_neg (Nat.ne_of_lt h.lt.1)]
      exact he
    · rw [Session.adding, Array.getElem?_push, if_neg (Nat.ne_of_lt h.lt.2)]
      exact hi

theorem withPair (h : Alongside e i n n' z w s s') (he : e < n) (hi : i < n') (j : Nat) (x : Engine) :
    Alongside e i n n' z w (s.withEngine (n + j) x) (s'.withEngine (n' + j) x) where
  same := ⟨h.same.memory, h.same.builds, h.same.building⟩
  running := h.running
  paired := h.paired
  sizes := by simpa [Session.withEngine] using h.sizes
  others k := by
    obtain ⟨m, hm, hm'⟩ := h.sizes
    have hk := h.others k
    simp only [Session.withEngine, Array.getD_eq_getD_getElem?, Array.getElem?_setIfInBounds, hm, hm',
      Nat.add_left_cancel_iff, Nat.add_lt_add_iff_left] at hk ⊢
    split
    · rfl
    · exact hk
  test := by
    obtain ⟨reports, paused, he', hi'⟩ := h.test
    have hne : n + j ≠ e := by omega
    have hne' : n' + j ≠ i := by omega
    refine ⟨reports, paused, ?_, ?_⟩
    · rw [Session.getElem?_withEngine_ne hne]
      exact he'
    · rw [Session.getElem?_withEngine_ne hne']
      exact hi'

/-- The test goes on with other reports, or pauses. -/
theorem withTest (h : Alongside e i n n' z w s s') (he : e < n) (hi : i < n') (reports : List Report)
    (paused : Bool) :
    Alongside e i n n' z w (s.withEngine e (.sync (z.during reports paused)))
      (s'.withEngine i (.item ⟨reports, paused⟩)) where
  same := ⟨h.same.memory, h.same.builds, h.same.building⟩
  running := h.running
  paired := h.paired
  sizes := by simpa [Session.withEngine] using h.sizes
  others j := by
    have hj := h.others j
    have hne : e ≠ n + j := by omega
    have hne' : i ≠ n' + j := by omega
    simpa [Session.withEngine, Array.getD_eq_getD_getElem?, Array.getElem?_setIfInBounds, hne, hne']
      using hj
  test := ⟨reports, paused, Session.getElem?_withEngine h.lt.1 _, Session.getElem?_withEngine h.lt.2 _⟩

end Alongside

/-! ### The engines of the test -/

namespace Act

theorem engine_apply (e : EngineId) (s : Session) : engine e s = (.ok (s.engines.getD e .recording), s) := rfl

theorem engine_bind {α : Type} {e : EngineId} {x : Engine} {s : Session} (h : s.engines[e]? = some x)
    (k : Engine → Act α) : (engine e >>= k) s = k x s := by
  rw [bind_ok (engine_apply e s), Array.getD_eq_getD_getElem?, h]
  rfl

theorem changeSync_apply {e : EngineId} {x : SyncEngine} {s : Session}
    (h : s.engines[e]? = some (.sync x)) (change : SyncEngine → SyncEngine) :
    changeSync e change s = (.ok (), s.withEngine e (.sync (change x))) := engine_bind h _

theorem syncEngine_apply {e : EngineId} {x : SyncEngine} {s : Session}
    (h : s.engines[e]? = some (.sync x)) : syncEngine e s = (.ok x, s) := engine_bind h _

theorem telling_barred {α : Type} (s : Session) (e : EngineId) (refusal : Misuse) (a : Act α) :
    telling (some (.driving e)) e refusal a s = (.error (.misuse refusal none), s) := by
  rw [telling, if_pos rfl]
  rfl

theorem handling_barred {α : Type} (s : Session) (e : EngineId) (a : Act α) :
    handling (some (.handling e)) e a s = (.error (.misuse .nestedWait none), s) := by
  rw [handling, if_pos rfl]
  rfl

section Barred

variable {b : Bar} {e : EngineId} (hb : b.engine = e) (s : Session)
include hb

theorem driving_barred {α : Type} (refusal : Misuse) (a : Act α) :
    driving (some b) e refusal a s = (.error (.misuse refusal none), s) := by
  have hbarred : (some b).map Bar.engine = some e := congrArg some hb
  rw [driving, if_pos hbarred]
  rfl

theorem specifyOn_barred (call : Call) (name : Value) (fn : BuilderFunction) :
    specifyOn (some b) call e name fn s = (.error (.misuse .runInsideSpec none), s) := by
  rw [specifyOn, bind_error (driving_barred hb s _ _)]

end Barred

end Act

namespace Alongside

variable {e i n n' : Nat} {z : SyncEngine} {w : Option EngineId × Option EngineId}

theorem report_alike (he : e < n) (hi : i < n') (passed : Bool) (message : Value) :
    Alike (Alongside e i n n' z w) (reportTo e passed message) (reportTo i passed message) := by
  intro s s' h
  obtain ⟨reports, paused, hs, hs'⟩ := h.test
  unfold AlikeAt
  rw [show reportTo e passed message s = _ from engine_bind hs _,
    show reportTo i passed message s' = _ from engine_bind hs' _]
  have hquiet := (makeReport_quiet passed message).at h.same
  refine hquiet.bind_into (fun t t' ht => ?_) fun r t t' ht => ?_
  · obtain ⟨m, -, -, rfl, rfl⟩ := ht
    exact h.recalling m
  · obtain ⟨m, -, -, rfl, rfl⟩ := ht
    unfold AlikeAt
    rw [changeSync_apply (s := s.recalling m) hs]
    exact ⟨rfl, (h.recalling m).withTest he hi (reports ++ [r]) paused⟩

theorem pause_alike (he : e < n) (hi : i < n') :
    Alike (Alongside e i n n' z w) (Act.pause e) (Act.pause i) := by
  intro s s' h
  obtain ⟨reports, paused, hs, hs'⟩ := h.test
  unfold AlikeAt
  rw [show Act.pause e s = _ from engine_bind hs _, show Act.pause i s' = _ from engine_bind hs' _]
  cases paused with
  | true => exact ⟨rfl, h⟩
  | false => exact ⟨rfl, h.withTest he hi reports true⟩

theorem resume_alike (he : e < n) (hi : i < n') :
    Alike (Alongside e i n n' z w) (Act.resume e) (Act.resume i) := by
  intro s s' h
  obtain ⟨reports, paused, hs, hs'⟩ := h.test
  unfold AlikeAt
  rw [show Act.resume e s = _ from engine_bind hs _, show Act.resume i s' = _ from engine_bind hs' _]
  exact ⟨rfl, h.withTest he hi reports false⟩

/-- Both engines refuse to be driven, whatever would come of it. -/
theorem refusal_alike {α : Type} (refusal : Misuse) {a a' : Act α}
    (ha : ∀ s, a s = (.error (.misuse refusal none), s))
    (ha' : ∀ s' item, s'.engines[i]? = some (.item item) → a' s' = (.error (.misuse refusal none), s')) :
    Alike (Alongside e i n n' z w) a a' := by
  refine .refused fun s s' h => ⟨ha s, ?_⟩
  obtain ⟨reports, paused, -, hs'⟩ := h.test
  exact ha' s' _ hs'

theorem specifyOn_alike (call call' : Call) (name : Value) (fn fn' : BuilderFunction) :
    Alike (Alongside e i n n' z w) (specifyOn (some (.driving e)) call e name fn)
      (specifyOn none call' i name fn') := by
  refine refusal_alike _ (specifyOn_barred rfl · _ _ _) fun s' item hs' => ?_
  have hrun : driving none i .runInsideSpec (runSpecification call' name fn' i) s' =
      (.error (.misuse .runInsideSpec none), s') := bind_error (engine_bind hs' _)
  exact bind_error hrun

/-- The two sessions stay beside each other. -/
def accord (he : e < n) (hi : i < n') (z : SyncEngine) : Accord (some (.driving e)) none where
  World := Option EngineId × Option EngineId
  rel := Alongside e i n n' z
  twin _ a b := ∃ j, a = n + j ∧ b = n' + j
  odd _ a b := a = e ∧ b = i
  same h := h.same
  memory h _ _ := h.recalling _
  scoping h hc := h.configuring hc
  group {w s s' b} name h _ :=
    ⟨w, h.moved (h.same.opened b name) ⟨rfl, rfl⟩ ⟨rfl, rfl⟩, trivial,
      fun u u' hu => hu.moved (hu.same.withCursor b _) ⟨rfl, rfl⟩ ⟨rfl, rfl⟩⟩
  declare {w s s' b n d} h _ _ _ := h.moved (h.same.declaring b n d) ⟨rfl, rfl⟩ ⟨rfl, rfl⟩
  build {w s s'} h :=
    ⟨w, h.moved h.same.entering ⟨rfl, rfl⟩ ⟨rfl, rfl⟩, trivial,
      fun u u' hu => hu.moved (hu.same.withBuilding _) ⟨rfl, rfl⟩ ⟨rfl, rfl⟩⟩
  thread {w s s'} h := by
    have hin := h.moved (h.same.withBuilding none) ⟨rfl, rfl⟩ ⟨rfl, rfl⟩
    refine ⟨_, hin.withRunning (.inl rfl), trivial, fun u u' hu => ?_⟩
    have hout := hu.withRunning (h.running ▸ h.paired)
    rw [h.running] at hout
    refine hout.moved ?_ ⟨rfl, rfl⟩ ⟨rfl, rfl⟩
    rw [h.same.building]
    exact hout.same.withBuilding _
  current {w s s'} h := by
    have hp := h.paired
    rw [← h.running] at hp
    rcases hp with hnone | ⟨a, b, hab, hpair⟩
    · exact .inl ⟨congrArg Prod.fst hnone, congrArg Prod.snd hnone⟩
    · exact .inr ⟨a, b, congrArg Prod.fst hab, congrArg Prod.snd hab, hpair⟩
  run {w s s' a b} h ht := by
    refine ⟨_, h.withRunning (.inr ⟨a, b, rfl, .inl ht⟩), ht, fun u u' hu => ?_⟩
    have hout := hu.withRunning (h.running ▸ h.paired)
    rw [h.running] at hout
    exact hout
  fresh {w s s'} kind h := by
    obtain ⟨k, hk, hk'⟩ := h.sizes
    exact ⟨w, h.adding kind, ⟨k, hk, hk'⟩, fun u u' hu => hu⟩
  content h ht := by
    obtain ⟨j, rfl, rfl⟩ := ht
    exact h.others j
  setting x h ht := by
    obtain ⟨j, rfl, rfl⟩ := ht
    exact h.withPair he hi j x
  free ht := by
    obtain ⟨j, rfl, rfl⟩ := ht
    have hne : e ≠ n + j := by omega
    exact ⟨fun hc => hne (Option.some.inj hc), nofun⟩
  report passed message ho := by
    obtain ⟨rfl, rfl⟩ := ho
    exact report_alike he hi passed message
  pause ho := by
    obtain ⟨rfl, rfl⟩ := ho
    exact pause_alike he hi
  resume ho := by
    obtain ⟨rfl, rfl⟩ := ho
    exact resume_alike he hi
  wait ms body ho hc := by
    obtain ⟨rfl, rfl⟩ := ho
    exact waitOn_alike (·.same) (fun h _ _ => h.recalling _) (hc _) (pause_alike he hi) (resume_alike he hi)
      ms body
  setTitle title ho := by
    obtain ⟨rfl, rfl⟩ := ho
    exact refusal_alike _ (telling_barred · _ _ _) fun s' item hs' => engine_bind hs' _
  declareGroup name setup teardown ho := by
    obtain ⟨rfl, rfl⟩ := ho
    exact refusal_alike _ (telling_barred · _ _ _) fun s' item hs' => engine_bind hs' _
  runTest description body ho _ := by
    obtain ⟨rfl, rfl⟩ := ho
    exact refusal_alike _ (driving_barred rfl · _ _) fun s' item hs' => engine_bind hs' _
  specify name ho _ _ := by
    obtain ⟨rfl, rfl⟩ := ho
    exact specifyOn_alike _ _ name _ _

end Alongside

end Exemplar
