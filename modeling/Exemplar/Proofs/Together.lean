import Exemplar.Proofs.Course
import Exemplar.Proofs.Later
import Exemplar.Proofs.Testing

/-! A synchronous engine stays on its course.

Whatever programs do, what happens on a synchronous engine is a course: every title, group,
report and wait is the next happening, and a test that begins on the engine opens a course of its
own, which its end closes (`Together.runTest_alike`). So the accord of a run with itself in which
all engines but this one are twins, and this one is on its course (`Together.accord`), tells of
every call, hook and test where it has led the engine. -/
namespace Exemplar

open Act

/-- The engine `e` is where a course from `x` has led. -/
def OnCourse (e : EngineId) (x : SyncEngine) (s : Session) : Prop :=
  ∃ log y, s.engines[e]? = some (.sync y) ∧ Course x log y

/-- The same session on both sides, on its course. -/
def Together (e : EngineId) (x : SyncEngine) (s s' : Session) : Prop := s = s' ∧ OnCourse e x s

theorem Act.Quiet.engines_eq {α : Type} {a : Act α} (ha : Quiet False a) {s t : Session}
    {r : Except Failure α} (h : a s = (r, t)) : t.engines = s.engines := by
  obtain ⟨m, -, rfl⟩ := ha.still h
  rfl

namespace OnCourse

variable {e : EngineId} {x : SyncEngine} {s : Session}

theorem start (hx : s.engines[e]? = some (.sync x)) : OnCourse e x s := ⟨[], x, hx, .start⟩

/-- Other engines do not matter. -/
theorem moved (h : OnCourse e x s) {t : Session} (ht : t.engines[e]? = s.engines[e]?) : OnCourse e x t := by
  obtain ⟨log, y, hy, hcourse⟩ := h
  exact ⟨log, y, ht.trans hy, hcourse⟩

/-- The next happening leads the engine on. -/
theorem next {y z : SyncEngine} {log : List Happening} (hy : s.engines[e]? = some (.sync y))
    (hcourse : Course x log z) : OnCourse e x (s.withEngine e (.sync z)) :=
  ⟨log, z, Session.getElem?_withEngine (Session.lt_of_engine hy) _, hcourse⟩

theorem lt (h : OnCourse e x s) : e < s.engines.size := by
  obtain ⟨log, y, hy, -⟩ := h
  exact Session.lt_of_engine hy

end OnCourse

namespace Together

variable {e : EngineId} {x : SyncEngine} {s s' : Session} {α : Type}

/-- It is enough to look at one side. -/
theorem keeps {a : Act α} (h : ∀ s, OnCourse e x s → OnCourse e x (a s).2) : Alike (Together e x) a a := by
  rintro s _ ⟨rfl, hs⟩
  exact ⟨rfl, rfl, h s hs⟩

theorem moved (h : Together e x s s') {t t' : Session} (htt : t = t') (ht : t.engines[e]? = s.engines[e]?) :
    Together e x t t' := ⟨htt, h.2.moved ht⟩

/-- What does nothing with engines keeps the engine on its course. -/
def building (e : EngineId) : BuildAccord where
  World := SyncEngine
  rel := Together e
  same h := h.1 ▸ .refl _ False.elim
  memory h _ _ := h.moved (by rw [h.1]) rfl
  scoping h _ := h.moved (by rw [h.1]) rfl
  group {x s s' b} name h _ :=
    ⟨x, h.moved (by rw [h.1]) rfl, trivial, fun u u' hu => hu.moved (by rw [hu.1]) rfl⟩
  declare h _ _ _ := h.moved (by rw [h.1]) rfl
  build {x s s'} h :=
    ⟨x, h.moved (by rw [h.1]) rfl, trivial, fun u u' hu => hu.moved (by rw [hu.1]) rfl⟩

/-! ### The engine itself -/

theorem setTitle_alike (title : Value) : Alike (Together e x) (setTitle e title) (setTitle e title) := by
  refine keeps fun s ⟨log, y, hy, hcourse⟩ => ?_
  rw [show setTitle e title s = _ from engine_bind hy _]
  exact .next hy (hcourse.titled title)

theorem declareGroup_alike (name : Value) (setup teardown : Hook) :
    Alike (Together e x) (declareGroup e name setup teardown) (declareGroup e name setup teardown) := by
  refine keeps fun s ⟨log, y, hy, hcourse⟩ => ?_
  rw [show declareGroup e name setup teardown s = _ from engine_bind hy _]
  exact .next hy (hcourse.declared name setup teardown)

theorem pause_alike : Alike (Together e x) (pause e) (pause e) := by
  refine keeps fun s ⟨log, y, hy, hcourse⟩ => ?_
  rw [show pause e s = _ from engine_bind hy _]
  dsimp only
  split
  · exact ⟨log, y, hy, hcourse⟩
  · exact .next hy (hcourse.waiting true)

theorem resume_alike : Alike (Together e x) (resume e) (resume e) := by
  refine keeps fun s ⟨log, y, hy, hcourse⟩ => ?_
  rw [show resume e s = _ from engine_bind hy _]
  exact .next hy (hcourse.waiting false)

theorem reportTo_refuses {y : SyncEngine} (hy : s.engines[e]? = some (.sync y))
    (hrecording : y.recording = false) (passed : Bool) (message : Value) :
    reportTo e passed message s = (.error (.misuse .outsideSpec none), s) := by
  rw [show reportTo e passed message s = _ from engine_bind hy _]
  dsimp only
  rw [if_neg (Bool.eq_false_iff.mp hrecording)]
  rfl

theorem report_alike (passed : Bool) (message : Value) :
    Alike (Together e x) (reportTo e passed message) (reportTo e passed message) := by
  refine keeps fun s ⟨log, y, hy, hcourse⟩ => ?_
  cases hrecording : y.recording with
  | false =>
    rw [reportTo_refuses hy hrecording]
    exact ⟨_, y, hy, hcourse.refused passed message hrecording⟩
  | true =>
    rw [show reportTo e passed message s = _ from engine_bind hy _]
    dsimp only
    rw [if_pos hrecording]
    rcases hmake : makeReport passed message s with ⟨f | r, t⟩
    · rw [bind_error hmake]
      have ht := (makeReport_quiet passed message).engines_eq hmake
      exact ⟨log, y, by rw [ht]; exact hy, hcourse⟩
    · have ht := (makeReport_quiet passed message).engines_eq hmake
      have hty : t.engines[e]? = some (.sync y) := by rw [ht]; exact hy
      rw [bind_ok hmake, changeSync_apply hty]
      exact .next hty (hcourse.reported r hrecording)

end Together

/-! ### The end of a test -/

theorem Act.makeResult_ok {group description : Value} {reports : List Report} {error : Option String}
    {s t : Session} {r : TestResult} (h : makeResult group description reports error s = (.ok r, t)) :
    Schema.text s.heap group = .ok r.group ∧ r.reports = reports := by
  rw [makeResult, bind_ok (get_apply s)] at h
  cases hgroup : Schema.text s.heap group with
  | error kind =>
    simp only [hgroup] at h
    cases h
  | ok g =>
    cases hdescription : Schema.text s.heap description with
    | error kind =>
      simp only [hgroup, hdescription] at h
      cases h
    | ok d =>
      simp only [hgroup, hdescription] at h
      cases h
      exact ⟨rfl, rfl⟩

/-- What a test does when its calls have ended. -/
def Act.concluding (e : EngineId) (description : Value) (outcome : Except Failure Unit) : Act Unit := do
  let error := escaped (← get).heap outcome
  let ended ← syncEngine e
  changeSync e (·.finish)
  let error ← ofExcept error
  let r ← makeResult ended.group description ended.reports error
  changeSync e (·.addResult r)

section Concluding

variable {e : EngineId} {z : SyncEngine} {t : Session} (ht : t.engines[e]? = some (.sync z))
  (description : Value) (outcome : Except Failure Unit)
include ht

theorem Act.concluding_apply : concluding e description outcome t =
    (do let error ← ofExcept (escaped t.heap outcome)
        let r ← makeResult z.group description z.reports error
        changeSync e (·.addResult r) : Act Unit) (t.withEngine e (.sync z.finish)) := by
  rw [concluding, bind_ok (get_apply t), bind_ok (syncEngine_apply ht), bind_ok (changeSync_apply ht _)]

/-- The engine has ended the test, whatever came of its result. -/
theorem Act.concluding_closes : ∃ result,
    (concluding e description outcome t).2.engines[e]? = some (.sync (z.close result)) ∧
      ∀ r, result = some r → z.Leaves r := by
  have hlt := Session.lt_of_engine ht
  have hfinish : (t.withEngine e (.sync z.finish)).engines[e]? = some (.sync (z.close none)) := by
    rw [Session.getElem?_withEngine hlt]
    simp [SyncEngine.close, SyncEngine.finish]
  rw [concluding_apply ht]
  cases escaped t.heap outcome with
  | error f => exact ⟨none, hfinish, fun r hr => by cases hr⟩
  | ok error =>
    show ∃ result, ((makeResult z.group description z.reports error >>= fun r =>
      changeSync e (·.addResult r)) _).2.engines[e]? = _ ∧ _
    rcases hmake : makeResult z.group description z.reports error (t.withEngine e (.sync z.finish))
      with ⟨f | r, u⟩
    · have hu := (makeResult_quiet _ _ _ _).engines_eq hmake
      rw [bind_error hmake]
      exact ⟨none, by rw [hu]; exact hfinish, fun r hr => by cases hr⟩
    · have hu := (makeResult_quiet _ _ _ _).engines_eq hmake
      obtain ⟨hgroup, hreports⟩ := makeResult_ok hmake
      have huz : u.engines[e]? = some (.sync z.finish) := by
        rw [hu, Session.getElem?_withEngine hlt]
      rw [bind_ok hmake, changeSync_apply huz]
      refine ⟨some r, Session.getElem?_withEngine (Session.lt_of_engine huz) _, fun r' hr => ?_⟩
      cases hr
      exact ⟨⟨_, hgroup⟩, hreports⟩

end Concluding

/-- The hooks and the body of a test, between its beginning and its end. -/
def Act.inTest (call : Call) (e : EngineId) (body : Value) : Act Unit := do
  wrapped call (← syncEngine e).setup body (do return (← syncEngine e).teardown)

theorem Act.runTest_apply {e : EngineId} {x : SyncEngine} {s : Session} (hx : s.engines[e]? = some (.sync x))
    (call : Call) (description body : Value) :
    runTest call e description body s =
      concluding e description (inTest call e body (s.begun e)).1
        (inTest call e body (s.begun e)).2 := by
  have hbegin : changeSync e (·.begin) s = (.ok (), s.begun e) := by
    rw [changeSync_apply hx, Session.begun_eq hx]
  have hattempt : attempt (inTest call e body) (s.begun e) =
      (.ok (inTest call e body (s.begun e)).1,
        (inTest call e body (s.begun e)).2) := rfl
  rw [show runTest call e description body s = runNow call e description body s from engine_bind hx _]
  exact (bind_ok hbegin).trans (bind_ok hattempt)

namespace Together

variable {e : EngineId} {x : SyncEngine} {s s' : Session} {call call' : Call}

/-- What asks the engine of a test goes alike if what follows does. -/
theorem syncEngine_alike {α : Type} {k k' : SyncEngine → Act α}
    (hk : ∀ y, Alike (Together e x) (k y) (k' y)) :
    Alike (Together e x) (syncEngine e >>= k) (syncEngine e >>= k') := by
  rintro s _ ⟨rfl, hs⟩
  obtain ⟨log, y, hy, hcourse⟩ := hs
  unfold AlikeAt
  rw [bind_ok (syncEngine_apply hy), bind_ok (syncEngine_apply hy)]
  exact hk y s s ⟨rfl, log, y, hy, hcourse⟩

theorem inTest_alike (hc : ∀ v args named, Alike (Together e x) (call v args named) (call' v args named))
    (body : Value) : Alike (Together e x) (inTest call e body) (inTest call' e body) := by
  refine syncEngine_alike fun y => wrapped_alike hc y.setup body fun hk => ?_
  rw [bind_assoc, bind_assoc]
  exact syncEngine_alike fun y => (Alike.pure _).bind hk

/-- A test that keeps the engine on its course is closed on it, whatever comes of its result. -/
theorem runTest_closes {y : SyncEngine} (hy : s.engines[e]? = some (.sync y)) (description body : Value)
    (hin : OnCourse e y.begin (inTest call e body (s.begun e)).2) :
    ∃ inner z result, (runTest call e description body s).2.engines[e]? = some (.sync (z.close result)) ∧
      Course y.begin inner z ∧ ∀ r, result = some r → z.Leaves r := by
  obtain ⟨inner, z, hz, hinner⟩ := hin
  obtain ⟨result, hend, hleaves⟩ := concluding_closes hz description
    (inTest call e body (s.begun e)).1
  rw [runTest_apply hy]
  exact ⟨inner, z, result, hend, hinner, hleaves⟩

/-- Calls go alike, wherever the engine is on its courses. -/
def Calls (e : EngineId) (call call' : Call) : Prop :=
  ∀ x v args named, Alike (Together e x) (call v args named) (call' v args named)

/-- A further test on the engine happens, however it goes. -/
theorem runTest_alike (hc : Calls e call call') (description body : Value) :
    Alike (Together e x) (runTest call e description body) (runTest call' e description body) := by
  rintro s _ ⟨rfl, log, y, hy, hcourse⟩
  have hbegun : OnCourse e y.begin (s.begun e) := .start (Session.begun_engine hy)
  obtain ⟨hr, hsession, hin⟩ := inTest_alike (hc y.begin) body _ _ ⟨rfl, hbegun⟩
  have hsame : runTest call e description body s = runTest call' e description body s := by
    rw [runTest_apply hy, runTest_apply hy, hr, hsession]
  obtain ⟨inner, z, result, hend, hinner, hleaves⟩ := runTest_closes hy description body hin
  unfold AlikeAt
  rw [← hsame]
  exact ⟨rfl, rfl, _, _, hend, hcourse.tested result hinner hleaves⟩

/-! ### Runs on the engine -/

theorem performAll_alike (hc : Calls e call call') (statements : List Statement) :
    Alike (Together e x) (performAll call e statements) (performAll call' e statements) := by
  induction statements with
  | nil => exact .pure _
  | cons statement rest ih =>
    cases statement with
    | group name befores afters => exact (declareGroup_alike _ _ _).bind fun _ => ih
    | test description body => exact (runTest_alike hc _ body).bind fun _ => ih

variable {style : Style} {saveAs : Option String} {module : ModuleId} {body body' : Frame → Act Unit}

theorem specifyOn_alike (hc : Calls e call call') (name : Value)
    (hb : ∀ x f, Alike (Together e x) (body f) (body' f)) :
    Alike (Together e x) (specifyOn none call e name ⟨style, saveAs, module, body⟩)
      (specifyOn none call' e name ⟨style, saveAs, module, body'⟩) := by
  have hrun : Alike (Together e x) (runSpecification call name ⟨style, saveAs, module, body⟩ e)
      (runSpecification call' name ⟨style, saveAs, module, body'⟩ e) := by
    refine (setTitle_alike name).bind fun _ =>
      ((building e).buildForest_alike False.elim (Nat.zero_le module) hb).bind fun b =>
        ((building e).quiet (compile_quiet b)).bind fun statements s s' h => ?_
    show AlikeAt (Together e x) (ensuring (performAll call e statements) (modify (·.withRunning s.running)))
      (ensuring (performAll call' e statements) (modify (·.withRunning s'.running)))
      (s.withRunning (some e)) (s'.withRunning (some e))
    have hin : Together e x (s.withRunning (some e)) (s'.withRunning (some e)) := h.moved (by rw [h.1]) rfl
    refine (performAll_alike hc statements _ _ hin).ensuring fun t t' ht => ⟨rfl, ht.moved ?_ rfl⟩
    rw [h.1, ht.1]
  exact hrun.bind fun _ => keeps fun s hs => hs.moved rfl

/-- Programs keep the engine on its course. -/
def accord (e : EngineId) : Accord none none where
  toBuildAccord := building e
  twin _ a b := a = b ∧ a ≠ e
  odd _ a b := a = e ∧ b = e
  thread {x s s'} h :=
    ⟨x, h.moved (by rw [h.1]) rfl, trivial, fun u u' hu => hu.moved (by rw [hu.1, h.1]) rfl⟩
  current {x s s'} h := by
    obtain ⟨rfl, -⟩ := h
    cases ha : s.running with
    | none => exact .inl ⟨rfl, rfl⟩
    | some a =>
      refine .inr ⟨a, a, rfl, rfl, ?_⟩
      by_cases hae : a = e
      · exact .inr ⟨hae, hae⟩
      · exact .inl ⟨rfl, hae⟩
  run {x s s' a b} h ht := by
    obtain ⟨rfl, hne⟩ := ht
    exact ⟨x, h.moved (by rw [h.1]) rfl, ⟨rfl, hne⟩, fun u u' hu => hu.moved (by rw [hu.1, h.1]) rfl⟩
  fresh {x s s'} kind h := by
    obtain ⟨rfl, hs⟩ := h
    have hne : s.engines.size ≠ e := Nat.ne_of_gt hs.lt
    refine ⟨x, ⟨rfl, hs.moved ?_⟩, ⟨rfl, hne⟩, fun u u' hu => hu⟩
    rw [Session.adding, Array.getElem?_push, if_neg hne.symm]
  content h ht := by rw [h.1, ht.1]
  setting y h ht := by
    obtain ⟨rfl, hne⟩ := ht
    exact h.moved (by rw [h.1]) (Session.getElem?_withEngine_ne hne y)
  free _ := ⟨nofun, nofun⟩
  report passed message ho := by
    obtain ⟨rfl, rfl⟩ := ho
    exact report_alike passed message
  pause ho := by
    obtain ⟨rfl, rfl⟩ := ho
    exact pause_alike
  resume ho := by
    obtain ⟨rfl, rfl⟩ := ho
    exact resume_alike
  wait ms body ho hc := by
    obtain ⟨rfl, rfl⟩ := ho
    exact waitOn_alike (building _).same (building _).memory (hc _) pause_alike resume_alike ms body
  setTitle title ho := by
    obtain ⟨rfl, rfl⟩ := ho
    exact setTitle_alike title
  declareGroup name setup teardown ho := by
    obtain ⟨rfl, rfl⟩ := ho
    exact declareGroup_alike name setup teardown
  runTest description body ho hc := by
    obtain ⟨rfl, rfl⟩ := ho
    exact runTest_alike hc description body
  specify name ho hc hb := by
    obtain ⟨rfl, rfl⟩ := ho
    exact specifyOn_alike hc name hb

end Together

/-! ### Programs keep the engine on its course -/

section Programs

variable {e : EngineId} {y : SyncEngine} {t : Session} (ht : t.engines[e]? = some (.sync y)) (depth : Nat)
include ht

theorem OnCourse.call (v : Value) (args : List Value) (named : List (String × Value)) :
    OnCourse e y (callWithin none depth v args named t).2 :=
  ((Together.accord e).callWithin_alike depth y v args named t t ⟨rfl, .start ht⟩).2.2

theorem OnCourse.step (f : Frame) (p : Step) : OnCourse e y (Step.run none (callWithin none depth) f p t).2 :=
  ((Together.accord e).step_alike ((Together.accord e).callWithin_alike depth) f p False.elim
    t t ⟨rfl, .start ht⟩).2.2

theorem OnCourse.hook (hook : Hook) : OnCourse e y (Called.hook (callWithin none depth) hook t).session := by
  have hhook := (runHook_alike ((Together.accord e).callWithin_alike depth y) hook t t ⟨rfl, .start ht⟩).2.2
  rw [runHook_calls] at hhook
  exact hhook

theorem OnCourse.runTest (description body : Value) : ∃ inner z result,
    (Act.runTest (callWithin none depth) e description body t).2.engines[e]? = some (.sync (z.close result)) ∧
      Course y.begin inner z ∧ ∀ r, result = some r → z.Leaves r := by
  have hbegun : OnCourse e y.begin (t.begun e) := .start (Session.begun_engine ht)
  have hcalls := (Together.accord e).callWithin_alike depth y.begin
  exact Together.runTest_closes ht description body (Together.inTest_alike hcalls body _ _ ⟨rfl, hbegun⟩).2.2

end Programs

end Exemplar
