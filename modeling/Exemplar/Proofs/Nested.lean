import Exemplar.Proofs.Together

/-! Tests within tests on one synchronous engine.

A test may declare groups, run tests and run whole specifications on the engine that runs it. The
engine keeps the active group and whether it records in single places, and nothing is put back when
a test ends. `runTest_told` says what becomes of every test: which hooks are called, which group its
result is in, and which of its reports the result has. -/
namespace Exemplar

open Act

/-- The engine `e` refuses reports, and these are its ledgers. -/
def Deaf (e : EngineId) (ledgers : List (List Report)) (s : Session) : Prop :=
  ∃ y, s.engines[e]? = some (.sync y) ∧ y.recording = false ∧ y.ledgers = ledgers

namespace Deaf

variable {e : EngineId} {ledgers : List (List Report)} {s : Session}

theorem report (h : Deaf e ledgers s) (passed : Bool) (message : Value) :
    reportTo e passed message s = (.error (.misuse .outsideSpec none), s) := by
  obtain ⟨y, hy, hrecording, -⟩ := h
  exact Together.reportTo_refuses hy hrecording passed message

theorem of_course {y : SyncEngine} {t : Session} (ht : OnCourse e y t) (hrecording : y.recording = false)
    (hledgers : y.ledgers = ledgers) : Deaf e ledgers t := by
  obtain ⟨log, z, hz, hcourse⟩ := ht
  obtain ⟨hdeaf, hsame⟩ := hcourse.deaf hrecording
  exact ⟨z, hz, hdeaf, hsame.trans hledgers⟩

theorem step (h : Deaf e ledgers s) (depth : Nat) (f : Frame) (p : Step) :
    Deaf e ledgers (Step.run none (callWithin none depth) f p s).2 := by
  obtain ⟨y, hy, hrecording, hledgers⟩ := h
  exact .of_course (.step hy depth f p) hrecording hledgers

theorem call (h : Deaf e ledgers s) (depth : Nat) (v : Value) (args : List Value)
    (named : List (String × Value)) : Deaf e ledgers (callWithin none depth v args named s).2 := by
  obtain ⟨y, hy, hrecording, hledgers⟩ := h
  exact .of_course (.call hy depth v args named) hrecording hledgers

/-- The end of a test leaves the engine deaf, also for the test around it. -/
theorem of_runTest {y : SyncEngine} (hy : s.engines[e]? = some (.sync y)) (depth : Nat)
    (description body : Value) :
    Deaf e y.ledgers (runTest (callWithin none depth) e description body s).2 := by
  obtain ⟨inner, z, result, hend, hcourse, -⟩ := OnCourse.runTest hy depth description body
  refine ⟨_, hend, rfl, ?_⟩
  have hledgers : z.ledgers = ([] ++ recorded inner) :: y.ledgers := hcourse.ledgers rfl
  simp [SyncEngine.close, SyncEngine.finish, hledgers]

end Deaf

/-! ### A test, told by its calls -/

/-- How a test goes that begins on the engine `x`: `before` happens up to the end of its body,
which leaves the engine `z`, and `after` in the teardown, which is the one that `z` has. If the
setup fails, the test ends with it. -/
structure TestCourse (call : Call) (e : EngineId) (x : SyncEngine) (body : Value) (s : Session)
    (before after : List Happening) (z y : SyncEngine) : Prop where
  untilBody : Course x.begin before z
  untilEnd : Course z after y
  atBody : (Called.hook call x.setup (s.begun e)).outcome = .ok () →
    (Called.one call body (Called.hook call x.setup (s.begun e)).session).session.engines[e]? = some (.sync z)
  atEnd : (Called.wrapped call x.setup body z.teardown (s.begun e)).session.engines[e]? = some (.sync y)

namespace TestCourse

variable {e : EngineId} {x : SyncEngine} {s : Session} {body : Value}

/-- Every test has its course. -/
theorem exists_of_engine (hx : s.engines[e]? = some (.sync x)) (depth : Nat) (body : Value) :
    ∃ before after z y, TestCourse (callWithin none depth) e x body s before after z y := by
  obtain ⟨inSetup, x₁, hx₁, hsetup⟩ := OnCourse.hook (Session.begun_engine hx) depth x.setup
  cases ho : (Called.hook (callWithin none depth) x.setup (s.begun e)).outcome with
  | error f =>
    refine ⟨inSetup, [], x₁, x₁, hsetup, .start, fun hok => ?_, ?_⟩
    · rw [ho] at hok
      cases hok
    · rw [Called.wrapped, Called.andThen_error ho]
      exact hx₁
  | ok u =>
    obtain ⟨inBody, z, hz, hbody⟩ := OnCourse.call hx₁ depth body [] []
    obtain ⟨after, y, hy, hafter⟩ := OnCourse.hook hz depth z.teardown
    refine ⟨inSetup ++ inBody, after, z, y, hsetup.trans hbody, hafter, fun _ => hz, ?_⟩
    rw [Called.wrapped, Called.andThen_ok ho]
    exact hy

variable {call : Call} {before after : List Happening} {z y : SyncEngine}

/-- The calls of the test, with the teardown that is found when the body has ended. -/
theorem inTest_calls (hx : s.engines[e]? = some (.sync x)) (h : TestCourse call e x body s before after z y) :
    inTest call e body (s.begun e) =
      ((Called.wrapped call x.setup body z.teardown (s.begun e)).outcome,
        (Called.wrapped call x.setup body z.teardown (s.begun e)).session) := by
  rw [inTest, bind_ok (syncEngine_apply (Session.begun_engine hx))]
  refine wrapped_calls call x.setup body z.teardown fun t ho ht => ?_
  have hz := h.atBody ho
  rw [← ht] at hz
  rw [bind_ok (syncEngine_apply hz)]
  rfl

theorem reports_eq (h : TestCourse call e x body s before after z y) :
    y.reports = recorded (before ++ after) := by
  have hledgers : y.ledgers = ([] ++ recorded (before ++ after)) :: x.ledgers :=
    (h.untilBody.trans h.untilEnd).ledgers rfl
  rw [SyncEngine.reports, hledgers]
  rfl

end TestCourse

/-- A test on a synchronous engine, whatever programs its hooks and its body are, and whatever
they do on the engine. It calls the setup of the group that is active when it begins, the body,
and the teardown of the group that is active when the body has ended. Its result has the group
that is active when the teardown has ended, and the reports up to the end of the first further
test: after that, every report that the test makes is refused, as no test is recorded any more.
So a test without further tests keeps all its reports, and one in which no group is declared
keeps its group and the hooks of that group. -/
theorem runTest_told {e : EngineId} {x : SyncEngine} {s : Session} (hx : s.engines[e]? = some (.sync x))
    (depth : Nat) (description body : Value) :
    let call := callWithin none depth
    (∃ before after z y, TestCourse call e x body s before after z y ∧
      let test := Called.wrapped call x.setup body z.teardown (s.begun e)
      let log := before ++ after
      runTest call e description body s =
        (do let error ← Act.ofExcept (escaped test.session.heap test.outcome)
            let r ← makeResult y.group description y.reports error
            changeSync e (·.addResult r) : Act Unit) (test.session.withEngine e (.sync y.finish)) ∧
      y.reports = recorded log ∧ Taken log ∧
      ((∀ u ∈ log, u.isTest = false) → ∀ passed message, .refused passed message ∉ log) ∧
      z.active = (lastGroup before).getD x.active ∧ y.active = (lastGroup log).getD x.active ∧
      (lastGroup log = none → z.teardown = x.teardown ∧ y.group = x.group)) ∧
    (∀ t w d b, t.engines[e]? = some (.sync w) → Deaf e w.ledgers (runTest call e d b t).2) ∧
    ∀ ledgers t, Deaf e ledgers t →
      (∀ passed message, reportTo e passed message t = (.error (.misuse .outsideSpec none), t)) ∧
      (∀ f p, Deaf e ledgers (Step.run none call f p t).2) ∧
      ∀ v args named, Deaf e ledgers (call v args named t).2 := by
  intro call
  refine ⟨?_, fun t w d b hw => .of_runTest hw depth d b, fun ledgers t ht =>
    ⟨ht.report, fun f p => ht.step depth f p, fun v args named => ht.call depth v args named⟩⟩
  obtain ⟨before, after, z, y, h⟩ := TestCourse.exists_of_engine hx depth body
  have hcourse : Course x.begin (before ++ after) y := h.untilBody.trans h.untilEnd
  have htaken : Taken (before ++ after) := hcourse.taken rfl
  have hz : z.active = (lastGroup before).getD x.active := h.untilBody.active
  have hy : y.active = (lastGroup (before ++ after)).getD x.active := hcourse.active
  refine ⟨before, after, z, y, h, ?_, h.reports_eq, htaken, htaken.all, hz, hy, fun hnone => ?_⟩
  · rw [runTest_apply hx, h.inTest_calls hx, concluding_apply h.atEnd]
  · rw [hnone] at hy
    rw [lastGroup_append, Option.or_eq_none_iff] at hnone
    rw [hnone.2] at hz
    exact ⟨congrArg (fun g => g.2.2) hz, congrArg (fun g => g.1) hy⟩

/-- A test that reports, declares a group, runs a test in it, and reports again. -/
def nestingSteps : List Step := [
  .report (.bool true) (some (.text "before")),
  .declareGroup (.text "h") (.script none []) (.script none [.log (.text "teardown of h")]),
  .runTest (.text "inner") (.script none [.report (.bool true) (some (.text "in"))]),
  .report (.bool true) (some (.text "after"))]

/-- The engine of the group `"g"`, in which the test is to run. -/
def SyncEngine.grouping : SyncEngine := { group := .text "g", teardown := .procedure (.object 1) }

def Session.nesting : Session where
  heap := { cells := #[.procedure (.script none nestingSteps none),
    .procedure (.script none [.log (.text "teardown of g")] none)] }
  engines := #[.sync .grouping]
  running := some 0

theorem runTest_told_nesting :
    Session.nesting.engines[0]? = some (.sync .grouping) ∧
    ∃ before after z y, TestCourse call 0 .grouping (.object 0) .nesting before after z y ∧
      Taken (before ++ after) ∧ recorded (before ++ after) = [⟨true, some "before"⟩] ∧
      z.teardown ≠ SyncEngine.grouping.teardown ∧ y.group = .text "h" := by
  have hx : Session.nesting.engines[0]? = some (.sync .grouping) := rfl
  obtain ⟨⟨before, after, z, y, h, -, hreports, htaken, -⟩, -⟩ :=
    runTest_told hx callDepth (.text "outer") (.object 0)
  have hz := h.atBody rfl
  cases hz
  have hy := h.atEnd
  cases hy
  exact ⟨hx, before, after, _, _, h, htaken, hreports.symm, by decide, rfl⟩

/-- The report after the nested test fails the outer test and is not in its result. The test began
in the group `"g"`, but its result is in the other group, and so was the teardown. -/
theorem nested_test_ends_outer :
    let t := (runTest call 0 (.text "outer") (.object 0) .nesting).2
    SyncEngine.grouping.group = .text "g" ∧
    (t.sync 0).results = [⟨"h", "inner", [⟨true, some "in"⟩], none⟩,
      ⟨"h", "outer", [⟨true, some "before"⟩],
        some "DSLRuntimeError('Assertions must run inside a spec')"⟩] ∧
    t.log.map (·.event) = [.log (.text "teardown of h"), .log (.text "teardown of h")] := by
  refine ⟨by rfl, by rfl, by rfl⟩

end Exemplar
