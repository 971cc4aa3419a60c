import Exemplar.Proofs.Items
import Exemplar.Proofs.Nested

/-! The end of a test.

Once the setup of a test has completed, its body is called and then, however it ended, the teardown
hooks in order, up to the first that fails (`Called.TornDown`). A hook that fails keeps the hooks of
the groups further out from being called (`teardown_called`), and its failure takes the place of the
failure of the body (`body_error_recorded`). -/
namespace Exemplar

open Act

/-- The procedures of a hook, in the order of their calls. -/
def Hook.procedures : Hook → List Value
  | procedure v => [v]
  | rolled hooks => hooks

namespace Called

variable {call : Call} {hooks : List Value} {s : Session}

/-- What was called, in order. -/
def procedures (a : Called) : List Value := a.calls.map (·.1)

theorem andThen_assoc (a : Called) (next last : Session → Called) :
    (a.andThen next).andThen last = a.andThen fun s => (next s).andThen last := by
  cases ha : a.outcome with
  | error f => rw [andThen_error ha, andThen_error ha, andThen_error ha]
  | ok u =>
    rw [andThen_ok ha, andThen_ok ha]
    cases hb : (next a.session).outcome with
    | error f => rw [andThen_error (by exact hb), andThen_error hb]
    | ok v =>
      rw [andThen_ok (by exact hb), andThen_ok hb]
      simp only [List.append_assoc]

theorem ensuring_ok {a : Called} {next : Session → Called} (h : (next a.session).outcome = .ok ()) :
    (a.ensuring next).outcome = a.outcome := by
  rw [ensuring, h]

theorem ensuring_error {a : Called} {next : Session → Called} {f : Failure}
    (h : (next a.session).outcome = .error f) : (a.ensuring next).outcome = .error f := by
  rw [ensuring, h]

theorem each_append (first rest : List Value) (s : Session) :
    each call (first ++ rest) s = (each call first s).andThen (each call rest) := by
  induction first generalizing s with
  | nil => rfl
  | cons v more ih =>
    rw [List.cons_append, each, each, andThen_assoc]
    exact congrArg _ (funext fun t => ih t)

theorem each_one (v : Value) (s : Session) : each call [v] s = one call v s := by
  rw [each]
  cases h : (one call v s).outcome with
  | error f => exact andThen_error h _
  | ok u =>
    rw [andThen_ok h]
    simp only [each, List.append_nil, ← h]

theorem hook_eq (k : Hook) (s : Session) : hook call k s = each call k.procedures s := by
  cases k with
  | procedure v => exact (each_one v s).symm
  | rolled hooks => rfl

theorem procedures_andThen {a : Called} (h : a.outcome = .ok ()) (next : Session → Called) :
    (a.andThen next).procedures = a.procedures ++ (next a.session).procedures := by
  rw [andThen_ok h]
  exact List.map_append

/-! ### Calls up to the first that fails -/

theorem each_completes (h : (each call hooks s).outcome = .ok ()) : (each call hooks s).procedures = hooks := by
  induction hooks generalizing s with
  | nil => rfl
  | cons v rest ih =>
    rw [each] at h ⊢
    cases hv : (one call v s).outcome with
    | error f =>
      rw [andThen_error hv, hv] at h
      cases h
    | ok u =>
      rw [andThen_ok hv] at h
      rw [procedures_andThen hv, ih h]
      rfl

theorem each_fails {f : Failure} (h : (each call hooks s).outcome = .error f) :
    ∃ before v after, hooks = before ++ v :: after ∧ (each call hooks s).procedures = before ++ [v] ∧
      (each call before s).outcome = .ok () ∧
      (one call v (each call before s).session).outcome = .error f := by
  induction hooks generalizing s with
  | nil => cases h
  | cons v rest ih =>
    rw [each] at h
    cases hv : (one call v s).outcome with
    | error g =>
      refine ⟨[], v, rest, rfl, ?_, rfl, ?_⟩
      · rw [each, andThen_error hv]
        rfl
      · rwa [andThen_error hv] at h
    | ok u =>
      rw [andThen_ok hv] at h
      obtain ⟨before, w, after, rfl, hcalls, hok, hw⟩ := ih h
      refine ⟨v :: before, w, after, rfl, ?_, ?_, ?_⟩
      · rw [each, procedures_andThen hv, hcalls]
        rfl
      · rw [each, andThen_ok hv]
        exact hok
      · rw [each, andThen_ok hv]
        exact hw

theorem each_upto (call : Call) (hooks : List Value) (s : Session) :
    (each call hooks s).procedures <+: hooks := by
  cases h : (each call hooks s).outcome with
  | ok u => exact (each_completes h).symm ▸ List.prefix_refl hooks
  | error f =>
    obtain ⟨before, v, after, rfl, hcalls, -, -⟩ := each_fails h
    rw [hcalls]
    exact ⟨after, by simp⟩

/-- All are called exactly if none but the last fails. -/
theorem each_all (call : Call) (hooks : List Value) (s : Session) :
    (each call hooks s).procedures = hooks ↔ (each call hooks.dropLast s).outcome = .ok () := by
  rcases List.eq_nil_or_concat hooks with rfl | ⟨inner, outermost, rfl⟩
  · exact iff_of_true rfl rfl
  rw [List.concat_eq_append, List.dropLast_concat, each_append]
  cases h : (each call inner s).outcome with
  | ok u =>
    refine iff_of_true ?_ rfl
    rw [procedures_andThen h, each_completes h, each_one]
    rfl
  | error f =>
    -- what follows the failure was not called, so fewer were called than there are
    refine iff_of_false (fun hall => ?_) nofun
    have hlength := (each_upto call inner s).length_le
    rw [← andThen_error h (each call [outermost]), hall, List.length_append, List.length_singleton] at hlength
    exact absurd hlength (Nat.not_succ_le_self _)

/-! ### Tests -/

/-- How a test goes on after `entered`, the calls of its setup: the body is called, and then the hooks
in order. -/
structure TornDown (test : Called) (call : Call) (body : Value) (hooks : List Value) (entered : Called) :
    Prop where
  order : let torn := each call hooks (one call body entered.session).session
    test.procedures = entered.procedures ++ body :: torn.procedures ∧ torn.procedures <+: hooks
  /-- All hooks are called exactly if none but the last fails. -/
  complete : let ran := one call body entered.session
    test.procedures = entered.procedures ++ body :: hooks ↔
      (each call hooks.dropLast ran.session).outcome = .ok ()
  /-- A hook that fails is the last that is called. -/
  stops : let torn := each call hooks (one call body entered.session).session
    ∀ f, torn.outcome = .error f → test.outcome = .error f ∧
      ∃ before v after, hooks = before ++ v :: after ∧ torn.procedures = before ++ [v]
  /-- If none fails, the test ends as its body did. -/
  ends : let ran := one call body entered.session
    (each call hooks ran.session).outcome = .ok () → test.outcome = ran.outcome
  session : test.session = (each call hooks (one call body entered.session).session).session

theorem wrapped_tornDown (setup : Hook) (body : Value) (teardown : Hook)
    (h : (hook call setup s).outcome = .ok ()) :
    (wrapped call setup body teardown s).TornDown call body teardown.procedures (hook call setup s) := by
  generalize hentered : hook call setup s = entered at h
  have hwrapped : wrapped call setup body teardown s =
      entered.andThen fun s => (one call body s).ensuring (each call teardown.procedures) := by
    rw [wrapped, hentered]
    exact congrArg _ (funext fun t => congrArg _ (funext fun u => hook_eq teardown u))
  have hcalls : (wrapped call setup body teardown s).procedures = entered.procedures ++ body ::
      (each call teardown.procedures (one call body entered.session).session).procedures := by
    rw [hwrapped, procedures_andThen h]
    rfl
  have houtcome : (wrapped call setup body teardown s).outcome =
      ((one call body entered.session).ensuring (each call teardown.procedures)).outcome := by
    rw [hwrapped, andThen_ok h]
  refine ⟨⟨hcalls, each_upto ..⟩, ?_, fun f hf => ⟨?_, ?_⟩, fun hok => ?_, ?_⟩
  · rw [hcalls, List.append_cancel_left_eq, List.cons_eq_cons, eq_self_iff_true, true_and]
    exact each_all ..
  · exact houtcome.trans (ensuring_error hf)
  · obtain ⟨before, v, after, hsplit, hlast, -, -⟩ := each_fails hf
    exact ⟨before, v, after, hsplit, hlast⟩
  · exact houtcome.trans (ensuring_ok hok)
  · rw [hwrapped, andThen_ok h]
    rfl

end Called

/-! ### Results -/

/-- The result of a test that ended with an expression of its error, or with none. -/
theorem Act.concluding_records {e : EngineId} {y : SyncEngine} {t : Session} {outcome : Except Failure Unit}
    {error : Option String} {description : Value} {group text : String}
    (ht : t.engines[e]? = some (.sync y)) (herror : escaped t.heap outcome = .ok error)
    (hgroup : Schema.text t.heap y.group = .ok group) (htext : Schema.text t.heap description = .ok text) :
    concluding e description outcome t = (.ok (), t.withEngine e
      (.sync (y.finish.addResult { group, description := text, reports := y.reports, error }))) := by
  have hmake : makeResult y.group description y.reports error (t.withEngine e (.sync y.finish)) =
      (.ok { group, description := text, reports := y.reports, error }, t.withEngine e (.sync y.finish)) := by
    rw [makeResult, bind_ok (get_apply _)]
    simp only [Session.withEngine, hgroup, htext]
    rfl
  have hended : (t.withEngine e (.sync y.finish)).engines[e]? = some (.sync y.finish) :=
    Session.getElem?_withEngine (Session.lt_of_engine ht) _
  have hof : (Act.ofExcept (.ok error) : Act (Option String)) (t.withEngine e (.sync y.finish)) =
      (.ok error, t.withEngine e (.sync y.finish)) := rfl
  rw [concluding_apply ht, herror, bind_ok hof, bind_ok hmake, changeSync_apply hended,
    Session.withEngine_withEngine]

theorem Act.concluding_interrupted {e : EngineId} {y : SyncEngine} {t : Session} {f : Failure}
    (ht : t.engines[e]? = some (.sync y)) (description : Value) (hf : f.isInterruption = true) :
    concluding e description (.error f) t = (.error f, t.withEngine e (.sync y.finish)) := by
  have hescaped : escaped t.heap (.error f) = .error f := if_pos hf
  rw [concluding_apply ht, hescaped]
  rfl

/-! ### Groups -/

/-- Tests of a group at any depth, whatever its hooks and the bodies are. If the setup hooks of the group
and its ancestors complete, the body is called, and after it the teardown hooks, innermost first:
all of them exactly if none but the outermost fails, and otherwise those up to the first that fails.
So it is on a synchronous engine, unless another group was declared on it by the time the body has
ended (then the hooks of that group are called), and for every item. -/
theorem teardown_called (f : Forest) (n : NodeId) :
    (∀ {e x s}, s.engines[e]? = some (.sync x) → x.setup = .rolled (f.effectiveSetup n) →
      x.teardown = .rolled (f.effectiveTeardown n) → ∀ depth description body,
      let call := callWithin none depth
      let entered := Called.each call (f.effectiveSetup n) (s.begun e)
      entered.outcome = .ok () → ∃ before after z y, TestCourse call e x body s before after z y ∧
        (lastGroup before = none → z.teardown.procedures = f.effectiveTeardown n) ∧
        let test := Called.wrapped call x.setup body z.teardown (s.begun e)
        test.TornDown call body z.teardown.procedures entered ∧
        runTest call e description body s = concluding e description test.outcome test.session) ∧
    ∀ (i : Item) (s : Session), i.group.setup = .rolled (f.effectiveSetup n) →
      i.group.teardown = .rolled (f.effectiveTeardown n) →
      let entered := Called.each call (f.effectiveSetup n) (s.itemSession false)
      entered.outcome = .ok () → let test := i.calls call (s.itemSession false)
        test.TornDown call i.test.body (f.effectiveTeardown n) entered ∧
        (runItem i s).2 = test.session.withRunning s.running ∧
        ∀ g, test.outcome = .error g → (runItem i s).1 = .error g := by
  refine ⟨fun {e x s} hx hsetup hteardown depth description body => ?_, fun i s hsetup hteardown => ?_⟩
  · intro call entered hentered
    obtain ⟨before, after, z, y, h⟩ := TestCourse.exists_of_engine hx depth body
    refine ⟨before, after, z, y, h, fun hnone => ?_, ?_, ?_⟩
    · have hz : z.active = (lastGroup before).getD x.active := h.untilBody.active
      rw [hnone] at hz
      rw [show z.teardown = x.teardown from congrArg (·.2.2) hz, hteardown]
      rfl
    · rw [hsetup]
      exact Called.wrapped_tornDown (.rolled _) body z.teardown hentered
    · rw [runTest_apply hx, h.inTest_calls hx]
  · intro entered hentered test
    refine ⟨?_, runItem_session rfl, fun g hg => congrArg Prod.fst (runItem_raised rfl hg)⟩
    have htest : test = Called.wrapped call (.rolled (f.effectiveSetup n)) i.test.body
        (.rolled (f.effectiveTeardown n)) (s.itemSession false) := by
      rw [← hsetup, ← hteardown]
      rfl
    rw [htest]
    exact Called.wrapped_tornDown (.rolled _) i.test.body (.rolled _) hentered

/-- A group in a group, with their teardown hooks. -/
def Forest.torn (inner outer : Value) : Forest where
  nodes := #[{ name := .text "g", parent := none, children := [1], teardown := outer },
    { name := .text "h", parent := some 0, teardown := inner }]
  roots := [0]

/-- An engine on which the inner of the two groups is active. -/
def SyncEngine.torn : SyncEngine where
  group := .text "g, h"
  setup := .rolled [.noop, .noop]
  teardown := .rolled [.object 1, .object 2]

/-- The body of a test on this engine, and the hooks. -/
def Session.torn (body inner outer : List Step) : Session where
  heap := { cells := #[.procedure (.script none body none), .procedure (.script none inner none),
    .procedure (.script none outer none)] }
  engines := #[.sync .torn]
  running := some 0

/-- The test as an item. -/
def Item.torn : Item where
  id := "m::spec::g, h::x"
  group := { name := "g, h", setup := .rolled [.noop, .noop], teardown := .rolled [.object 1, .object 2] }
  test := { description := "x", body := .object 0 }

def raisingSteps : List Step := [.raise .valueError []]

def loggingSteps (text : String) : List Step := [.log (.text text)]

/-- The body and the outermost hook fail, and every hook is called all the same. -/
theorem teardown_called_outermost :
    let f := Forest.torn (.object 1) (.object 2)
    let s := Session.torn raisingSteps (loggingSteps "inner") raisingSteps
    f.effectiveSetup 1 = [.noop, .noop] ∧ f.effectiveTeardown 1 = [.object 1, .object 2] ∧
    (∃ before after x z y, TestCourse call 0 x (.object 0) s before after z y ∧
      (Called.wrapped call x.setup (.object 0) z.teardown (s.begun 0)).procedures =
        [.noop, .noop, .object 0, .object 1, .object 2]) ∧
    (Item.torn.calls call (s.itemSession false)).procedures =
      [.noop, .noop, .object 0, .object 1, .object 2] := by
  intro f s
  obtain ⟨htests, hitems⟩ := teardown_called f 1
  obtain ⟨before, after, z, y, h, -, htorn, -⟩ :=
    htests (s := s) (e := 0) rfl rfl rfl callDepth (.text "x") (.object 0) rfl
  obtain ⟨hitem, -, -⟩ := hitems .torn s rfl rfl rfl
  have hz := h.atBody rfl
  cases hz
  exact ⟨rfl, rfl, ⟨before, after, _, _, y, h, htorn.complete.mpr rfl⟩, hitem.complete.mpr rfl⟩

/-- The inner hook fails, and the outer one is not called, neither for the test nor for the item. -/
theorem failing_teardown_ends :
    let f := Forest.torn (.object 1) (.object 2)
    let s := Session.torn [] raisingSteps (loggingSteps "outer")
    let test := runTest call 0 (.text "x") (.object 0) s
    f.effectiveTeardown 1 = [.object 1, .object 2] ∧
    (Called.each call (f.effectiveSetup 1) (s.begun 0)).outcome = .ok () ∧
    (Item.torn.calls call (s.itemSession false)).procedures = [.noop, .noop, .object 0, .object 1] ∧
    test.2.log = [] ∧ (test.2.sync 0).results = [⟨"g, h", "x", [], some "ValueError()"⟩] ∧
    runItem .torn s = (.error (.raised .valueError []), (runItem .torn s).2) ∧
    (runItem .torn s).2.log = [] := by
  refine ⟨by rfl, by rfl, by rfl, by rfl, by rfl, by rfl, by rfl⟩

/-- A test that ended on the engine `y` left a result with the expression of a failure as its error, if
there is one. -/
def SyncEngine.Records (y : SyncEngine) (e : EngineId) (t : Session) (description : Value) (raised : Failure)
    (done : Except Failure Unit × Session) : Prop :=
  ∀ group text shown, Schema.text t.heap y.group = .ok group → Schema.text t.heap description = .ok text →
    raised.shown t.heap = .ok shown → done = (.ok (), t.withEngine e (.sync (y.finish.addResult
      { group, description := text, reports := y.reports, error := some shown })))

theorem SyncEngine.concluding_failed {y : SyncEngine} {e : EngineId} {t : Session} {raised : Failure}
    (ht : t.engines[e]? = some (.sync y)) (description : Value) (hf : raised.isInterruption = false) :
    y.Records e t description raised (concluding e description (.error raised) t) := by
  intro group text shown hgroup htext hshown
  refine concluding_records ht ?_ hgroup htext
  rw [escaped, if_neg (Bool.eq_false_iff.mp hf), hshown]
  rfl

/-- A test on a synchronous engine whose setup completes and whose body raises. If all teardown hooks
complete, the result has the expression of the exception as its error. If one raises as well, the
result has the expression of that exception in its place, and after an interruption there is no
result. -/
theorem body_error_recorded {e : EngineId} {x : SyncEngine} {s : Session}
    (hx : s.engines[e]? = some (.sync x)) (depth : Nat) (description body : Value) :
    let call := callWithin none depth
    let run := runTest call e description body s
    ∃ before after z y, TestCourse call e x body s before after z y ∧
      (lastGroup before = none → z.teardown = x.teardown) ∧
      (lastGroup (before ++ after) = none → y.group = x.group) ∧
      let entered := Called.hook call x.setup (s.begun e)
      let ran := Called.one call body entered.session
      let torn := Called.each call z.teardown.procedures ran.session
      ∀ f, entered.outcome = .ok () → ran.outcome = .error f → f.isInterruption = false →
        (torn.outcome = .ok () → y.Records e torn.session description f run) ∧
        ∀ g, torn.outcome = .error g →
          (g.isInterruption = false → y.Records e torn.session description g run) ∧
          (g.isInterruption = true → run = (.error g, torn.session.withEngine e (.sync y.finish))) := by
  intro call run
  obtain ⟨before, after, z, y, h⟩ := TestCourse.exists_of_engine hx depth body
  have hz : z.active = (lastGroup before).getD x.active := h.untilBody.active
  have hy : y.active = (lastGroup (before ++ after)).getD x.active := (h.untilBody.trans h.untilEnd).active
  refine ⟨before, after, z, y, h, fun hnone => ?_, fun hnone => ?_, fun f hentered hraised hf => ?_⟩
  · rw [hnone] at hz
    exact congrArg (·.2.2) hz
  · rw [hnone] at hy
    exact congrArg (·.1) hy
  have htest := Called.wrapped_tornDown x.setup body z.teardown hentered
  have hend := h.atEnd
  have hrun : run = _ := runTest_apply hx call description body
  rw [h.inTest_calls hx] at hrun
  rw [htest.session] at hend hrun
  rw [hrun]
  refine ⟨fun hok => ?_, fun g hg => ⟨fun hexception => ?_, fun hinterrupted => ?_⟩⟩
  · rw [htest.ends hok, hraised]
    exact SyncEngine.concluding_failed hend description hf
  · rw [(htest.stops g hg).1]
    exact SyncEngine.concluding_failed hend description hexception
  · rw [(htest.stops g hg).1]
    exact concluding_interrupted hend description hinterrupted

/-- The body of the test raises, and the hooks complete. -/
def Session.raisingAlone : Session := .torn raisingSteps (loggingSteps "inner") (loggingSteps "outer")

/-- The result has the error of the body. -/
theorem body_error_recorded_alone :
    let done := runTest call 0 (.text "x") (.object 0) .raisingAlone
    done.1 = .ok () ∧ (done.2.sync 0).results = [⟨"g, h", "x", [], some "ValueError()"⟩] := by
  obtain ⟨before, after, z, y, h, -, -, herror⟩ :=
    body_error_recorded (s := .raisingAlone) (e := 0) rfl callDepth (.text "x") (.object 0)
  have hz : (Called.one call (.object 0) (Called.hook call SyncEngine.torn.setup
      (Session.raisingAlone.begun 0)).session).session.engines[0]? = some (.sync SyncEngine.torn.begin) := by rfl
  obtain rfl := Engine.sync.inj (Option.some.inj (hz.symm.trans (h.atBody (by rfl))))
  have hy : (Called.wrapped call SyncEngine.torn.setup (.object 0) SyncEngine.torn.teardown
      (Session.raisingAlone.begun 0)).session.engines[0]? = some (.sync SyncEngine.torn.begin) := by rfl
  obtain rfl := Engine.sync.inj (Option.some.inj (hy.symm.trans h.atEnd))
  obtain ⟨hrecords, -⟩ := herror (.raised .valueError []) (by rfl) (by rfl) (by rfl)
  have hdone := hrecords (by rfl) "g, h" "x" "ValueError()" rfl rfl rfl
  have hlt : 0 < (Called.each call [.object 1, .object 2] (Called.one call (.object 0) (Called.hook call
      SyncEngine.torn.setup (Session.raisingAlone.begun 0)).session).session).session.engines.size := by decide
  refine ⟨congrArg Prod.fst hdone, (congrArg (fun d => (d.2.sync 0).results) hdone).trans ?_⟩
  exact congrArg SyncEngine.results (Session.sync_eq (Session.getElem?_withEngine hlt _))

/-- The body fails with one error and a hook with another: the result has that of the hook. -/
theorem teardown_error_masks :
    let s := Session.torn [.raise .valueError [.text "body"]] [.raise .runtimeError [.text "hook"]] []
    let entered := Called.each call [.noop, .noop] (s.begun 0)
    let ran := Called.one call (.object 0) entered.session
    let test := runTest call 0 (.text "x") (.object 0) s
    entered.outcome = .ok () ∧ ran.outcome = .error (.raised .valueError [.text "body"]) ∧
    (Failure.raised .valueError [.text "body"]).isInterruption = false ∧
    (Failure.raised .valueError [.text "body"]).shown test.2.heap = .ok "ValueError('body')" ∧
    (test.2.sync 0).results = [⟨"g, h", "x", [], some "RuntimeError('hook')"⟩] := by
  refine ⟨by rfl, by rfl, by rfl, by rfl, by rfl⟩

end Exemplar
