import Exemplar.Proofs.Testing
import Exemplar.Proofs.Wording

/-! What a synchronous run does.

If none of its calls drives the engine, performing the compiled statements is trying the cases
one after the other (`performAll_conducts`): every result is that of its own case, and the run
goes on after every exception that has an expression. -/
namespace Exemplar

open Act

/-- Calling `v` from `s` goes the same if the engine `e` refuses to be driven: nothing that runs
in the call sets a title, declares a group, or runs a test or a specification on it. -/
def Spares (e : EngineId) (v : Value) (s : Session) : Prop :=
  callWithin (some (.driving e)) callDepth v [] [] s = call v [] [] s

namespace Called

/-- All these calls spare the engine `e`. -/
def Spare (e : EngineId) (a : Called) : Prop := ∀ c ∈ a.calls, Spares e c.1 c.2

/-- The same was called, and it ended the same way, in sessions related by `R`. -/
structure Agree (R : Session → Session → Prop) (a a' : Called) : Prop where
  values : a.calls.map (·.1) = a'.calls.map (·.1)
  outcome : a.outcome = a'.outcome
  session : R a.session a'.session

variable {e i n n' : Nat} {z : SyncEngine} {w : Option EngineId × Option EngineId} {s s' : Session}

theorem andThen_spare {a : Called} {next : Session → Called} (h : (a.andThen next).Spare e) :
    a.Spare e := by
  cases ho : a.outcome with
  | ok u =>
    rw [andThen_ok ho] at h
    exact fun c hc => h c (List.mem_append_left _ hc)
  | error f =>
    rw [andThen_error ho] at h
    exact h

theorem andThen_agree {R : Session → Session → Prop} {a a' : Called} {next next' : Session → Called}
    (ha : a.Agree R a') (hspare : (a.andThen next).Spare e)
    (hnext : (next a.session).Spare e → (next a.session).Agree R (next' a'.session)) :
    (a.andThen next).Agree R (a'.andThen next') := by
  cases ho : a.outcome with
  | error f =>
    rw [andThen_error ho, andThen_error (ha.outcome ▸ ho)]
    exact ha
  | ok u =>
    rw [andThen_ok ho] at hspare ⊢
    rw [andThen_ok (ha.outcome ▸ ho)]
    have hn := hnext fun c hc => hspare c (List.mem_append_right _ hc)
    exact ⟨by simp only [List.map_append, ha.values, hn.values], hn.outcome, hn.session⟩

theorem ensuring_agree {R : Session → Session → Prop} {a a' : Called} {next next' : Session → Called}
    (ha : a.Agree R a') (hspare : (a.ensuring next).Spare e)
    (hnext : (next a.session).Spare e → (next a.session).Agree R (next' a'.session)) :
    (a.ensuring next).Agree R (a'.ensuring next') := by
  have hn := hnext fun c hc => hspare c (List.mem_append_right _ hc)
  refine ⟨?_, ?_, hn.session⟩
  · simp only [ensuring, List.map_append, ha.values, hn.values]
  · simp only [ensuring, hn.outcome, ha.outcome]

theorem one_agree (he : e < n) (hi : i < n') {v : Value} (h : Alongside e i n n' z w s s')
    (hspare : (one call v s).Spare e) :
    (one call v s).Agree (Alongside e i n n' z w) (one call v s') := by
  have hs : callWithin (some (.driving e)) callDepth v [] [] s = call v [] [] s := hspare _ List.mem_cons_self
  obtain ⟨hr, hR⟩ := (Alongside.accord he hi z).callWithin_alike callDepth w v [] [] s s' h
  rw [hs] at hr hR
  exact ⟨rfl, congrArg (Except.map fun _ => ()) hr, hR⟩

theorem each_agree (he : e < n) (hi : i < n') {vs : List Value} (h : Alongside e i n n' z w s s')
    (hspare : (each call vs s).Spare e) :
    (each call vs s).Agree (Alongside e i n n' z w) (each call vs s') := by
  induction vs generalizing s s' with
  | nil => exact ⟨rfl, rfl, h⟩
  | cons v rest ih =>
    have hfirst := one_agree he hi h (andThen_spare hspare)
    exact andThen_agree hfirst hspare fun hs => ih hfirst.session hs

end Called

/-- A case goes the same way on both engines. -/
theorem Case.calls_agree {e i n n' : Nat} {z : SyncEngine} {w : Option EngineId × Option EngineId}
    {s s' : Session} (he : e < n) (hi : i < n')
    (c : Case) (h : Alongside e i n n' z w s s') (hspare : (c.calls call s).Spare e) :
    (c.calls call s).Agree (Alongside e i n n' z w) (c.calls call s') := by
  have hsetup := Called.each_agree he hi h (Called.andThen_spare hspare)
  refine Called.andThen_agree hsetup hspare fun hs => ?_
  have hbody := Called.one_agree he hi hsetup.session fun q hq => hs q (List.mem_append_left _ hq)
  exact Called.ensuring_agree hbody hs fun hs => Called.each_agree he hi hbody.session hs

/-! ### One test -/

namespace SyncEngine

/-- The group at the end of a path is active. -/
def Active (x : SyncEngine) (p : Path) : Prop :=
  x.group = .text p.name ∧ x.setup = .rolled p.befores ∧ x.teardown = .rolled p.afters

end SyncEngine

variable {e : EngineId} {x : SyncEngine} {s : Session}

theorem Session.grouped_engine (hx : s.engines[e]? = some (.sync x)) (p : Path) :
    (s.grouped e p).engines[e]? = some (.sync { x with
      group := .text p.name, setup := .rolled p.befores, teardown := .rolled p.afters }) := by
  rw [grouped, withSync, getElem?_withEngine (lt_of_engine hx), sync_eq hx]

/-- The session of a test that an item engine runs. -/
def Session.itemSession (r : Session) (paused : Bool) : Session :=
  { r with engines := r.engines.push (.item ⟨[], paused⟩), running := some r.engines.size }

/-- A test begins beside the same test on an item engine. -/
theorem Session.begun_alongside (hx : s.engines[e]? = some (.sync x)) (hr : s.running = some e)
    {r : Session} (hm : s.Matches False r) :
    Alongside e r.engines.size s.engines.size (r.engines.size + 1) x (some e, some r.engines.size)
      (s.begun e) (r.itemSession x.paused) where
  same := ⟨hm.memory, hm.builds, hm.building⟩
  running := congrArg (·, some r.engines.size) hr
  paired := .inr ⟨e, r.engines.size, rfl, .inr ⟨rfl, rfl⟩⟩
  sizes := ⟨0, by simp [begun, withSync, withEngine], by simp [itemSession]⟩
  others j := by
    have hs : (s.begun e).engines.size ≤ s.engines.size + j := by simp [begun, withSync, withEngine]
    have hr : (r.itemSession x.paused).engines.size ≤ r.engines.size + 1 + j := by simp [itemSession]
    rw [Array.getD_eq_getD_getElem?, Array.getD_eq_getD_getElem?, Array.getElem?_eq_none hs,
      Array.getElem?_eq_none hr]
  test := ⟨[], x.paused, begun_engine hx, by simp [itemSession]⟩

/-- The engine of a test after calls that spare it. -/
theorem Case.calls_engine (hx : s.engines[e]? = some (.sync x)) (hr : s.running = some e) (c : Case)
    (hspare : (c.calls call (s.begun e)).Spare e) :
    (c.calls call (s.begun e)).session.running = some e ∧
    ∃ reports paused, (c.calls call (s.begun e)).session.engines[e]? =
      some (.sync (x.during reports paused)) := by
  have hside := Session.begun_alongside hx hr (.refl s False.elim)
  have hend := (c.calls_agree (Session.lt_of_engine hx) (Nat.lt_succ_self _) hside hspare).session
  obtain ⟨reports, paused, hs, -⟩ := hend.test
  exact ⟨congrArg Prod.fst hend.running, reports, paused, hs⟩

/-- The engine when the body of a test has ended. -/
theorem Case.body_engine (hx : s.engines[e]? = some (.sync x)) (hr : s.running = some e) (c : Case)
    (hspare : (c.calls call (s.begun e)).Spare e)
    (ho : (Called.each call c.path.befores (s.begun e)).outcome = .ok ()) :
    let setup := Called.each call c.path.befores (s.begun e)
    ∃ reports paused, (Called.one call c.spec.body setup.session).session.engines[e]? =
      some (.sync (x.during reports paused)) := by
  have hside := Session.begun_alongside hx hr (.refl s False.elim)
  have he := Session.lt_of_engine hx
  have hi := Nat.lt_succ_self s.engines.size
  have hsetup := Called.each_agree he hi hside (Called.andThen_spare hspare)
  rw [Case.calls, Called.andThen_ok ho] at hspare
  have hbody := Called.one_agree he hi hsetup.session fun q hq =>
    hspare q (List.mem_append_right _ (List.mem_append_left _ hq))
  obtain ⟨reports, paused, hs, -⟩ := hbody.session.test
  exact ⟨reports, paused, hs⟩

/-- Between its beginning and its end a test of the active group makes the calls of its case. -/
theorem wrapped_case (hx : s.engines[e]? = some (.sync x)) (hr : s.running = some e) (c : Case)
    (hp : x.Active c.path) (hspare : (c.calls call (s.begun e)).Spare e) :
    (do wrapped call (← syncEngine e).setup c.spec.body (do return (← syncEngine e).teardown)) (s.begun e) =
      ((c.calls call (s.begun e)).outcome, (c.calls call (s.begun e)).session) := by
  obtain ⟨-, hsetup, hteardown⟩ := hp
  rw [bind_ok (syncEngine_apply (Session.begun_engine hx))]
  show wrapped call x.setup c.spec.body _ (s.begun e) = _
  rw [hsetup, c.calls_eq]
  refine wrapped_calls call _ _ _ fun t ho ht => ?_
  -- the teardown is looked up when the body has ended, on an engine that is still in this test
  rw [Called.hook] at ho ht
  obtain ⟨reports, paused, hengine⟩ := c.body_engine hx hr hspare ho
  rw [← ht] at hengine
  rw [bind_ok (syncEngine_apply hengine), ← hteardown]
  rfl

/-- The test of a case that was tried ends. -/
theorem Session.ended_eq {t : Session} {reports : List Report} {paused : Bool}
    (h : t.engines[e]? = some (.sync (x.during reports paused))) (results : List TestResult) :
    t.ended e results = t.withEngine e
      (.sync { (x.during reports paused).finish with results := x.results ++ results }) := by
  rw [Session.ended, Session.withSync, Session.sync_eq h]
  rfl

/-- A test of the active group tries its case and leaves one result, unless a failure ends the
run. -/
theorem runTest_case (hx : s.engines[e]? = some (.sync x)) (hr : s.running = some e) (c : Case)
    (hp : x.Active c.path) (hspare : (c.calls call (s.begun e)).Spare e) :
    runTest call e (.text c.spec.description) c.spec.body s =
      let trial := c.calls call (s.begun e)
      match escaped trial.session.heap trial.outcome with
      | .ok error => (.ok (), trial.session.ended e [c.result e trial error])
      | .error f => (.error f, trial.session.ended e []) := by
  obtain ⟨-, reports, paused, hended⟩ := c.calls_engine hx hr hspare
  have hattempt : attempt
      (do wrapped call (← syncEngine e).setup c.spec.body (do return (← syncEngine e).teardown))
      (s.begun e) = (.ok (c.calls call (s.begun e)).outcome, (c.calls call (s.begun e)).session) := by
    simp only [attempt, wrapped_case hx hr c hp hspare]
  rw [show runTest call e (.text c.spec.description) c.spec.body s =
    runNow call e (.text c.spec.description) c.spec.body s from engine_bind hx _]
  rw [runNow, bind_ok (changeSync_apply hx _), ← Session.begun_eq hx, bind_ok hattempt]
  generalize c.calls call (s.begun e) = trial at hended ⊢
  show (syncEngine e >>= fun ended => changeSync e (·.finish) >>= fun _ =>
    Act.ofExcept (escaped trial.session.heap trial.outcome) >>= fun error =>
      makeResult ended.group (.text c.spec.description) ended.reports error >>= fun r =>
        changeSync e (·.addResult r)) trial.session = _
  rw [bind_ok (syncEngine_apply hended), bind_ok (changeSync_apply hended _)]
  have hlt := Session.lt_of_engine hended
  dsimp only
  cases escaped trial.session.heap trial.outcome with
  | ok error =>
    have hresult : ∀ t, makeResult (x.during reports paused).group (.text c.spec.description)
        (x.during reports paused).reports error t = (.ok (c.result e trial error), t) := fun t => by
      rw [show (x.during reports paused).group = .text c.path.name from hp.1, Case.result,
        Session.sync_eq hended]
      rfl
    have herror : ∀ t, Act.ofExcept (.ok error) t = (.ok error, t) := fun _ => rfl
    rw [bind_ok (herror _), bind_ok (hresult _),
      changeSync_apply (Session.getElem?_withEngine hlt _), Session.withEngine_withEngine]
    show _ = (Except.ok (), trial.session.ended e [c.result e trial error])
    rw [Session.ended_eq hended]
    rfl
  | error f =>
    show _ = (Except.error f, trial.session.ended e [])
    rw [Session.ended_eq hended, List.append_nil]
    rfl

/-! ### The run -/

namespace Session

/-- The sessions are the same but for the group that is active on the engine `e`. -/
def SameBut (e : EngineId) (s t : Session) : Prop :=
  ∃ group setup teardown, t = s.withSync e { s.sync e with group, setup, teardown }

theorem ended_engine {reports : List Report} {paused : Bool}
    (h : s.engines[e]? = some (.sync (x.during reports paused))) (results : List TestResult) :
    (s.ended e results).engines[e]? = some (.sync { x with
      results := x.results ++ results, recording := false, paused := false }) := by
  rw [ended_eq h, getElem?_withEngine (lt_of_engine h)]
  rfl

theorem grouped_of_active (hx : s.engines[e]? = some (.sync x)) {p : Path} (hp : x.Active p) :
    s.grouped e p = s := by
  obtain ⟨hgroup, hsetup, hteardown⟩ := hp
  rw [grouped, withSync, sync_eq hx, ← hgroup, ← hsetup, ← hteardown]
  exact withEngine_self hx

theorem withSync_engine (hx : s.engines[e]? = some (.sync x)) (y : SyncEngine) :
    (s.withSync e y).engines[e]? = some (.sync y) := getElem?_withEngine (lt_of_engine hx) _

theorem withSync_withSync (s : Session) (e : EngineId) (x y : SyncEngine) :
    (s.withSync e x).withSync e y = s.withSync e y := withEngine_withEngine ..

theorem SameBut.grouped {t : Session} (hx : s.engines[e]? = some (.sync x)) (h : SameBut e s t) (p : Path) :
    t.grouped e p = s.grouped e p := by
  obtain ⟨group, setup, teardown, rfl⟩ := h
  rw [Session.grouped, sync_eq (withSync_engine hx _), withSync_withSync]
  rfl

theorem SameBut.refl (hx : s.engines[e]? = some (.sync x)) : SameBut e s s :=
  ⟨x.group, x.setup, x.teardown, by rw [sync_eq hx]; exact (withEngine_self hx).symm⟩

theorem SameBut.of_grouped (s : Session) (e : EngineId) (p : Path) : SameBut e s (s.grouped e p) :=
  ⟨_, _, _, rfl⟩

end Session

/-- From sessions related by `start`, performing the statements is trying the cases. -/
def Performs (e : EngineId) (start : Session → Session → Prop) (statements : List Statement)
    (cases : List Case) : Prop :=
  ∀ s x, s.engines[e]? = some (.sync x) → s.running = some e →
    (∀ trial ∈ (conduct call e cases s).trials, trial.Spare e) → ∀ t, start s t →
      (performAll call e statements t).1 = (conduct call e cases s).outcome ∧
      (conduct call e cases s).session.SameBut e (performAll call e statements t).2

namespace Performs

variable {rest : List Statement} {cases : List Case} {p : Path}

theorem nil : Performs e (Session.SameBut e) [] [] := fun _ _ _ _ _ _ h => ⟨rfl, h⟩

theorem group (h : Performs e (fun s t => t = s.grouped e p) rest cases) :
    Performs e (Session.SameBut e) (p.group :: rest) cases := by
  intro s x hx hr hspare t ht
  have hlt : t.engines[e]? = some (.sync (t.sync e)) := by
    obtain ⟨group, setup, teardown, rfl⟩ := ht
    rw [Session.sync_eq (Session.withSync_engine hx _)]
    exact Session.withSync_engine hx _
  have hdeclare : perform call e p.group t = (.ok (), t.grouped e p) := engine_bind hlt _
  rw [performAll, bind_ok hdeclare]
  exact h s x hx hr hspare _ (ht.grouped hx p)

theorem inside (h : Performs e (Session.SameBut e) rest cases) :
    Performs e (fun s t => t = s.grouped e p) rest cases :=
  fun s x hx hr hspare t ht => h s x hx hr hspare t (ht ▸ .of_grouped s e p)

theorem test {spec : Spec} (h : Performs e (fun s t => t = s.grouped e p) rest cases) :
    Performs e (fun s t => t = s.grouped e p) (.test spec.description spec.body :: rest)
      (⟨p, spec⟩ :: cases) := by
  intro s x hx hr hspare t ht
  subst ht
  have hgrouped := Session.grouped_engine hx p
  have hactive : SyncEngine.Active { x with
      group := .text p.name, setup := .rolled p.befores, teardown := .rolled p.afters } p := ⟨rfl, rfl, rfl⟩
  have hfirst : (Case.calls call ⟨p, spec⟩ ((s.grouped e p).begun e)).Spare e := hspare _ mem_trials_self
  have hperform := runTest_case hgrouped hr ⟨p, spec⟩ hactive hfirst
  obtain ⟨hrunning, reports, paused, hended⟩ := Case.calls_engine hgrouped hr ⟨p, spec⟩ hfirst
  rw [show performAll call e (.test spec.description spec.body :: rest) (s.grouped e p) =
    (runTest call e (.text spec.description) spec.body >>= fun _ => performAll call e rest)
      (s.grouped e p) from rfl]
  cases herror : escaped (Case.calls call ⟨p, spec⟩ ((s.grouped e p).begun e)).session.heap
      (Case.calls call ⟨p, spec⟩ ((s.grouped e p).begun e)).outcome with
  | error f =>
    simp only [herror] at hperform
    rw [bind_error hperform, conduct_error herror]
    exact ⟨rfl, .refl (Session.ended_engine hended [])⟩
  | ok error =>
    simp only [herror] at hperform
    rw [conduct_ok herror] at hspare ⊢
    rw [bind_ok hperform]
    have hnext := Session.ended_engine hended
      [Case.result ⟨p, spec⟩ e (Case.calls call ⟨p, spec⟩ ((s.grouped e p).begun e)) error]
    have hsame := Session.grouped_of_active (p := p) hnext ⟨rfl, rfl, rfl⟩
    exact h _ _ hnext hrunning (fun trial ht => hspare trial (List.mem_cons_of_mem _ ht)) _ hsame.symm

/-- The statements of nodes, one block after the other. -/
theorem blocks (h : Heap) (f : Forest) (ns : List NodeId) :
    Performs e (Session.SameBut e) (ns.flatMap (f.block h))
      (ns.flatMap fun n => (f.specs n).map (⟨f.pathTo h n, ·⟩)) := by
  induction ns with
  | nil => exact nil
  | cons n ns ih =>
    refine group ?_
    show Performs e _ ((f.specs n).map _ ++ _) ((f.specs n).map _ ++ _)
    induction f.specs n with
    | nil => exact inside ih
    | cons spec specs ihs => exact test ihs

end Performs

/-- The engine of a run keeps its title and its results, and those of the cases follow. -/
theorem conduct_engine {cases : List Case} (hx : s.engines[e]? = some (.sync x)) (hr : s.running = some e)
    (hspare : ∀ trial ∈ (conduct call e cases s).trials, trial.Spare e) :
    ∃ y, (conduct call e cases s).session.engines[e]? = some (.sync y) ∧ y.title = x.title ∧
      y.results = x.results ++ (conduct call e cases s).results := by
  induction cases generalizing s x with
  | nil => exact ⟨x, hx, rfl, (List.append_nil _).symm⟩
  | cons c rest ih =>
    have hgrouped := Session.grouped_engine hx c.path
    obtain ⟨hrunning, reports, paused, hended⟩ := c.calls_engine hgrouped hr (hspare _ mem_trials_self)
    cases he : escaped (c.calls call ((s.grouped e c.path).begun e)).session.heap
        (c.calls call ((s.grouped e c.path).begun e)).outcome with
    | error f =>
      rw [conduct_error he]
      exact ⟨_, Session.ended_engine hended [], rfl, rfl⟩
    | ok error =>
      rw [conduct_ok he] at hspare ⊢
      have hnext := Session.ended_engine hended
        [c.result e (c.calls call ((s.grouped e c.path).begun e)) error]
      obtain ⟨y, hy, htitle, hresults⟩ := ih hnext hrunning fun trial ht =>
        hspare trial (List.mem_cons_of_mem _ ht)
      exact ⟨y, hy, htitle, hresults.trans (List.append_assoc ..)⟩

/-- The engine after a run that performs its cases. -/
theorem Performs.engine {statements : List Statement} {cases : List Case}
    (h : Performs e (Session.SameBut e) statements cases) (hx : s.engines[e]? = some (.sync x))
    (hr : s.running = some e) (hspare : ∀ trial ∈ (conduct call e cases s).trials, trial.Spare e) :
    ∃ y, (performAll call e statements s).2.engines[e]? = some (.sync y) ∧ y.title = x.title ∧
      y.results = x.results ++ (conduct call e cases s).results := by
  obtain ⟨y, hy, htitle, hresults⟩ := conduct_engine hx hr hspare
  obtain ⟨-, group, setup, teardown, ht⟩ := h s x hx hr hspare s (.refl hx)
  rw [ht, Session.sync_eq hy]
  exact ⟨_, Session.withSync_engine hy _, htitle, hresults⟩

/-- The results of a run that performs its cases. -/
theorem Performs.results {statements : List Statement} {cases : List Case}
    (h : Performs e (Session.SameBut e) statements cases) (hx : s.engines[e]? = some (.sync x))
    (hr : s.running = some e) (hspare : ∀ trial ∈ (conduct call e cases s).trials, trial.Spare e) :
    ((performAll call e statements s).2.sync e).results =
      x.results ++ (conduct call e cases s).results := by
  obtain ⟨y, hy, -, hresults⟩ := h.engine hx hr hspare
  rw [Session.sync_eq hy, hresults]

/-- Performing the compiled statements of a sound forest is trying its cases. -/
theorem Performs.compiled {f : Forest} (hf : f.Sound) {h : Heap} {statements : List Statement}
    (hc : f.compile h = .ok statements) (e : EngineId) :
    Performs e (Session.SameBut e) statements (f.cases h) := by
  have hstatements : statements = f.preorder.flatMap (f.block h) :=
    Except.ok.inj (hc.symm.trans (hf.compile_ok (hf.compilable hc)))
  rw [hstatements]
  exact blocks h f f.preorder

/-- The compiled statements of a built forest try its cases in order, and nothing else: the run
ends as told, in the session that was told, with the results that were told. Every case leaves
exactly one result of its own, exactly if each trial ends well or with an exception that has an
expression. -/
theorem performAll_conducts {K : List Opening} (hs : Reachable K s) (b : BuildId)
    (hx : s.engines[e]? = some (.sync x)) (hr : s.running = some e) {statements : List Statement}
    (hc : (s.build b).forest.compile s.heap = .ok statements)
    (hspare : ∀ trial ∈ (conduct call e ((s.build b).forest.cases s.heap) s).trials, trial.Spare e) :
    let cases := (s.build b).forest.cases s.heap
    let run := conduct call e cases s
    let t := (performAll call e statements s).2
    (performAll call e statements s).1 = run.outcome ∧ run.session.SameBut e t ∧
      (t.sync e).results = x.results ++ run.results ∧
      (run.Complete e cases ↔ ∀ trial ∈ run.trials, trial.Survived) := by
  have hperforms := Performs.compiled (hs.fits.builds b).sound hc e
  obtain ⟨houtcome, hsame⟩ := hperforms s x hx hr hspare s (.refl hx)
  exact ⟨houtcome, hsame, hperforms.results hx hr hspare, conduct_complete ..⟩

/-! ### Cases that change nothing -/

theorem callWithin_noop (barred : Option Bar) (depth : Nat) (s : Session) :
    callWithin barred (depth + 1) .noop [] [] s = (.ok .null, s) := rfl

theorem callWithin_script (barred : Option Bar) (depth : Nat) {r : Ref} {steps : List Step}
    {home : Option BuildId} (hs : s.heap.get? r = some (.procedure (.script none steps home))) :
    callWithin barred (depth + 1) (.object r) [] [] s = (do
      Step.runAll barred (callWithin barred depth) { builder := home, args := [] } steps
      return .null : Act Value) s := by
  have hcell : s.heap.cell? (.object r) = some (.procedure (.script none steps home)) := hs
  show apply barred (callWithin barred depth) (.object r) [] [] s = _
  rw [apply, bind_ok (get_apply s)]
  dsimp only
  rw [hcell]
  rfl

/-- In sessions with this store, the calls of the case change nothing and end so. -/
structure Case.Idle (h : Heap) (outcome : Except Failure Unit) (c : Case) : Prop where
  ends : ∀ s, s.heap = h → (c.calls call s).outcome = outcome ∧ (c.calls call s).session = s
  spare : ∀ e s, s.heap = h → (c.calls call s).Spare e

/-- A body that changes nothing, between hooks that do nothing. -/
theorem Case.idle {h : Heap} {c : Case} (result : Except Failure Value) (hb : c.path.befores = [.noop])
    (ha : c.path.afters = [.noop])
    (hcall : ∀ barred s, s.heap = h → callWithin barred callDepth c.spec.body [] [] s = (result, s)) :
    c.Idle h (result.map fun _ => ()) := by
  have hcalls : ∀ s, s.heap = h → c.calls call s = {
      calls := [(.noop, s), (c.spec.body, s), (.noop, s)]
      outcome := result.map fun _ => (), session := s } := fun s hs => by
    have hbody : call c.spec.body [] [] s = (result, s) := hcall none s hs
    have hnoop : call .noop [] [] s = (.ok .null, s) := callWithin_noop none 199 s
    simp [Case.calls, Called.each, Called.andThen, Called.one, Called.ensuring, hb, ha, hbody, hnoop,
      Except.map]
  refine ⟨fun s hs => ?_, fun e s hs q hq => ?_⟩
  · rw [hcalls s hs]
    exact ⟨rfl, rfl⟩
  · have hnoop : Spares e .noop s :=
      (callWithin_noop (some (.driving e)) 199 s).trans (callWithin_noop none 199 s).symm
    rw [hcalls s hs] at hq
    simp only [List.mem_cons, List.not_mem_nil, or_false] at hq
    rcases hq with rfl | rfl | rfl
    · exact hnoop
    · exact (hcall (some (.driving e)) s hs).trans (hcall none s hs).symm
    · exact hnoop

section Idle

variable {h : Heap} {outcome : Except Failure Unit} {c : Case}

theorem Case.Idle.escaped (hc : c.Idle h outcome) (hs : s.heap = h) :
    Act.escaped (c.calls call ((s.grouped e c.path).begun e)).session.heap
      (c.calls call ((s.grouped e c.path).begun e)).outcome = Act.escaped h outcome := by
  have hbegun : ((s.grouped e c.path).begun e).heap = h := hs
  obtain ⟨houtcome, hsession⟩ := hc.ends _ hbegun
  rw [houtcome, hsession, hbegun]

/-- A run stops with a case whose exception has no expression. -/
theorem conduct_stops (rest : List Case) (hc : c.Idle h outcome) (hs : s.heap = h) {f : Failure}
    (he : Act.escaped h outcome = .error f) :
    (conduct call e (c :: rest) s).outcome = .error f ∧ (conduct call e (c :: rest) s).results = [] ∧
      ∀ trial ∈ (conduct call e (c :: rest) s).trials, trial.Spare e ∧ trial.outcome = outcome := by
  have hbegun : ((s.grouped e c.path).begun e).heap = h := hs
  rw [conduct_error ((hc.escaped hs).trans he)]
  exact ⟨rfl, rfl, fun trial ht => List.mem_singleton.mp ht ▸ ⟨hc.spare e _ hbegun, (hc.ends _ hbegun).1⟩⟩

/-- Otherwise it goes on with the same store. -/
theorem conduct_idle (rest : List Case) (hc : c.Idle h outcome) (hs : s.heap = h)
    (hx : s.engines[e]? = some (.sync x)) {error : Option String} (he : Act.escaped h outcome = .ok error) :
    ∃ trial t y, (trial.Spare e ∧ trial.Survived ∧ trial.outcome = outcome) ∧
      t.heap = h ∧ t.engines[e]? = some (.sync y) ∧
      (conduct call e (c :: rest) s).trials = trial :: (conduct call e rest t).trials ∧
      (conduct call e (c :: rest) s).results =
        ⟨c.path.name, c.spec.description, [], error⟩ :: (conduct call e rest t).results := by
  have hbegun : ((s.grouped e c.path).begun e).heap = h := hs
  have hengine := Session.begun_engine (Session.grouped_engine hx c.path)
  obtain ⟨houtcome, hsession⟩ := hc.ends _ hbegun
  have hresult : c.result e (c.calls call ((s.grouped e c.path).begun e)) error =
      ⟨c.path.name, c.spec.description, [], error⟩ := by
    rw [Case.result, hsession, Session.sync_eq hengine]
    rfl
  have hrun : conduct call e (c :: rest) s = _ := conduct_ok ((hc.escaped hs).trans he)
  rw [hresult, hsession] at hrun
  rw [hrun]
  exact ⟨c.calls call ((s.grouped e c.path).begun e),
    ((s.grouped e c.path).begun e).ended e [⟨c.path.name, c.spec.description, [], error⟩], _,
    ⟨hc.spare e _ hbegun, ⟨error, (hc.escaped hs).trans he⟩, houtcome⟩, hbegun,
    Session.withSync_engine hengine _, rfl, rfl⟩

end Idle

/-! ### A group with a spec that raises -/

/-- A group with two specs, the first of which raises an exception about a number. -/
def Source.raising (i : Int) : Source where
  steps := [.describe none (.text "a") (.script none [
    .it none (.text "b") (.script none [.raise .valueError [.int i]]) false,
    .it none (.text "c") (.script none []) false]) false]

def raisedOn (i : Int) : Failure := .raised .valueError [.int i]

/-- A session that has built it. -/
def Session.raising (i : Int) : Session :=
  (buildForest (builderIn none 0 (.raising i)) (Session.titled {} (.text "t"))).2

def raisingCase : Case := ⟨⟨["a"], [.noop], [.noop]⟩, ⟨"b", .object 1⟩⟩

def quietCase : Case := ⟨⟨["a"], [.noop], [.noop]⟩, ⟨"c", .object 2⟩⟩

def raisingStatements : List Statement :=
  [.group "a" [.noop] [.noop], .test "b" (.object 1), .test "c" (.object 2)]

/-- What the build makes of the number. -/
structure Session.Raising (i : Int) (s : Session) : Prop where
  running : s.running = none
  engine : s.engines[0]? = some (.sync { title := .text "t" })
  cases : (s.build 0).forest.cases s.heap = [raisingCase, quietCase]
  compile : (s.build 0).forest.compile s.heap = .ok raisingStatements
  raises : s.heap.get? 1 = some (.procedure (.script none [.raise .valueError [.int i]] (some 0)))
  quiet : s.heap.get? 2 = some (.procedure (.script none [] (some 0)))

theorem escaped_seven (h : Heap) : escaped h (.error (raisedOn 7)) = .ok (some "ValueError(7)") := rfl

theorem raising_seven : (Session.raising 7).Raising 7 := ⟨by rfl, by rfl, by rfl, by rfl, by rfl, by rfl⟩

theorem Session.raising_reachable (i : Int) : Reachable [] (raising i) := by
  have hstart : Reachable [] (Session.titled {} (.text "t")) := .start (fun _ => rfl) nofun nofun
  exact hstart.build (.source 0 (.raising i))

namespace Session.Raising

variable {i : Int} (hs : s.Raising i)
include hs

/-- The engine becomes current. -/
theorem driven (h : Reachable [] s) : Reachable [.run none] (s.withRunning (some 0)) := by
  have hrun := h.enterRun (lt_of_engine hs.engine)
  rwa [hs.running] at hrun

theorem raising_idle : raisingCase.Idle s.heap (.error (raisedOn i)) :=
  Case.idle (.error (raisedOn i)) rfl rfl fun barred _ ht =>
    (callWithin_script barred 199 (ht ▸ hs.raises)).trans rfl

theorem quiet_idle : quietCase.Idle s.heap (.ok ()) :=
  Case.idle (.ok .null) rfl rfl fun barred _ ht =>
    (callWithin_script barred 199 (ht ▸ hs.quiet)).trans rfl

/-- An exception that has an expression ends its own test only. -/
theorem conduct_both (text : String) (ht : escaped s.heap (.error (raisedOn i)) = .ok (some text)) :
    let run := conduct call 0 [raisingCase, quietCase] (s.withRunning (some 0))
    (∃ a b, run.trials = [a, b] ∧ a.outcome = .error (raisedOn i) ∧ b.outcome = .ok ()) ∧
      (∀ trial ∈ run.trials, trial.Spare 0 ∧ trial.Survived) ∧
      run.results = [⟨"a", "b", [], some text⟩, ⟨"a", "c", [], none⟩] := by
  obtain ⟨a, t, y, ⟨haspare, hasurvived, ha⟩, hheap, hy, htrials, hresults⟩ :=
    conduct_idle (s := s.withRunning (some 0)) [quietCase] hs.raising_idle rfl hs.engine ht
  obtain ⟨b, u, z, ⟨hbspare, hbsurvived, hb⟩, -, -, hbtrials, hbresults⟩ :=
    conduct_idle [] hs.quiet_idle hheap hy rfl
  intro run
  have hboth : run.trials = [a, b] := by
    rw [htrials, hbtrials]
    rfl
  refine ⟨⟨a, b, hboth, ha, hb⟩, fun trial ht => ?_, ?_⟩
  · rw [hboth] at ht
    rcases List.mem_cons.mp ht with rfl | ht
    · exact ⟨haspare, hasurvived⟩
    · exact List.mem_singleton.mp ht ▸ ⟨hbspare, hbsurvived⟩
  · rw [hresults, hbresults]
    rfl

end Session.Raising

theorem performAll_conducts_raising :
    let s := (Session.raising 7).withRunning (some 0)
    Reachable [.run none] s ∧ (s.build 0).forest.compile s.heap = .ok raisingStatements ∧
    (performAll call 0 raisingStatements s).1 = .ok () ∧
    ((performAll call 0 raisingStatements s).2.sync 0).results =
      [⟨"a", "b", [], some "ValueError(7)"⟩, ⟨"a", "c", [], none⟩] := by
  intro s
  have hdriven := raising_seven.driven (Session.raising_reachable 7)
  have hcompile : (s.build 0).forest.compile s.heap = .ok raisingStatements := raising_seven.compile
  have hcases : (s.build 0).forest.cases s.heap = [raisingCase, quietCase] := raising_seven.cases
  obtain ⟨-, htrials, hresults⟩ := raising_seven.conduct_both _ (escaped_seven _)
  obtain ⟨houtcome, -, hrun, hcomplete⟩ := performAll_conducts hdriven 0 (x := { title := .text "t" })
    raising_seven.engine rfl hcompile (by rw [hcases]; exact fun trial ht => (htrials trial ht).1)
  rw [hcases] at houtcome hrun hcomplete
  refine ⟨hdriven, hcompile, ?_, ?_⟩
  · rw [houtcome]
    exact (hcomplete.mpr fun trial ht => (htrials trial ht).2).outcome
  · rw [hrun, hresults]
    rfl

/-! ### An exception without an expression -/

theorem escaped_leastLong (h : Heap) :
    escaped h (.error (raisedOn leastLong)) = .error (.fault .tooManyDigits) := by
  have hi : (Value.int leastLong).shown h = .error (.fault .tooManyDigits) := intText_leastLong
  have hshown : (raisedOn leastLong).shown h = .error (.fault .tooManyDigits) := by
    rw [raisedOn, Failure.shown, errorShown, List.mapM_cons, hi]
    rfl
  rw [escaped, hshown]
  rfl

theorem raising_leastLong : (Session.raising leastLong).Raising leastLong :=
  ⟨by rfl, by rfl, by rfl, by rfl, by rfl, by rfl⟩

/-- Two specs, and no result of either: the run ends with the first. -/
theorem performAll_stops :
    let s := (Session.raising leastLong).withRunning (some 0)
    let cases := (s.build 0).forest.cases s.heap
    Reachable [.run none] s ∧ (s.build 0).forest.compile s.heap = .ok raisingStatements ∧
    cases = [raisingCase, quietCase] ∧
    (∀ trial ∈ (conduct call 0 cases s).trials,
      trial.Spare 0 ∧ trial.outcome = .error (raisedOn leastLong)) ∧
    (raisedOn leastLong).isInterruption = false ∧
    (performAll call 0 raisingStatements s).1 = .error (.fault .tooManyDigits) ∧
    ((performAll call 0 raisingStatements s).2.sync 0).results = [] := by
  intro s cases
  have hlong := raising_leastLong
  have hdriven := hlong.driven (Session.raising_reachable leastLong)
  have hcompile : (s.build 0).forest.compile s.heap = .ok raisingStatements := hlong.compile
  have hcases : cases = [raisingCase, quietCase] := hlong.cases
  have hengine : s.engines[0]? = some (.sync { title := .text "t" }) := hlong.engine
  obtain ⟨houtcome, hresults, htrials⟩ := conduct_stops (e := 0) (s := s) [quietCase] hlong.raising_idle
    rfl (escaped_leastLong _)
  rw [← hcases] at houtcome hresults htrials
  have hperforms := Performs.compiled (hdriven.fits.builds 0).sound hcompile 0
  have hspare : ∀ trial ∈ (conduct call 0 cases s).trials, trial.Spare 0 := fun trial ht =>
    (htrials trial ht).1
  refine ⟨hdriven, hcompile, hcases, htrials, rfl, ?_, ?_⟩
  · exact (hperforms s _ hengine rfl hspare s (.refl hengine)).1.trans houtcome
  · rw [hperforms.results hengine rfl hspare, hresults]
    rfl

end Exemplar
