import Exemplar.Proofs.SyncRun
import Exemplar.Proofs.Listing

/-! Items beside tests.

Items run one after the other, each on an engine of its own. Beside a synchronous run of the same
cases, each item makes the same calls and gets the same reports as its test, and it fails exactly
if the result of the test does (`conduct_items`). -/
namespace Exemplar

open Act

/-- The item engine that is found under a number. -/
def Session.itemEngine (s : Session) (e : EngineId) : ItemEngine :=
  match s.engines.getD e .recording with
  | .item x => x
  | _ => {}

/-- What is called for an item. -/
def Item.calls (call : Call) (i : Item) : Session → Called :=
  Called.wrapped call i.group.setup i.test.body i.group.teardown

/-- How an item went: what was called, what its engine was told, how it ended and where. -/
structure ItemRun where
  item : Item
  calls : List (Value × Session)
  reports : List Report
  outcome : Except Failure Unit
  session : Session

/-- Runs items one after the other, whatever comes of each. -/
def itemRuns : List Item → Session → List ItemRun
  | [], _ => []
  | i :: rest, s =>
    let called := i.calls call (s.itemSession false)
    { item := i, calls := called.calls, reports := (called.session.itemEngine s.engines.size).reports
      outcome := (runItem i s).1, session := (runItem i s).2 } :: itemRuns rest (runItem i s).2

/-- What a report shows of an item. -/
def ItemRun.shown (r : ItemRun) : ItemOutcome := .ofResult r.session.heap r.item r.outcome

/-- The session after the items. -/
def afterItems : List Item → Session → Session
  | [], s => s
  | i :: rest, s => afterItems rest (runItem i s).2

theorem itemRuns_append (a b : List Item) (s : Session) :
    itemRuns (a ++ b) s = itemRuns a s ++ itemRuns b (afterItems a s) := by
  induction a generalizing s with
  | nil => rfl
  | cons i rest ih =>
    simp only [List.cons_append, itemRuns, afterItems]
    rw [ih]

/-- The items are run as told. -/
theorem runItems_apply (items : List Item) (s : Session) :
    runItems items s = (.ok ((itemRuns items s).map ItemRun.shown), afterItems items s) := by
  induction items generalizing s with
  | nil => rfl
  | cons i rest ih =>
    have hattempt : attempt (runItem i) s = (.ok (runItem i s).1, (runItem i s).2) := rfl
    rw [runItems, bind_ok hattempt]
    show (runItems rest >>= fun more => pure (_ :: more)) (runItem i s).2 = _
    rw [bind_ok (ih _)]
    rfl

/-- The groups show their items in order. -/
theorem runGroups_apply (id : String) (groups : List DeclaredGroup) (s : Session) :
    ∃ outcomes t, runGroups id groups s = (.ok outcomes, t) ∧ outcomes.flatMap (·.items) =
      (itemRuns (groups.flatMap fun g => g.items (childId id g.name)) s).map ItemRun.shown := by
  induction groups generalizing s with
  | nil => exact ⟨[], s, rfl, rfl⟩
  | cons g rest ih =>
    obtain ⟨outcomes, t, hrest, hitems⟩ := ih (afterItems (g.items (childId id g.name)) s)
    refine ⟨⟨childId id g.name, (itemRuns (g.items (childId id g.name)) s).map ItemRun.shown⟩ :: outcomes,
      t, ?_, ?_⟩
    · rw [runGroups]
      show (runItems (g.items (childId id g.name)) >>= fun items =>
        runGroups id rest >>= fun more => pure (⟨childId id g.name, items⟩ :: more)) s = _
      rw [bind_ok (runItems_apply _ _), bind_ok hrest]
      rfl
    · rw [List.flatMap_cons, List.flatMap_cons, itemRuns_append, List.map_append, hitems]

/-! ### One item -/

theorem specFailure_apply (i : Item) (y : ItemEngine) (s : Session) :
    ∃ places, specFailure i y s =
      (.ok (.raised .specFailure [.text ("\n".intercalate (failedCount y.reports :: places))]), s) := by
  obtain ⟨places, hplaces⟩ := specFailureText_ok s.heap i y
  have hread : reading (specFailureText · i y) s =
      (.ok (.text ("\n".intercalate (failedCount y.reports :: places))), s) := by
    show (Act.ofExcept (specFailureText s.heap i y) : Act Value) s = _
    rw [hplaces]
    rfl
  refine ⟨places, ?_⟩
  rw [specFailure, bind_ok hread]
  rfl

section Ends

variable {i : Item} {e : EngineId} {s : Session} {called : Called}

theorem requirePassed_passed (hf : (s.itemEngine e).failures = []) : requirePassed i e s = (.ok (), s) := by
  rw [requirePassed, bind_ok (engine_apply e s)]
  rw [Session.itemEngine] at hf
  cases hx : s.engines.getD e .recording with
  | item y =>
    rw [hx] at hf
    dsimp only at hf ⊢
    rw [hf]
    rfl
  | _ => rfl

theorem requirePassed_failed (hf : (s.itemEngine e).failures ≠ []) : ∃ places, requirePassed i e s =
    (.error (.raised .specFailure
      [.text ("\n".intercalate (failedCount (s.itemEngine e).reports :: places))]), s) := by
  rw [requirePassed, bind_ok (engine_apply e s)]
  rw [Session.itemEngine] at hf ⊢
  cases hx : s.engines.getD e .recording with
  | item y =>
    rw [hx] at hf
    obtain ⟨places, hplaces⟩ := specFailure_apply i y s
    refine ⟨places, ?_⟩
    dsimp only at hf ⊢
    rw [List.isEmpty_eq_false_iff.mpr hf, if_neg Bool.false_ne_true, bind_ok hplaces]
    rfl
  | _ =>
    rw [hx] at hf
    exact absurd rfl hf

theorem duringRun_calls {a : Act Unit} (called : Called)
    (ha : a (s.withRunning (some e)) = (called.outcome, called.session)) :
    duringRun (some e) a s = (called.outcome, called.session.withRunning s.running) := by
  show ensuring a (modify (·.withRunning s.running)) (s.withRunning (some e)) = _
  rw [ensuring_apply, ha]
  rfl

theorem runItem_apply (i : Item) (s : Session) : runItem i s = (duringRun (some s.engines.size)
    (wrapped call i.group.setup i.test.body (pure i.group.teardown)) >>= fun _ =>
      requirePassed i s.engines.size) (s.adding .item) := rfl

variable (hc : i.calls call (s.itemSession false) = called)
include hc

theorem duringRun_item : duringRun (some s.engines.size)
    (wrapped call i.group.setup i.test.body (pure i.group.teardown)) (s.adding .item) =
      (called.outcome, called.session.withRunning s.running) := by
  have hwrapped : wrapped call i.group.setup i.test.body (pure i.group.teardown) (s.itemSession false) =
      (called.outcome, called.session) := by
    rw [← hc]
    exact wrapped_calls call _ _ _ fun t _ _ => rfl
  exact duringRun_calls called hwrapped

/-- An item fails with what escaped its calls. -/
theorem runItem_raised {f : Failure} (ho : called.outcome = .error f) :
    runItem i s = (.error f, called.session.withRunning s.running) := by
  have hrun := duringRun_item hc
  rw [ho] at hrun
  rw [runItem_apply, bind_error hrun]

theorem runItem_completed (ho : called.outcome = .ok ()) :
    runItem i s = requirePassed i s.engines.size (called.session.withRunning s.running) := by
  have hrun := duringRun_item hc
  rw [ho] at hrun
  rw [runItem_apply, bind_ok hrun]

/-- If its calls completed, it ends well if no report failed. -/
theorem runItem_passed (ho : called.outcome = .ok ())
    (hf : (called.session.itemEngine s.engines.size).failures = []) :
    runItem i s = (.ok (), called.session.withRunning s.running) :=
  (runItem_completed hc ho).trans (requirePassed_passed hf)

/-- Otherwise it lists those that did. -/
theorem runItem_failed (ho : called.outcome = .ok ())
    (hf : (called.session.itemEngine s.engines.size).failures ≠ []) :
    ∃ places, runItem i s = (.error (.raised .specFailure [.text ("\n".intercalate
      (failedCount (called.session.itemEngine s.engines.size).reports :: places))]),
        called.session.withRunning s.running) := by
  obtain ⟨places, hplaces⟩ := requirePassed_failed (i := i) (s := called.session.withRunning s.running) hf
  exact ⟨places, (runItem_completed hc ho).trans hplaces⟩

/-- Running an item leaves what its calls left. -/
theorem runItem_session : (runItem i s).2 = called.session.withRunning s.running := by
  cases ho : called.outcome with
  | error f => rw [runItem_raised hc ho]
  | ok u =>
    by_cases hf : (called.session.itemEngine s.engines.size).failures = []
    · rw [runItem_passed hc ho hf]
    · obtain ⟨places, hended⟩ := runItem_failed hc ho hf
      rw [hended]

end Ends

/-! ### An item beside its test -/

/-- The item runs the body of the case between the hooks of its path. -/
structure Item.Of (i : Item) (c : Case) : Prop where
  name : i.group.name = c.path.name
  setup : i.group.setup = .rolled c.path.befores
  teardown : i.group.teardown = .rolled c.path.afters
  test : i.test = ⟨c.spec.description, c.spec.body⟩

theorem Item.Of.calls {i : Item} {c : Case} (h : i.Of c) (call : Call) : i.calls call = c.calls call := by
  rw [Item.calls, h.setup, h.teardown, h.test]
  rfl

theorem Item.Of.names {i : Item} {c : Case} (h : i.Of c) :
    (c.path.name, c.spec.description) = (i.group.name, i.test.description) := by
  rw [h.name, h.test]

/-- A trial with its result, and the run of an item: the same was called, the same was reported,
and the item ended well exactly if the test passed. -/
structure Agrees (test : Called × TestResult) (i : ItemRun) : Prop where
  name : (test.2.group, test.2.description) = (i.item.group.name, i.item.test.description)
  calls : test.1.calls.map (·.1) = i.calls.map (·.1)
  reports : test.2.reports = i.reports
  passed : i.outcome = .ok () ↔ test.2.passed = true
  /-- If nothing escaped, the item fails with the count of its failed reports. -/
  listed : test.1.outcome = .ok () → test.2.error = none ∧ (test.2.passed = false → ∃ places,
    i.outcome = .error (.raised .specFailure
      [.text ("\n".intercalate (failedCount test.2.reports :: places))]))
  /-- Otherwise it fails with what escaped, of which the result has the expression. -/
  escaped : ∀ f, test.1.outcome = .error f →
    i.outcome = .error f ∧ ∃ text, f.shown i.session.heap = .ok text ∧ test.2.error = some text

/-- Calls beside the engine `e` of a run went as these did beside the engine `k` of an item. -/
structure Called.Beside (e k : EngineId) (trial alone : Called) : Prop where
  values : trial.calls.map (·.1) = alone.calls.map (·.1)
  outcome : trial.outcome = alone.outcome
  session : trial.session.Matches False alone.session
  reports : (trial.session.sync e).reports = (alone.session.itemEngine k).reports

variable {e : EngineId} {x : SyncEngine} {s r : Session} {i : Item} {c : Case}

/-- A case on the synchronous engine beside the same case on an engine of its own. -/
theorem Case.beside (hx : s.engines[e]? = some (.sync x)) (hp : x.paused = false) (hr : s.running = some e)
    (hm : s.Matches False r) (c : Case) (hspare : (c.calls call (s.begun e)).Spare e) :
    (c.calls call (s.begun e)).Beside e r.engines.size (c.calls call (r.itemSession false)) := by
  have hside := Session.begun_alongside hx hr hm
  rw [hp] at hside
  obtain ⟨hvalues, houtcome, hsession⟩ :=
    c.calls_agree (Session.lt_of_engine hx) (Nat.lt_succ_self _) hside hspare
  obtain ⟨reports, paused, hsync, hitem⟩ := hsession.test
  refine ⟨hvalues, houtcome, hsession.same, ?_⟩
  rw [Session.sync_eq hsync, Session.itemEngine, Array.getD_eq_getD_getElem?, hitem]
  rfl

theorem Case.result_passed (c : Case) (e : EngineId) (trial : Called) :
    (c.result e trial none).passed = true ↔ failuresOf (trial.session.sync e).reports = [] := by
  simp [TestResult.passed, TestResult.failures, Case.result]

section Beside

variable {trial alone : Called} (hi : i.Of c) (hb : trial.Beside e r.engines.size alone)
  (hc : i.calls call (r.itemSession false) = alone)
include hi hb hc

/-- Both fail with the exception that escaped. -/
theorem Agrees.raised {f : Failure} {text : String} (ho : trial.outcome = .error f)
    (hs : f.shown trial.session.heap = .ok text) :
    Agrees (trial, c.result e trial (some text)) {
      item := i, calls := alone.calls, reports := (alone.session.itemEngine r.engines.size).reports
      outcome := (runItem i r).1, session := (runItem i r).2 } where
  name := hi.names
  calls := hb.values
  reports := hb.reports
  passed := by
    rw [runItem_raised hc (hb.outcome.symm.trans ho)]
    exact iff_of_false (fun h => by cases h) Bool.false_ne_true
  listed h := by
    rw [ho] at h
    cases h
  escaped g hg := by
    rw [ho] at hg
    cases hg
    rw [runItem_raised hc (hb.outcome.symm.trans ho)]
    exact ⟨rfl, text, hb.session.heap ▸ hs, rfl⟩

/-- If the calls completed, the reports decide. -/
theorem Agrees.completed (ho : trial.outcome = .ok ()) :
    Agrees (trial, c.result e trial none) {
      item := i, calls := alone.calls, reports := (alone.session.itemEngine r.engines.size).reports
      outcome := (runItem i r).1, session := (runItem i r).2 } := by
  have hcompleted := hb.outcome.symm.trans ho
  have hnone : ∀ f, trial.outcome ≠ .error f := fun f hf => by
    rw [ho] at hf
    cases hf
  have hfailures : failuresOf (trial.session.sync e).reports =
      (alone.session.itemEngine r.engines.size).failures := congrArg failuresOf hb.reports
  by_cases hf : (alone.session.itemEngine r.engines.size).failures = []
  · have hpass := (c.result_passed e trial).mpr (hfailures.trans hf)
    rw [runItem_passed hc hcompleted hf]
    exact ⟨hi.names, hb.values, hb.reports, iff_of_true rfl hpass,
      fun _ => ⟨rfl, fun h => absurd (hpass.symm.trans h) (fun h => by cases h)⟩,
      fun g hg => absurd hg (hnone g)⟩
  · have hpass := mt (c.result_passed e trial).mp (hfailures ▸ hf)
    obtain ⟨places, hended⟩ := runItem_failed hc hcompleted hf
    rw [← hb.reports] at hended
    rw [hended]
    exact ⟨hi.names, hb.values, hb.reports, iff_of_false (fun h => by cases h) hpass,
      fun _ => ⟨rfl, fun _ => ⟨places, rfl⟩⟩, fun g hg => absurd hg (hnone g)⟩

end Beside

/-- An item agrees with the test of its case, if the run survives it. -/
theorem Item.Of.agrees (hi : i.Of c) (hx : s.engines[e]? = some (.sync x)) (hp : x.paused = false)
    (hr : s.running = some e) (hm : s.Matches False r) (hspare : (c.calls call (s.begun e)).Spare e)
    {error : Option String}
    (he : Act.escaped (c.calls call (s.begun e)).session.heap
      (c.calls call (s.begun e)).outcome = .ok error) :
    Agrees (c.calls call (s.begun e), c.result e (c.calls call (s.begun e)) error) {
      item := i, calls := (i.calls call (r.itemSession false)).calls
      reports := ((i.calls call (r.itemSession false)).session.itemEngine r.engines.size).reports
      outcome := (runItem i r).1, session := (runItem i r).2 } := by
  have hb := c.beside hx hp hr hm hspare
  have halone : i.calls call (r.itemSession false) = c.calls call (r.itemSession false) := by rw [hi.calls]
  rw [halone]
  rcases escaped_eq_ok he with ⟨ho, rfl⟩ | ⟨f, text, ho, hs, rfl⟩
  · exact .completed hi hb halone ho
  · exact .raised hi hb halone ho hs

/-- An item whose case changes nothing ends as the case does. -/
theorem Item.Of.idle (hi : i.Of c) {h : Heap} {outcome : Except Failure Unit}
    (hc : c.Idle h outcome) (hs : s.heap = h) : (runItem i s).1 = outcome ∧ (runItem i s).2.heap = h := by
  have hheap : (s.itemSession false).heap = h := hs
  obtain ⟨houtcome, hsession⟩ := hc.ends _ hheap
  rw [← hi.calls] at houtcome hsession
  have hengine : (s.itemSession false).itemEngine s.engines.size = {} := by
    simp [Session.itemEngine, Session.itemSession]
  constructor
  · cases ho : outcome with
    | error f => rw [runItem_raised rfl (houtcome.trans ho)]
    | ok u =>
      have hnone :
          ((i.calls call (s.itemSession false)).session.itemEngine s.engines.size).failures = [] := by
        rw [hsession, hengine]
        rfl
      rw [runItem_passed rfl (houtcome.trans ho) hnone]
  · rw [runItem_session rfl, hsession]
    exact hs

/-- Beside a synchronous run of cases their items, one after the other, agree with the tests, as
far as the run goes; and it leaves a result beside each item exactly if it survives all trials. -/
theorem conduct_items {cases : List Case} {items : List Item} (hi : List.Forall₂ Item.Of items cases)
    (hx : s.engines[e]? = some (.sync x)) (hp : x.paused = false) (hr : s.running = some e)
    (hm : s.Matches False r) (hspare : ∀ trial ∈ (conduct call e cases s).trials, trial.Spare e) :
    let run := conduct call e cases s
    List.Forall₂ Agrees (run.trials.zip run.results) ((itemRuns items r).take run.results.length) ∧
    (run.outcome = .ok () ∧ run.results.length = (itemRuns items r).length ↔
      ∀ trial ∈ run.trials, trial.Survived) := by
  induction hi generalizing s r x with
  | nil => exact ⟨.nil, fun _ _ h => absurd h List.not_mem_nil, fun _ => ⟨rfl, rfl⟩⟩
  | @cons i c items cases hic hrest ih =>
    have hgrouped := Session.grouped_engine hx c.path
    have hmg : (s.grouped e c.path).Matches False r := ⟨hm.memory, hm.builds, hm.building⟩
    have hfirst : (c.calls call ((s.grouped e c.path).begun e)).Spare e := hspare _ mem_trials_self
    intro run
    cases he : escaped (c.calls call ((s.grouped e c.path).begun e)).session.heap
        (c.calls call ((s.grouped e c.path).begun e)).outcome with
    | error f =>
      have hrun : run = _ := conduct_error he
      rw [hrun]
      refine ⟨.nil, fun h => absurd h.1 nofun, fun h => ?_⟩
      obtain ⟨error, ho⟩ := h _ List.mem_cons_self
      rw [he] at ho
      cases ho
    | ok error =>
      obtain ⟨hrunning, reports, paused, hended⟩ := c.calls_engine hgrouped hr hfirst
      have hmatches := (c.beside hgrouped hp hr hmg hfirst).session
      have hagrees := hic.agrees hgrouped hp hr hmg hfirst he
      have hsession := runItem_session (i := i) (s := r) (by rw [hic.calls])
      have hrun : run = _ := conduct_ok he
      rw [conduct_ok he] at hspare
      rw [hrun]
      generalize c.calls call ((s.grouped e c.path).begun e) = trial at *
      have hm' : (trial.session.ended e [c.result e trial error]).Matches False (runItem i r).2 := by
        rw [hsession]
        exact ⟨hmatches.memory, hmatches.builds, hmatches.building⟩
      obtain ⟨hall, hcomplete⟩ := ih (Session.ended_engine hended [c.result e trial error]) rfl hrunning hm'
        fun trial ht => hspare trial (List.mem_cons_of_mem _ ht)
      refine ⟨.cons hagrees hall, fun h trial ht => ?_, fun h => ?_⟩
      · rcases List.mem_cons.mp ht with rfl | ht
        · exact ⟨error, he⟩
        · exact hcomplete.mp ⟨h.1, Nat.succ.inj h.2⟩ trial ht
      · obtain ⟨houtcome, hlength⟩ := hcomplete.mpr fun trial ht => h trial (List.mem_cons_of_mem _ ht)
        exact ⟨houtcome, congrArg Nat.succ hlength⟩

end Exemplar
