import Exemplar.Proofs.Items
import Exemplar.Proofs.Unseen

/-! Collecting a specification and running it at once.

A specification that is collected is built as for a synchronous run, since the build does not see
the engine, and the items are the cases that the run would try, in order. Item by item, the two
agree (`collected_agrees`). -/
namespace Exemplar

open Act

/-! ### What is collected -/

def Spec.declared (s : Spec) : DeclaredTest := ⟨s.description, s.body⟩

/-- The group at the end of a path, with its specs as tests. -/
def Path.declared (p : Path) (specs : List Spec) : DeclaredGroup where
  name := p.name
  setup := .rolled p.befores
  teardown := .rolled p.afters
  tests := specs.map Spec.declared

/-- The groups of a forest, as they are collected. -/
def Forest.declared (h : Heap) (f : Forest) (ns : List NodeId) : List DeclaredGroup :=
  ns.map fun n => (f.pathTo h n).declared (f.specs n)

section Collecting

variable {e : EngineId} {c : CollectingEngine} {s : Session}

theorem performAll_append (call : Call) (e : EngineId) (a b : List Statement) (s : Session) :
    performAll call e (a ++ b) s = (performAll call e a >>= fun _ => performAll call e b) s := by
  induction a generalizing s with
  | nil => rfl
  | cons first rest ih =>
    show (perform call e first >>= fun _ => performAll call e (rest ++ b)) s =
      ((perform call e first >>= fun _ => performAll call e rest) >>= fun _ => performAll call e b) s
    rw [bind_assoc]
    rcases h : perform call e first s with ⟨_ | _, t⟩
    · rw [bind_error h, bind_error h]
    · rw [bind_ok h, bind_ok h, ih]

/-- A group is collected without tests at first. -/
theorem group_collected (hc : s.engines[e]? = some (.collecting c)) (p : Path) :
    perform call e p.group s = (.ok (), s.withEngine e (.collecting (c.addGroup (p.declared [])))) :=
  engine_bind hc _

/-- A test is collected in the last group. -/
theorem test_collected (hc : s.engines[e]? = some (.collecting c)) {groups : List DeclaredGroup}
    {g : DeclaredGroup} (hg : c.groups = groups ++ [g]) {spec : Spec}
    (hb : spec.body.isCallable s.heap = true) :
    perform call e (.test spec.description spec.body) s = (.ok (), s.withEngine e (.collecting
      { c with groups := groups ++ [{ g with tests := g.tests ++ [spec.declared] }] })) := by
  have hadd : c.addTest spec.declared =
      { c with groups := groups ++ [{ g with tests := g.tests ++ [spec.declared] }] } := by
    simp [CollectingEngine.addTest, hg]
  have hcallable : Schema.callable s.heap spec.body = .ok spec.body := if_pos hb
  have hempty : c.groups.isEmpty = false := by simp [hg]
  rw [← hadd]
  show runTest call e (.text spec.description) spec.body s = _
  rw [runTest, engine_bind hc]
  dsimp only
  rw [hempty, if_neg Bool.false_ne_true, bind_ok (get_apply s), hcallable]
  rfl

theorem tests_collected (hc : s.engines[e]? = some (.collecting c)) {groups : List DeclaredGroup}
    {g : DeclaredGroup} (hg : c.groups = groups ++ [g]) {specs : List Spec}
    (hb : ∀ spec ∈ specs, spec.body.isCallable s.heap = true) :
    performAll call e (specs.map fun spec => .test spec.description spec.body) s =
      (.ok (), s.withEngine e (.collecting
        { c with groups := groups ++ [{ g with tests := g.tests ++ specs.map Spec.declared }] })) := by
  induction specs generalizing s c g with
  | nil =>
    have hsame : s.withEngine e (.collecting
        { c with groups := groups ++ [{ g with tests := g.tests ++ [] }] }) = s := by
      rw [List.append_nil, ← hg]
      exact Session.withEngine_self hc
    rw [List.map_nil, List.map_nil, hsame]
    rfl
  | cons spec rest ih =>
    rw [List.map_cons, performAll, bind_ok (test_collected hc hg (hb spec List.mem_cons_self))]
    rw [ih (Session.getElem?_withEngine (Session.lt_of_engine hc) _) rfl
      fun t ht => hb t (List.mem_cons_of_mem _ ht)]
    simp [Session.withEngine_withEngine]

/-- The statements of nodes are collected as their groups. -/
theorem blocks_collected (hc : s.engines[e]? = some (.collecting c)) (h : Heap) (f : Forest)
    (ns : List NodeId) (hb : ∀ n, ∀ spec ∈ f.specs n, spec.body.isCallable s.heap = true) :
    performAll call e (ns.flatMap (f.block h)) s =
      (.ok (), s.withEngine e (.collecting { c with groups := c.groups ++ f.declared h ns })) := by
  induction ns generalizing s c with
  | nil =>
    have hsame : s.withEngine e (.collecting { c with groups := c.groups ++ [] }) = s := by
      rw [List.append_nil]
      exact Session.withEngine_self hc
    exact congrArg (Prod.mk _) hsame.symm
  | cons n rest ih =>
    have hlt := Session.lt_of_engine hc
    have hadded : (c.addGroup ((f.pathTo h n).declared [])).groups =
        c.groups ++ [(f.pathTo h n).declared []] := rfl
    have hgroup := tests_collected (Session.getElem?_withEngine hlt _) hadded (hb n)
    have hblock : performAll call e (f.block h n) s = (.ok (), s.withEngine e (.collecting
        { c with groups := c.groups ++ [(f.pathTo h n).declared (f.specs n)] })) := by
      rw [Forest.block, performAll, bind_ok (group_collected hc _), Forest.tests, hgroup,
        Session.withEngine_withEngine]
      rfl
    rw [List.flatMap_cons, performAll_append, bind_ok hblock, ih (Session.getElem?_withEngine hlt _) hb,
      Session.withEngine_withEngine]
    simp [Forest.declared]

end Collecting

/-! ### The items are the cases -/

theorem items_declared (id : String) (p : Path) (specs : List Spec) :
    List.Forall₂ Item.Of ((p.declared specs).items id) (specs.map (⟨p, ·⟩)) := by
  rw [DeclaredGroup.items, Path.declared, List.map_map]
  rw [List.forall₂_map_left_iff, List.forall₂_map_right_iff]
  exact List.forall₂_same.mpr fun spec _ => ⟨rfl, rfl, rfl, rfl⟩

/-- Groups without tests have no items. -/
theorem items_filter (id : String) (groups : List DeclaredGroup) :
    (groups.filter (!·.tests.isEmpty)).flatMap (fun g => g.items (childId id g.name)) =
      groups.flatMap fun g => g.items (childId id g.name) := by
  induction groups with
  | nil => rfl
  | cons g rest ih =>
    rw [List.filter_cons, List.flatMap_cons, ← ih]
    by_cases hg : g.tests = []
    · simp [DeclaredGroup.items, hg]
    · simp [hg]

theorem items_cases (id : String) (h : Heap) (f : Forest) :
    List.Forall₂ Item.Of (((f.declared h f.preorder).filter (!·.tests.isEmpty)).flatMap fun g =>
      g.items (childId id g.name)) (f.cases h) := by
  rw [items_filter, Forest.cases]
  induction f.preorder with
  | nil => exact .nil
  | cons n rest ih => exact List.rel_append (items_declared _ _ _) ih

/-! ### The build -/

/-- How a specification is tried on a new synchronous engine, if it can be built and compiled. -/
def Specification.tried (spec : Specification) (s : Session) : Conducted :=
  match buildForest spec.builder (s.titled spec.title) with
  | (.error f, t) => { outcome := .error f, session := t }
  | (.ok b, t) =>
    match (t.build b).forest.compile t.heap with
    | .error f => { outcome := .error f, session := t }
    | .ok _ => conduct call s.engines.size ((t.build b).forest.cases t.heap)
        (t.withRunning (some s.engines.size))

section Building

variable {title : Value} {fn : BuilderFunction} {e : EngineId} {s t u : Session} {b : BuildId} {f : Failure}

theorem tried_unbuilt (hb : buildForest fn (s.titled title) = (.error f, t)) :
    Specification.tried ⟨title, fn⟩ s = { outcome := .error f, session := t } := by
  rw [Specification.tried, hb]

theorem tried_uncompiled (hb : buildForest fn (s.titled title) = (.ok b, t))
    (hc : (t.build b).forest.compile t.heap = .error f) :
    Specification.tried ⟨title, fn⟩ s = { outcome := .error f, session := t } := by
  rw [Specification.tried, hb]
  simp only [hc]

theorem tried_compiled (hb : buildForest fn (s.titled title) = (.ok b, t)) {statements : List Statement}
    (hc : (t.build b).forest.compile t.heap = .ok statements) :
    Specification.tried ⟨title, fn⟩ s = conduct call s.engines.size
      ((t.build b).forest.cases t.heap) (t.withRunning (some s.engines.size)) := by
  rw [Specification.tried, hb]
  simp only [hc]

/-- The engine that was made last is changed. -/
theorem setIfInBounds_push (engines : Array Engine) (x y : Engine) :
    (engines.push x).setIfInBounds engines.size y = engines.push y := by
  simp [Array.setIfInBounds, Array.set_push]

theorem setTitle_sync (s : Session) (title : Value) :
    setTitle s.engines.size title (s.adding .sync) = (.ok (), s.titled title) := by
  have hx : (s.adding .sync).engines[s.engines.size]? = some (.sync {}) := Array.getElem?_push_size
  rw [show setTitle s.engines.size title (s.adding .sync) = _ from engine_bind hx _]
  show (Except.ok (), (s.adding .sync).withEngine s.engines.size (.sync { title })) = _
  simp only [Session.adding, Session.withEngine, Session.titled, setIfInBounds_push]

theorem setTitle_collecting (s : Session) (title : Value) :
    setTitle s.engines.size title (s.adding .collecting) =
      (.ok (), (s.titled title).withEngine s.engines.size (.collecting { title })) := by
  have hx : (s.adding .collecting).engines[s.engines.size]? = some (.collecting {}) :=
    Array.getElem?_push_size
  rw [show setTitle s.engines.size title (s.adding .collecting) = _ from engine_bind hx _]
  show (Except.ok (), (s.adding .collecting).withEngine s.engines.size (.collecting { title })) = _
  simp only [Session.adding, Session.withEngine, Session.titled, setIfInBounds_push]

/-- The build is the same for both engines, and leaves each as it is. -/
theorem build_unseen (hr : ∀ r, s.running = some r → r < s.engines.size) (title : Value)
    (hfn : fn.Written) :
    ∃ r t, buildForest fn (s.titled title) = (r, t) ∧
      t.engines[s.engines.size]? = some (.sync { title }) ∧
      buildForest fn ((s.titled title).withEngine s.engines.size (.collecting { title })) =
        (r, t.withEngine s.engines.size (.collecting { title })) := by
  have hne : (s.titled title).running ≠ some s.engines.size := fun h => Nat.lt_irrefl _ (hr _ h)
  have hengine : (s.titled title).engines[s.engines.size]? = some (.sync { title }) :=
    Array.getElem?_push_size
  have hunseen : Unseen s.engines.size (.sync { title }) (.collecting { title }) (s.titled title)
      ((s.titled title).withEngine s.engines.size (.collecting { title })) := ⟨rfl, hengine, hne⟩
  obtain ⟨hr, ht⟩ := hfn.alike (Unseen.accord ..) ⟨id, Nat.zero_le⟩ () _ _ hunseen
  exact ⟨_, _, rfl, ht.engine, Prod.ext hr.symm ht.eq⟩

theorem runSpecification_unbuilt {call : Call} (hs : setTitle e title s = (.ok (), t))
    (hb : buildForest fn t = (.error f, u)) :
    runSpecification call title fn e s = (.error f, u) := by
  rw [runSpecification, bind_ok hs, bind_error hb]

theorem runSpecification_uncompiled {call : Call} (hs : setTitle e title s = (.ok (), t))
    (hb : buildForest fn t = (.ok b, u)) (hc : (u.build b).forest.compile u.heap = .error f) :
    runSpecification call title fn e s = (.error f, u) := by
  rw [runSpecification, bind_ok hs, bind_ok hb, bind_error ((compile_apply b u).trans (by rw [hc]))]

theorem runSpecification_performs (call : Call) (hs : setTitle e title s = (.ok (), t))
    (hb : buildForest fn t = (.ok b, u)) {statements : List Statement}
    (hc : (u.build b).forest.compile u.heap = .ok statements) :
    runSpecification call title fn e s =
      ((performAll call e statements (u.withRunning (some e))).1,
        (performAll call e statements (u.withRunning (some e))).2.withRunning u.running) := by
  rw [runSpecification, bind_ok hs, bind_ok hb, bind_ok ((compile_apply b u).trans (by rw [hc]))]
  exact duringRun_calls ⟨[], _, _⟩ rfl

theorem collect_apply (title : Value) (fn : BuilderFunction) (s : Session) :
    collect ⟨title, fn⟩ s = (runSpecification call title fn s.engines.size >>= fun _ =>
      engine s.engines.size >>= fun x => match x with
        | .collecting c => pure (c.groups.filter (!·.tests.isEmpty))
        | _ => pure []) (s.adding .collecting) := rfl

/-- A specification that can not be run on a collecting engine has no groups. -/
theorem collect_error
    (h : runSpecification call title fn s.engines.size (s.adding .collecting) = (.error f, u)) :
    collect ⟨title, fn⟩ s = (.error f, u) := (collect_apply title fn s).trans (bind_error h)

/-- What a run on a collecting engine leaves: the groups of the built forest. -/
theorem runSpecification_collects (hs : setTitle e title s = (.ok (), t))
    (hb : buildForest fn t = (.ok b, u)) (hu : u.engines[e]? = some (.collecting { title }))
    {opened : List (NodeId × Option NodeId)} (hfits : (u.build b).Fits u.heap opened)
    {statements : List Statement} (hc : (u.build b).forest.compile u.heap = .ok statements) :
    ∃ r, runSpecification call title fn e s = (.ok (), r) ∧ u.Matches False r ∧
      r.engines[e]? =
        some (.collecting ⟨title, (u.build b).forest.declared u.heap (u.build b).forest.preorder⟩) := by
  have hstatements : statements = (u.build b).forest.preorder.flatMap ((u.build b).forest.block u.heap) :=
    Except.ok.inj (hc.symm.trans (hfits.sound.compile_ok (hfits.sound.compilable hc)))
  have hperforms := blocks_collected (s := u.withRunning (some e)) hu u.heap (u.build b).forest
    (u.build b).forest.preorder hfits.bodies
  have hrun := runSpecification_performs call hs hb hc
  rw [hstatements, hperforms] at hrun
  exact ⟨_, hrun, (Session.Matches.refl u False.elim).withEngine _ _,
    Session.getElem?_withEngine (Session.lt_of_engine hu) _⟩

/-- Of the groups that are left, those that have specs are collected. -/
theorem collect_ran (hrun : runSpecification call title fn s.engines.size (s.adding .collecting) = (.ok (), t))
    {c : CollectingEngine} (hc : t.engines[s.engines.size]? = some (.collecting c)) :
    collect ⟨title, fn⟩ s = (.ok (c.groups.filter (!·.tests.isEmpty)), t) :=
  (collect_apply title fn s).trans ((bind_ok hrun).trans (engine_bind hc _))

/-- The groups of a built forest that have specs are collected. -/
theorem collect_compiled (hs : setTitle s.engines.size title (s.adding .collecting) = (.ok (), t))
    (hb : buildForest fn t = (.ok b, u)) (hu : u.engines[s.engines.size]? = some (.collecting { title }))
    {opened : List (NodeId × Option NodeId)} (hfits : (u.build b).Fits u.heap opened)
    {statements : List Statement} (hc : (u.build b).forest.compile u.heap = .ok statements) :
    ∃ r, collect ⟨title, fn⟩ s =
      (.ok (((u.build b).forest.declared u.heap (u.build b).forest.preorder).filter (!·.tests.isEmpty)), r) ∧
        u.Matches False r := by
  obtain ⟨r, hrun, hm, hr⟩ := runSpecification_collects hs hb hu hfits hc
  exact ⟨r, collect_ran hrun hr, hm⟩

end Building

/-- A specification that is collected and one that is run on a new synchronous engine, from the
same session: both are built and compiled alike. If that fails it fails for both, and nothing is
run. Otherwise the items are the specs in the order of the run. As far as the run goes, the items
one after the other agree with its tests, and each item has its result exactly if the run survives
all its trials. -/
theorem collected_agrees {K : List Opening} {s : Session} (hs : Reachable K s) (title : Value)
    {fn : BuilderFunction} (hfn : fn.Written) (id : String)
    (hspare : ∀ trial ∈ (Specification.tried ⟨title, fn⟩ s).trials, trial.Spare s.engines.size) :
    let run := Specification.tried ⟨title, fn⟩ s
    let sync := runSpecification call title fn s.engines.size (s.adding .sync)
    sync.1 = run.outcome ∧ (sync.2.sync s.engines.size).results = run.results ∧
    match collect ⟨title, fn⟩ s with
    | (.error f, _) => run.outcome = .error f ∧ run.trials = [] ∧ run.results = []
    | (.ok groups, t) =>
      let items := itemRuns (groups.flatMap fun g => g.items (childId id g.name)) t
      List.Forall₂ Agrees (run.trials.zip run.results) (items.take run.results.length) ∧
      (run.outcome = .ok () ∧ run.results.length = items.length ↔ ∀ trial ∈ run.trials, trial.Survived) ∧
      ∃ outcomes u, runGroups id groups t = (.ok outcomes, u) ∧
        outcomes.flatMap (·.items) = items.map ItemRun.shown := by
  obtain ⟨r, t, hb, hengine, hb'⟩ := build_unseen hs.fits.driven title hfn
  have hreach : Reachable K t := by
    have htitled : Reachable K (s.titled title) := hs.engines _ (by simp)
    have hreach := htitled.build hfn
    rwa [hb] at hreach
  have hnone : (t.sync s.engines.size).results = [] := by rw [Session.sync_eq hengine]
  cases r with
  | error f =>
    rw [tried_unbuilt hb, runSpecification_unbuilt (setTitle_sync s title) hb,
      collect_error (runSpecification_unbuilt (setTitle_collecting s title) hb')]
    exact ⟨rfl, hnone, rfl, rfl, rfl⟩
  | ok b =>
    cases hc : (t.build b).forest.compile t.heap with
    | error f =>
      rw [tried_uncompiled hb hc, runSpecification_uncompiled (setTitle_sync s title) hb hc,
        collect_error (runSpecification_uncompiled (setTitle_collecting s title) hb' hc)]
      exact ⟨rfl, hnone, rfl, rfl, rfl⟩
    | ok statements =>
      have hfits := hreach.fits.builds b
      have hperforms := Performs.compiled hfits.sound hc s.engines.size
      have hstart : (t.withRunning (some s.engines.size)).engines[s.engines.size]? =
          some (.sync { title }) := hengine
      obtain ⟨r, hcollect, hm⟩ := collect_compiled (setTitle_collecting s title) hb'
        (Session.getElem?_withEngine (Session.lt_of_engine hengine) _) hfits hc
      rw [tried_compiled hb hc] at hspare ⊢
      rw [runSpecification_performs call (setTitle_sync s title) hb hc, hcollect]
      obtain ⟨hagree, hcomplete⟩ := conduct_items (items_cases id t.heap (t.build b).forest) hstart rfl rfl
        ⟨hm.memory, hm.builds, hm.building⟩ hspare
      exact ⟨(hperforms _ _ hstart rfl hspare _ (.refl hstart)).1, hperforms.results hstart rfl hspare,
        hagree, hcomplete, runGroups_apply ..⟩

theorem buildForest_raising {i : Int}
    (hb : (buildForest (builderIn none 0 (.raising i)) (Session.titled {} (.text "t"))).1 = .ok 0) :
    buildForest (builderIn none 0 (.raising i)) (Session.titled {} (.text "t")) =
      (.ok 0, Session.raising i) := by
  rw [Session.raising]
  generalize buildForest (builderIn none 0 (.raising i)) (Session.titled {} (.text "t")) = made at hb ⊢
  rw [← hb]
  rfl

theorem tried_raising {i : Int} (hs : (Session.raising i).Raising i)
    (hb : (buildForest (builderIn none 0 (.raising i)) (Session.titled {} (.text "t"))).1 = .ok 0) :
    Specification.tried ⟨.text "t", builderIn none 0 (.raising i)⟩ {} =
      conduct call 0 [raisingCase, quietCase] ((Session.raising i).withRunning (some 0)) := by
  rw [tried_compiled (buildForest_raising hb) hs.compile, hs.cases]
  rfl

/-- Of two items that agree with a test that raised and one that passed. -/
theorem Agrees.pair {a b : Called} {r r' : TestResult} {runs : List ItemRun} {f : Failure}
    (h : List.Forall₂ Agrees ([a, b].zip [r, r']) runs) (ha : a.outcome = .error f)
    (hr : r'.passed = true) :
    runs.map (·.outcome) = [.error f, .ok ()] := by
  obtain ⟨first, rest, hfirst, hrest, rfl⟩ := List.forall₂_cons_left_iff.mp h
  obtain ⟨second, none, hsecond, hnone, rfl⟩ := List.forall₂_cons_left_iff.mp hrest
  cases hnone
  rw [List.map_cons, List.map_cons, (hfirst.escaped f ha).1, hsecond.passed.mpr hr]
  rfl

theorem collected_agrees_raising :
    let spec : Specification := ⟨.text "t", builderIn none 0 (.raising 7)⟩
    let sync := runSpecification call spec.title spec.builder 0 (Session.adding {} .sync)
    sync.1 = .ok () ∧
    (sync.2.sync 0).results = [⟨"a", "b", [], some "ValueError(7)"⟩, ⟨"a", "c", [], none⟩] ∧
    ∃ groups t, collect spec {} = (.ok groups, t) ∧
      (itemRuns (groups.flatMap fun g => g.items (childId "m" g.name)) t).map (·.outcome) =
        [.error (raisedOn 7), .ok ()] := by
  intro spec sync
  have htried := tried_raising raising_seven (by rfl)
  obtain ⟨⟨a, b, hboth, ha, -⟩, htrials, hresults⟩ := raising_seven.conduct_both _ (escaped_seven _)
  have h := collected_agrees (.start (s := {}) (fun _ => rfl) nofun nofun) (.text "t")
    (.source 0 (.raising 7)) "m" (by rw [htried]; exact fun trial ht => (htrials trial ht).1)
  rw [htried] at h
  generalize conduct call 0 [raisingCase, quietCase] ((Session.raising 7).withRunning (some 0)) = run at *
  rcases hc : collect spec {} with ⟨f | groups, t⟩
  · rw [show collect ⟨.text "t", builderIn none 0 (.raising 7)⟩ {} = (.error f, t) from hc] at h
    obtain ⟨-, -, -, hnone, -⟩ := h
    rw [hboth] at hnone
    cases hnone
  · rw [show collect ⟨.text "t", builderIn none 0 (.raising 7)⟩ {} = (.ok groups, t) from hc] at h
    obtain ⟨houtcome, hsync, hagree, hcomplete, -⟩ := h
    obtain ⟨hdone, hlength⟩ := hcomplete.mpr fun trial ht => (htrials trial ht).2
    rw [hlength, List.take_length, hboth, hresults] at hagree
    exact ⟨houtcome.trans hdone, hsync.trans hresults, groups, t, rfl, Agrees.pair hagree ha rfl⟩

/-- Items of cases that change nothing, one of which raises. -/
theorem itemRuns_raising {s : Session} {i : Int} (hs : s.Raising i) {items : List Item}
    (hi : List.Forall₂ Item.Of items [raisingCase, quietCase]) {t : Session} (ht : t.heap = s.heap) :
    (itemRuns items t).map (·.outcome) = [.error (raisedOn i), .ok ()] := by
  obtain ⟨first, rest, hfirst, hrest, rfl⟩ := List.forall₂_cons_right_iff.mp hi
  obtain ⟨second, none, hsecond, hnone, rfl⟩ := List.forall₂_cons_right_iff.mp hrest
  cases hnone
  obtain ⟨hraised, hheap⟩ := hfirst.idle hs.raising_idle ht
  obtain ⟨hquiet, -⟩ := hsecond.idle hs.quiet_idle hheap
  simp only [itemRuns, List.map_cons, List.map_nil, hraised, hquiet]

/-- Two items, of which the second ends well, and no result of either: the synchronous run ends
with the first. -/
theorem collected_outlasts :
    let spec : Specification := ⟨.text "t", builderIn none 0 (.raising leastLong)⟩
    let sync := runSpecification call spec.title spec.builder 0 (Session.adding {} .sync)
    (∀ trial ∈ (spec.tried {}).trials, trial.Spare 0 ∧ trial.outcome = .error (raisedOn leastLong)) ∧
    (raisedOn leastLong).isInterruption = false ∧
    sync.1 = .error (.fault .tooManyDigits) ∧ (sync.2.sync 0).results = [] ∧
    ∃ groups t, collect spec {} = (.ok groups, t) ∧
      (itemRuns (groups.flatMap fun g => g.items (childId "m" g.name)) t).map (·.outcome) =
        [.error (raisedOn leastLong), .ok ()] := by
  intro spec sync
  have hlong := raising_leastLong
  have hbuilt := buildForest_raising (i := leastLong) (by rfl)
  have hfits := (Session.raising_reachable leastLong).fits.builds 0
  have htried := tried_raising hlong (by rfl)
  generalize Session.raising leastLong = s at hlong hbuilt hfits htried
  obtain ⟨r, t, hb, hengine, hb'⟩ :=
    build_unseen (s := {}) nofun (.text "t") (.source 0 (.raising leastLong))
  obtain ⟨rfl, rfl⟩ := Prod.mk.inj (hb.symm.trans hbuilt)
  obtain ⟨houtcome, hresults, htrials⟩ := conduct_stops (e := 0) (s := t.withRunning (some 0))
    [quietCase] hlong.raising_idle rfl (escaped_leastLong _)
  have hstart : (t.withRunning (some 0)).engines[0]? = some (.sync { title := .text "t" }) := hengine
  have hperforms := Performs.compiled hfits.sound hlong.compile 0
  have hitems := items_cases "m" t.heap (t.build 0).forest
  rw [hlong.cases] at hperforms hitems
  have hspare : ∀ trial ∈ (conduct call 0 [raisingCase, quietCase] (t.withRunning (some 0))).trials,
      trial.Spare 0 := fun trial ht => (htrials trial ht).1
  have hsync : (performAll call 0 raisingStatements (t.withRunning (some 0))).1 =
      .error (.fault .tooManyDigits) :=
    (hperforms _ _ hstart rfl hspare _ (.refl hstart)).1.trans houtcome
  have hnone : ((performAll call 0 raisingStatements (t.withRunning (some 0))).2.sync 0).results = [] := by
    rw [hperforms.results hstart rfl hspare, hresults]
    rfl
  have hrun : sync = _ := runSpecification_performs call (setTitle_sync {} (.text "t")) hbuilt hlong.compile
  obtain ⟨u, hcollect, hm⟩ := collect_compiled (setTitle_collecting {} (.text "t")) hb'
    (Session.getElem?_withEngine (Session.lt_of_engine hengine) _) hfits hlong.compile
  rw [hrun]
  refine ⟨?_, rfl, hsync, hnone, _, u, hcollect, itemRuns_raising hlong hitems hm.heap.symm⟩
  rw [htried]
  exact htrials

end Exemplar
