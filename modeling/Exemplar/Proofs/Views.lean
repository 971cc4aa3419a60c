import Exemplar.CommandLine.Execution
import Exemplar.Proofs.Absent
import Exemplar.Proofs.Collected
import Exemplar.Proofs.Outlined
import Exemplar.Proofs.Refusal

/-! What is shown of a specification.

The outlines of a built forest, its compiled statements, the groups that are recorded and the items
that are collected all list the same groups and specs. So do the results of a run and the lines that
report it, as far as the run goes, which is to the end exactly if it survives all its trials
(`views_agree`). -/
namespace Exemplar

open Act CommandLine

/-! ### Statements, groups and items -/

/-- The specs that are listed, each after the name of its group. -/
def Contents.specs (c : Contents) : List (String × String) := c.flatMap fun g => g.2.map (g.1, ·)

/-- What is listed of the groups that have specs. -/
def Contents.filled (c : Contents) : Contents := c.filter (!·.2.isEmpty)

/-- The descriptions of the tests up to the next group. -/
def Statement.testsOf : List Statement → List String
  | .test description _ :: rest => description :: testsOf rest
  | _ => []

/-- Each group with the tests that follow it. -/
def Statement.contents : List Statement → Contents
  | [] => []
  | .group name _ _ :: rest => (name, testsOf rest) :: contents rest
  | .test .. :: rest => contents rest

/-- A group as it is listed. -/
def DeclaredGroup.entry (g : DeclaredGroup) : String × List String := (g.name, g.tests.map (·.description))

/-- A group of items, its id and the names that each item shows. -/
def GroupOutcome.shown (o : GroupOutcome) : String × List (String × String) :=
  (o.id, o.items.map fun i => (i.item.group.name, i.item.test.description))

section Listed

variable (h : Heap) (f : Forest)

theorem contents_tests (specs : List Spec) (rest : List Statement) :
    Statement.contents ((specs.map fun s => .test s.description s.body) ++ rest) = Statement.contents rest := by
  induction specs with
  | nil => rfl
  | cons spec specs ih => exact ih

theorem testsOf_tests (specs : List Spec) (rest : List Statement) :
    Statement.testsOf ((specs.map fun s => .test s.description s.body) ++ rest) =
      specs.map (·.description) ++ Statement.testsOf rest := by
  induction specs with
  | nil => rfl
  | cons spec specs ih => exact congrArg (spec.description :: ·) ih

/-- The blocks of nodes are listed as the nodes. -/
theorem contents_blocks (ns : List NodeId) :
    Statement.contents (ns.flatMap (f.block h)) = ns.map (f.entry h) := by
  induction ns with
  | nil => rfl
  | cons n rest ih =>
    have hnext : Statement.testsOf (rest.flatMap (f.block h)) = [] := by cases rest <;> rfl
    rw [List.flatMap_cons, List.map_cons, Forest.block, List.cons_append, Path.group, Statement.contents,
      Forest.tests, testsOf_tests, contents_tests, hnext, List.append_nil, ih]
    rfl

/-- The groups that are declared are listed as the nodes. -/
theorem entry_declared (ns : List NodeId) : (f.declared h ns).map DeclaredGroup.entry = ns.map (f.entry h) := by
  simp [Forest.declared, DeclaredGroup.entry, Path.declared, Forest.entry, Spec.declared]

theorem entry_filter (groups : List DeclaredGroup) :
    (groups.filter (!·.tests.isEmpty)).map DeclaredGroup.entry =
      Contents.filled (groups.map DeclaredGroup.entry) := by
  rw [Contents.filled, List.filter_map]
  simp [Function.comp_def, DeclaredGroup.entry]

/-- The cases of a forest are the specs that are listed. -/
theorem names_cases : (f.cases h).map (fun c => (c.path.name, c.spec.description)) = (f.contents h).specs := by
  simp [Forest.cases, Contents.specs, Forest.contents, Forest.entry, List.map_flatMap, List.flatMap_map,
    Function.comp_def]

theorem ItemRun.shown_item (r : ItemRun) : r.shown.item = r.item := by
  rw [shown]
  cases r.outcome <;> rfl

theorem items_shown (items : List Item) (s : Session) :
    ((itemRuns items s).map ItemRun.shown).map (·.item) = items := by
  induction items generalizing s with
  | nil => rfl
  | cons i rest ih => rw [itemRuns, List.map_cons, List.map_cons, ih, ItemRun.shown_item]

/-- All groups get an outcome, with one of each of their items. -/
theorem runGroups_shows (id : String) (groups : List DeclaredGroup) (s : Session) :
    ∃ outcomes t, runGroups id groups s = (.ok outcomes, t) ∧ outcomes.map GroupOutcome.shown =
      (groups.map DeclaredGroup.entry).map fun g => (childId id g.1, g.2.map (g.1, ·)) := by
  induction groups generalizing s with
  | nil => exact ⟨[], s, rfl, rfl⟩
  | cons g rest ih =>
    have hitems := runItems_apply (g.items (childId id g.name)) s
    have hshown := items_shown (g.items (childId id g.name)) s
    generalize (itemRuns (g.items (childId id g.name)) s).map ItemRun.shown = made at hitems hshown
    obtain ⟨outcomes, t, hrest, hrestShown⟩ := ih (afterItems (g.items (childId id g.name)) s)
    refine ⟨⟨childId id g.name, made⟩ :: outcomes, t, ?_, ?_⟩
    · rw [runGroups, bind_ok hitems, bind_ok hrest]
      rfl
    · have hnames : made.map (fun i => (i.item.group.name, i.item.test.description)) =
          (g.items (childId id g.name)).map fun i => (i.group.name, i.test.description) := by
        rw [← hshown, List.map_map]
        rfl
      rw [List.map_cons, hrestShown, List.map_cons, List.map_cons, GroupOutcome.shown, hnames]
      simp [DeclaredGroup.items, DeclaredGroup.entry]

end Listed

/-! ### Commands -/

/-- What the document of the outline command lists. -/
def Heap.documentContents (h : Heap) (document : Value) : Option Contents :=
  match h.cell? document with
  | some (.mapping _ entries) => h.itemsUnder "examples" entries >>= h.contents
  | _ => none

/-- The document with these outlines lists what they do. -/
theorem documentContents_alloc {h : Heap} {vs : List Value} {c : Contents}
    (hread : ∀ h', h.Extends h' → h'.contents vs = some c) (title : Value) :
    let listed := h.alloc (.list false vs)
    let document := listed.1.alloc (.mapping false [(.text "specify", title), (.text "examples", listed.2)])
    document.1.documentContents document.2 = some c := by
  intro listed document
  have hextends : listed.1.Extends document.1 := listed.1.extends_alloc _
  have hlist : listed.2.items? listed.1 = some vs := by
    have hcell : listed.1.cell? listed.2 = some (.list false vs) := h.get?_alloc_self _
    rw [Value.items?, hcell]
  have hdocument : document.1.cell? document.2 =
      some (.mapping false [(.text "specify", title), (.text "examples", listed.2)]) :=
    listed.1.get?_alloc_self _
  have hkey : (Value.text "examples" == Value.text "specify") = false := by decide
  rw [Heap.documentContents, hdocument]
  have hlisted := hread _ ((h.extends_alloc _).trans hextends)
  simp [Heap.itemsUnder, List.lookup_cons, hkey, hextends.items? hlist, hlisted]

theorem Act.alloc_apply (c : Cell) (s : Session) :
    alloc c s = (.ok (s.heap.alloc c).2, { s with heap := (s.heap.alloc c).1 }) := rfl

/-- The outline command writes a mapping that lists the forest of its build. -/
theorem writeOutline_lists {spec : Specification} {u v : Session} {c : BuildId}
    (hb : buildForest spec.builder u = (.ok c, v)) (hf : (v.build c).forest.Sound)
    (hn : (v.build c).forest.Named v.heap) :
    ∃ document w, writeOutline spec u = ((Yaml.dump w.heap document).map (.done · false), w) ∧
      w.heap.documentContents document = some ((v.build c).forest.contents v.heap) := by
  have hbuild : build c v = (.ok (v.build c), v) := rfl
  have hdocument := documentContents_alloc (fun _ e => hf.written_contents hn e) spec.title
  refine ⟨_, { v with heap := _ }, ?_, hdocument⟩
  rw [writeOutline, bind_ok hb, bind_ok hbuild, bind_ok (outlines_apply _ v), bind_ok (alloc_apply _ _),
    bind_ok (alloc_apply _ _)]
  dsimp only
  generalize Heap.alloc _ (.mapping false _) = document
  have hread := reading_apply (fun h => Yaml.dump h document.2) { v with heap := document.1 }
  cases hdump : Yaml.dump document.1 document.2 with
  | error f =>
    rw [hdump] at hread
    exact bind_error hread
  | ok text =>
    rw [hdump] at hread
    exact bind_ok hread

/-- The spec of a result, after the name of its group. -/
def TestResult.names (r : TestResult) : String × String := (r.group, r.description)

/-- The lines begin with whether the spec passed, and which it is. -/
def Reports (spec : String × String) (lines : List String) : Prop :=
  ∃ status details, (status = "PASS" ∨ status = "FAIL") ∧
    lines = (status ++ " " ++ spec.1 ++ ": " ++ spec.2) :: details

theorem TestResult.lines_report (r : TestResult) : Reports r.names r.lines := by
  refine ⟨if r.passed then "PASS" else "FAIL", _, ?_, rfl⟩
  split
  · exact .inl rfl
  · exact .inr rfl

namespace CommandLine

/-- The session in which the run command runs a specification. -/
def entered (g : Bool) (u : Session) : Session := u.configuring (.withMode (u.globalMode || g))

/-- What is left of the run command when the specification has been run. -/
def reporting (e : EngineId) : Act Ending := do
  let engine ← syncEngine e
  let title ← reading (engine.title.toText ·)
  let count := s!"{engine.results.length} specs, {engine.passed} passed, {engine.failed} failed"
  return .done (text ((title ++ " Specifications") :: engine.results.flatMap (·.lines) ++ [count]))
    (engine.failed ≠ 0)

section Run

variable {spec : Specification} {g : Bool} {s u r : Session}

theorem runAndReport_apply (spec : Specification) (g : Bool) (u : Session) :
    runAndReport spec g u = (do
      ensuring (runSpecification call spec.title spec.builder u.engines.size)
        (modify (Session.configuring · (.withMode u.globalMode)))
      reporting u.engines.size : Act Ending) ((entered g u).adding .sync) := rfl

theorem reporting_apply {e : EngineId} {y : SyncEngine} (hy : r.engines[e]? = some (.sync y)) :
    (reporting e r).1 = (y.title.toText r.heap).map fun heading =>
      .done (text ((heading ++ " Specifications") :: y.results.flatMap (·.lines) ++
        [s!"{y.results.length} specs, {y.passed} passed, {y.failed} failed"])) (y.failed ≠ 0) := by
  rw [reporting, bind_ok (syncEngine_apply hy)]
  have hread := reading_apply (y.title.toText ·) r
  cases htext : y.title.toText r.heap with
  | error f =>
    rw [htext] at hread
    rw [bind_error hread]
    rfl
  | ok heading =>
    rw [htext] at hread
    rw [bind_ok hread]
    rfl

/-- A run that fails is not reported. -/
theorem runAndReport_failed (hu : entered g u = s) {f : Failure}
    (h : runSpecification call spec.title spec.builder s.engines.size (s.adding .sync) = (.error f, r)) :
    (runAndReport spec g u).1 = .error f := by
  subst hu
  have hrun := ensuring_apply (runSpecification call spec.title spec.builder u.engines.size)
    (modify (Session.configuring · (.withMode u.globalMode))) ((entered g u).adding .sync)
  rw [show runSpecification call spec.title spec.builder u.engines.size _ = _ from h] at hrun
  rw [runAndReport_apply, bind_error hrun]

/-- A run that ends well is reported from its results. -/
theorem runAndReport_ran (hu : entered g u = s) {y : SyncEngine}
    (h : runSpecification call spec.title spec.builder s.engines.size (s.adding .sync) = (.ok (), r))
    (hy : r.engines[s.engines.size]? = some (.sync y)) :
    (runAndReport spec g u).1 = (y.title.toText r.heap).map fun heading =>
      .done (text ((heading ++ " Specifications") :: y.results.flatMap (·.lines) ++
        [s!"{y.results.length} specs, {y.passed} passed, {y.failed} failed"])) (y.failed ≠ 0) := by
  subst hu
  have hrun := ensuring_apply (runSpecification call spec.title spec.builder u.engines.size)
    (modify (Session.configuring · (.withMode u.globalMode))) ((entered g u).adding .sync)
  rw [show runSpecification call spec.title spec.builder u.engines.size _ = _ from h] at hrun
  rw [runAndReport_apply, bind_ok hrun]
  exact reporting_apply (r := r.configuring (.withMode u.globalMode)) hy

end Run

end CommandLine

/-! ### The run -/

section Run

variable (call : Call) (e : EngineId) (cases : List Case) (s : Session)

/-- The results of a run are those of its first cases. -/
theorem conduct_names : (conduct call e cases s).results.map TestResult.names <+:
    cases.map fun c => (c.path.name, c.spec.description) := by
  induction cases generalizing s with
  | nil => exact List.prefix_refl _
  | cons c rest ih =>
    cases he : escaped (c.calls call ((s.grouped e c.path).begun e)).session.heap
        (c.calls call ((s.grouped e c.path).begun e)).outcome with
    | error f =>
      rw [conduct_error he]
      exact List.nil_prefix
    | ok error =>
      rw [conduct_ok he]
      exact List.cons_prefix_cons.mpr ⟨rfl, ih _⟩

/-- A run ends well exactly if it survives all its trials. -/
theorem conduct_outcome : (conduct call e cases s).outcome = .ok () ↔
    ∀ trial ∈ (conduct call e cases s).trials, trial.Survived := by
  refine ⟨fun h => ?_, fun h => ((conduct_complete call e cases s).mpr h).outcome⟩
  induction cases generalizing s with
  | nil => exact fun _ ht => absurd ht List.not_mem_nil
  | cons c rest ih =>
    cases he : escaped (c.calls call ((s.grouped e c.path).begun e)).session.heap
        (c.calls call ((s.grouped e c.path).begun e)).outcome with
    | error f =>
      rw [conduct_error he] at h
      cases h
    | ok error =>
      rw [conduct_ok he] at h ⊢
      exact List.forall_mem_cons.mpr ⟨⟨error, he⟩, ih _ h⟩

end Run

section Synchronous

variable {title : Value} {fn : BuilderFunction} {s t : Session} {b : BuildId}

/-- A run on a new synchronous engine is the trial of the cases. -/
theorem runSpecification_tries (hb : buildForest fn (s.titled title) = (.ok b, t))
    (hx : t.engines[s.engines.size]? = some (.sync { title })) (hf : (t.build b).forest.Sound)
    {statements : List Statement} (hc : (t.build b).forest.compile t.heap = .ok statements)
    (hspare : ∀ trial ∈ (Specification.tried ⟨title, fn⟩ s).trials, trial.Spare s.engines.size) :
    ∃ r y, runSpecification call title fn s.engines.size (s.adding .sync) =
        ((Specification.tried ⟨title, fn⟩ s).outcome, r) ∧
      r.engines[s.engines.size]? = some (.sync y) ∧ y.title = title ∧
      y.results = (Specification.tried ⟨title, fn⟩ s).results := by
  rw [tried_compiled hb hc] at hspare ⊢
  have hstart : (t.withRunning (some s.engines.size)).engines[s.engines.size]? = some (.sync { title }) := hx
  have hperforms := Performs.compiled hf hc s.engines.size
  obtain ⟨y, hy, htitle, hresults⟩ := hperforms.engine hstart rfl hspare
  rw [runSpecification_performs call (setTitle_sync s title) hb hc,
    (hperforms _ _ hstart rfl hspare _ (.refl hstart)).1]
  exact ⟨_, y, rfl, hy, htitle, hresults⟩

end Synchronous

section Built

variable {K : List Opening} {s t : Session} (hs : Reachable K s) {fn : BuilderFunction} (hfn : fn.Programmed)
  {b : BuildId} (hb : buildForest fn s = (.ok b, t)) {statements : List Statement}
  (hc : (t.build b).forest.compile t.heap = .ok statements) (title : Value)

theorem setTitle_new (s : Session) (title : Value) :
    setTitle s.engines.size title (s.adding .collecting) = (.ok (), s.withNew (.collecting { title })) := by
  rw [setTitle_collecting, Session.titled, Session.withEngine, setIfInBounds_push]
  rfl

include hs hfn hb hc

/-- The groups of a built forest are recorded; those with specs are collected, and all their items
are run. -/
theorem built_collected (id : String) :
    let contents := (t.build b).forest.contents t.heap
    ∃ groups r outcomes u,
      runSpecification call title fn s.engines.size (s.adding .collecting) = (.ok (), r) ∧
      r.engines[s.engines.size]? = some (.collecting ⟨title, groups⟩) ∧
      groups.map DeclaredGroup.entry = contents ∧
      collect ⟨title, fn⟩ s = (.ok (groups.filter (!·.tests.isEmpty)), r) ∧
      (groups.filter (!·.tests.isEmpty)).map DeclaredGroup.entry = contents.filled ∧
      runGroups id (groups.filter (!·.tests.isEmpty)) r = (.ok outcomes, u) ∧
      outcomes.map GroupOutcome.shown = contents.filled.map fun g => (childId id g.1, g.2.map (g.1, ·)) := by
  intro contents
  obtain ⟨u, hbuilt, hheap, hbuild, hu⟩ := hfn.build_absent hb hs.fits.driven (.collecting { title })
  obtain ⟨r, hrun, -, hr⟩ := runSpecification_collects (setTitle_new s title) hbuilt hu
    (by rw [hbuild, hheap]; exact hfn.fits hs hb b) (by rw [hbuild, hheap]; exact hc)
  rw [hbuild, hheap] at hr
  generalize hgroups : (t.build b).forest.declared t.heap (t.build b).forest.preorder = groups at hr
  have hentries : groups.map DeclaredGroup.entry = contents := by
    rw [← hgroups]
    exact entry_declared ..
  have hfilled := entry_filter groups
  rw [hentries] at hfilled
  obtain ⟨outcomes, v, hran, hshown⟩ := runGroups_shows id (groups.filter (!·.tests.isEmpty)) r
  rw [hfilled] at hshown
  exact ⟨groups, r, outcomes, v, hrun, hr, hentries, collect_ran hrun hr, hfilled, hran, hshown⟩

/-- A run on a new synchronous engine is the trial of the specs that are listed. -/
theorem built_tried
    (hspare : ∀ trial ∈ (Specification.tried ⟨title, fn⟩ s).trials, trial.Spare s.engines.size) :
    let contents := (t.build b).forest.contents t.heap
    let run := Specification.tried ⟨title, fn⟩ s
    ∃ r y, runSpecification call title fn s.engines.size (s.adding .sync) = (run.outcome, r) ∧
      r.engines[s.engines.size]? = some (.sync y) ∧ y.title = title ∧
      y.results.map TestResult.names <+: contents.specs ∧
      (run.outcome = .ok () → y.results.map TestResult.names = contents.specs) ∧
      (run.outcome = .ok () ↔ ∀ trial ∈ run.trials, trial.Survived) := by
  intro contents run
  obtain ⟨u, hbuilt, hheap, hbuild, hu⟩ := hfn.build_absent hb hs.fits.driven (.sync { title })
  have hsound : (u.build b).forest.Sound := by rw [hbuild]; exact (hfn.fits hs hb b).sound
  have hcompile : (u.build b).forest.compile u.heap = .ok statements := by rw [hbuild, hheap]; exact hc
  obtain ⟨r, y, hrun, hy, htitle, hresults⟩ := runSpecification_tries hbuilt hu hsound hcompile hspare
  have htried : Specification.tried ⟨title, fn⟩ s = _ := tried_compiled hbuilt hcompile
  have hnames := names_cases u.heap (u.build b).forest
  have hfirst := conduct_names call s.engines.size ((u.build b).forest.cases u.heap)
    (u.withRunning (some s.engines.size))
  have houtcome := conduct_outcome call s.engines.size ((u.build b).forest.cases u.heap)
    (u.withRunning (some s.engines.size))
  have hcomplete := conduct_complete call s.engines.size ((u.build b).forest.cases u.heap)
    (u.withRunning (some s.engines.size))
  rw [← htried] at hfirst houtcome hcomplete
  rw [hbuild, hheap] at hnames hfirst hcomplete
  refine ⟨r, y, hrun, hy, htitle, ?_, fun h => ?_, houtcome⟩
  · rw [hresults, ← hnames]
    exact hfirst
  · rw [hresults, ← hnames]
    exact (hcomplete.mpr (houtcome.mp h)).results

end Built

/-- Whatever is shown of a built forest whose names are texts and whose hooks can be called lists the
same groups and specs in the same order: the outlines, the compiled statements, the groups that a
collecting engine records, the groups and items that are collected of them, where groups without
specs are left out, and the document that the outline command writes. If no trial drives the engine,
a synchronous run tries these specs in order. It ends well, and then has a result of each and is
reported with a line for each and their number, exactly if every trial ends well or with an
exception that has an expression. Otherwise the results are those of the specs before, and the run
command fails as the run does. -/
theorem views_agree {K : List Opening} {s t : Session} (hs : Reachable K s) {fn : BuilderFunction}
    (hfn : fn.Programmed) {b : BuildId} (hb : buildForest fn s = (.ok b, t))
    (hc : (t.build b).forest.Compilable t.heap) (title : Value) (id : String) :
    let f := (t.build b).forest
    let contents := f.contents t.heap
    let e := s.engines.size
    let run := Specification.tried ⟨title, fn⟩ s
    let sync := runSpecification call title fn e (s.adding .sync)
    let ended := sync.2.sync e
    (∃ vs u, outlines f t = (.ok vs, u) ∧ u.heap.contents vs = some contents) ∧
    (∃ statements, compile b t = (.ok statements, t) ∧ Statement.contents statements = contents) ∧
    (∃ groups r outcomes u,
      runSpecification call title fn e (s.adding .collecting) = (.ok (), r) ∧
      r.engines[e]? = some (.collecting ⟨title, groups⟩) ∧ groups.map DeclaredGroup.entry = contents ∧
      collect ⟨title, fn⟩ s = (.ok (groups.filter (!·.tests.isEmpty)), r) ∧
      (groups.filter (!·.tests.isEmpty)).map DeclaredGroup.entry = contents.filled ∧
      runGroups id (groups.filter (!·.tests.isEmpty)) r = (.ok outcomes, u) ∧
      outcomes.map GroupOutcome.shown = contents.filled.map fun g => (childId id g.1, g.2.map (g.1, ·))) ∧
    (∀ (spec : Specification) u c v, buildForest spec.builder u = (.ok c, v) → (v.build c).forest = f →
      f.SameNames t.heap v.heap →
      ∃ document w, writeOutline spec u = ((Yaml.dump w.heap document).map (.done · false), w) ∧
        w.heap.documentContents document = some contents) ∧
    ((∀ trial ∈ run.trials, trial.Spare e) →
      ended.results.map TestResult.names <+: contents.specs ∧
      (sync.1 = .ok () → ended.results.map TestResult.names = contents.specs) ∧
      (sync.1 = .ok () ↔ ∀ trial ∈ run.trials, trial.Survived) ∧
      ∀ g u, entered g u = s →
        (∀ err, sync.1 = .error err → (runAndReport ⟨title, fn⟩ g u).1 = .error err) ∧
        (sync.1 = .ok () → List.Forall₂ Reports contents.specs (ended.results.map (·.lines)) ∧
          (runAndReport ⟨title, fn⟩ g u).1 = (title.toText sync.2.heap).map fun heading =>
            .done (text ((heading ++ " Specifications") :: ended.results.flatMap (·.lines) ++
              [s!"{contents.specs.length} specs, {ended.passed} passed, {ended.failed} failed"]))
              (ended.failed ≠ 0))) := by
  intro f contents e run sync ended
  have hsound : f.Sound := (hfn.fits hs hb b).sound
  have hnamed : f.Named t.heap := hc.name
  have hcompile := hsound.compile_ok hc
  refine ⟨⟨_, _, outlines_apply f t, hsound.written_contents hnamed (.refl _)⟩,
    ⟨_, (compile_apply b t).trans (by rw [hcompile]), contents_blocks t.heap f f.preorder⟩,
    built_collected hs hfn hb hcompile title id, fun spec u c v hbuilt hforest hsame => ?_, fun hspare => ?_⟩
  · rw [← hforest] at hsound hnamed hsame
    have hlists := writeOutline_lists hbuilt hsound (hnamed.of_same hsame)
    rwa [hsame.contents, hforest] at hlists
  · obtain ⟨r, y, hrun, hy, htitle, hfirst, hall, hsurvived⟩ := built_tried hs hfn hb hcompile title hspare
    have hsync : sync = (run.outcome, r) := hrun
    have hended : ended = y := (congrArg (fun ran => ran.2.sync e) hsync).trans (Session.sync_eq hy)
    rw [hended, hsync]
    refine ⟨hfirst, hall, hsurvived, fun g u hu => ⟨fun err herr => ?_, fun hok => ?_⟩⟩
    · exact runAndReport_failed hu (hrun.trans (congrArg (·, r) herr))
    · have hlines : (runAndReport ⟨title, fn⟩ g u).1 = _ :=
        runAndReport_ran hu (hrun.trans (congrArg (·, r) hok)) hy
      rw [htitle] at hlines
      rw [← hall hok, List.length_map, List.forall₂_map_left_iff, List.forall₂_map_right_iff]
      exact ⟨List.forall₂_same.mpr fun r _ => r.lines_report, hlines⟩

theorem raising_built {i : Int} (hs : (Session.raising i).Raising i)
    (hb : (buildForest (builderIn none 0 (.raising i)) (Session.titled {} (.text "t"))).1 = .ok 0) :
    ∃ t, buildForest (builderIn none 0 (.raising i)) {} = (.ok 0, t) ∧ (t.build 0).forest.Sound ∧
      (t.build 0).forest.compile t.heap = .ok raisingStatements ∧
      (t.build 0).forest.contents t.heap = [("a", ["b", "c"])] := by
  have hfn := (BuilderFunction.Written.source 0 (.raising i)).programmed
  have hraising := buildForest_raising hb
  have hsound := ((Session.raising_reachable i).fits.builds 0).sound
  have hcompile := hs.compile
  generalize Session.raising i = u at hraising hsound hcompile
  rcases hmade : buildForest (builderIn none 0 (.raising i)) {} with ⟨made, t⟩
  obtain ⟨v, hbuilt, hheap, hbuild, -⟩ := hfn.build_absent hmade nofun (.sync { title := .text "t" })
  obtain ⟨rfl, rfl⟩ := Prod.mk.inj (hbuilt.symm.trans hraising)
  rw [hbuild] at hsound
  rw [hbuild, hheap] at hcompile
  refine ⟨t, rfl, hsound, hcompile, ?_⟩
  have hblocks := Except.ok.inj (hcompile.symm.trans (hsound.compile_ok (hsound.compilable hcompile)))
  exact (contents_blocks t.heap _ _).symm.trans (congrArg Statement.contents hblocks.symm)

theorem views_agree_raising :
    let spec : Specification := ⟨.text "t", builderIn none 0 (.raising 7)⟩
    let sync := runSpecification call spec.title spec.builder 0 (Session.adding {} .sync)
    Reachable [] {} ∧ spec.builder.Programmed ∧
    (∃ t, buildForest spec.builder {} = (.ok 0, t) ∧ (t.build 0).forest.Compilable t.heap ∧
      ∃ vs u, outlines (t.build 0).forest t = (.ok vs, u) ∧ u.heap.contents vs = some [("a", ["b", "c"])]) ∧
    (∀ trial ∈ (spec.tried {}).trials, trial.Spare 0) ∧ sync.1 = .ok () ∧
    (sync.2.sync 0).results.map TestResult.names = [("a", "b"), ("a", "c")] := by
  intro spec sync
  have hstart : Reachable [] {} := .start (fun _ => rfl) nofun nofun
  have hfn : spec.builder.Programmed := (BuilderFunction.Written.source 0 (.raising 7)).programmed
  have hbuilt : (buildForest (builderIn none 0 (.raising 7)) (Session.titled {} (.text "t"))).1 = .ok 0 := by
    rfl
  obtain ⟨t, hb, hsound, hcompile, hcontents⟩ := raising_built raising_seven hbuilt
  have hc := hsound.compilable hcompile
  obtain ⟨houtlines, -, -, -, hrun⟩ := views_agree hstart hfn hb hc (.text "t") ""
  obtain ⟨-, htrials, -⟩ := raising_seven.conduct_both _ (escaped_seven _)
  rw [← tried_raising raising_seven hbuilt] at htrials
  have hspare : ∀ trial ∈ (spec.tried {}).trials, trial.Spare 0 := fun trial ht => (htrials trial ht).1
  obtain ⟨-, hall, hsurvived, -⟩ := hrun hspare
  have hok : sync.1 = .ok () := hsurvived.mpr fun trial ht => (htrials trial ht).2
  rw [hcontents] at houtlines hall
  exact ⟨hstart, hfn, ⟨t, hb, hc, houtlines⟩, hspare, hok, hall hok⟩

/-- Two specs are listed, and there is no result of either: the run ends with the first. -/
theorem views_stop :
    let spec : Specification := ⟨.text "t", builderIn none 0 (.raising leastLong)⟩
    let sync := runSpecification call spec.title spec.builder 0 (Session.adding {} .sync)
    (∃ t vs u, buildForest spec.builder {} = (.ok 0, t) ∧ outlines (t.build 0).forest t = (.ok vs, u) ∧
      u.heap.contents vs = some [("a", ["b", "c"])]) ∧
    (∀ trial ∈ (spec.tried {}).trials, trial.Spare 0 ∧ trial.outcome = .error (raisedOn leastLong)) ∧
    (raisedOn leastLong).isInterruption = false ∧ (sync.2.sync 0).results = [] ∧
    (runAndReport spec false {}).1 = .error (.fault .tooManyDigits) := by
  intro spec sync
  have hlong := raising_leastLong
  have hbuilt := buildForest_raising (i := leastLong) (by rfl)
  have htried : spec.tried {} = _ := tried_raising hlong (by rfl)
  have hsound := ((Session.raising_reachable leastLong).fits.builds 0).sound
  obtain ⟨t, hb, hfirst, hcompile, hcontents⟩ := raising_built hlong (by rfl)
  generalize Session.raising leastLong = s at hlong hbuilt hsound htried
  obtain ⟨houtcome, hresults, htrials⟩ := conduct_stops (e := 0) (s := s.withRunning (some 0))
    [quietCase] hlong.raising_idle rfl (escaped_leastLong _)
  rw [← htried] at houtcome hresults htrials
  obtain ⟨r, y, hrun, hy, -, hnone⟩ := runSpecification_tries hbuilt hlong.engine hsound hlong.compile
    fun trial ht => (htrials trial ht).1
  have hended : sync = (.error (.fault .tooManyDigits), r) := hrun.trans (congrArg (·, r) houtcome)
  have hread := hfirst.written_contents (hfirst.compilable hcompile).name (.refl _)
  rw [hcontents] at hread
  refine ⟨⟨t, _, _, hb, outlines_apply _ t, hread⟩, htrials, rfl, ?_, runAndReport_failed rfl hended⟩
  rw [hended, show (r.sync 0).results = y.results from congrArg _ (Session.sync_eq hy), hnone, hresults]

end Exemplar
