import Exemplar.Proofs.Collected
import Exemplar.Proofs.Later

/-! Runs in stages.

A run tells the engine its title, builds, compiles, and only then drives the engine. A builder that
does not drive the engine leaves of it what driving changes (`Undriven.build`), so a run that fails
before its last stage leaves the engine with the new title and nothing else. In the last stage the
engine gets the statements in order, up to the first that fails (`run_staged`). -/
namespace Exemplar

open Act

/-! ### What driving changes -/

namespace Engine

/-- The engine without what reports and waits change. -/
def driven : Engine → Engine
  | .sync x => .sync { x with ledgers := [], paused := false }
  | .item _ => .item {}
  | x => x

/-- The engine with a title. -/
def titled (title : Value) : Engine → Engine
  | .sync x => .sync { x with title }
  | .collecting c => .collecting { c with title }
  | x => x

/-- The engine is that of one spec, which is never driven. -/
def IsItem : Engine → Prop
  | .item _ => True
  | _ => False

end Engine

/-- A session compared with itself: of the engine `e`, what driving changes is as in `x`. -/
structure Undriven (e : Nat) (x : Engine) (s s' : Session) : Prop where
  same : s' = s
  engine : ∃ y, s.engines[e]? = some y ∧ y.driven = x.driven

namespace Undriven

variable {e : Nat} {x : Engine} {s s' t : Session}

theorem moved (h : Undriven e x s s') (ht : t.engines = s.engines) : Undriven e x t t := ⟨rfl, ht ▸ h.engine⟩

theorem matches_self (h : Undriven e x s s') : s.Matches False s' := h.same ▸ .refl _ False.elim

theorem recalling (h : Undriven e x s s') (m : Memory) :
    Undriven e x (s.recalling m) (s'.recalling m) := by
  rw [h.same]
  exact h.moved rfl

theorem withEngine (h : Undriven e x s s') {y : Engine} (hy : y.driven = x.driven) :
    Undriven e x (s.withEngine e y) (s.withEngine e y) := by
  obtain ⟨-, z, hz, -⟩ := h
  exact ⟨rfl, y, Session.getElem?_withEngine (Session.lt_of_engine hz) y, hy⟩

theorem withOther (h : Undriven e x s s') {a : Nat} (ha : a ≠ e) (y : Engine) :
    Undriven e x (s.withEngine a y) (s.withEngine a y) := by
  obtain ⟨-, z, hz, hd⟩ := h
  exact ⟨rfl, z, (Session.getElem?_withEngine_ne ha y).trans hz, hd⟩

theorem adding (h : Undriven e x s s') (kind : EngineKind) : Undriven e x (s.adding kind) (s.adding kind) := by
  obtain ⟨-, z, hz, hd⟩ := h
  refine ⟨rfl, z, ?_, hd⟩
  rw [Session.adding, Array.getElem?_push, if_neg (Nat.ne_of_lt (Session.lt_of_engine hz))]
  exact hz

/-- What goes like itself keeps the engine undriven if it does so on its own. -/
theorem alike {α : Type} {a : Act α} (h : ∀ s, Undriven e x s s → Undriven e x (a s).2 (a s).2) :
    Alike (Undriven e x) a a := by
  intro s s' hs
  obtain rfl := hs.same
  exact ⟨rfl, h s' hs⟩

/-- After a report is made the engine may get it. -/
theorem makeReport_keeps (h : Undriven e x s s) (passed : Bool) (message : Value) {k : Report → Act Unit}
    (hk : ∀ r m, Undriven e x (k r (s.recalling m)).2 (k r (s.recalling m)).2) :
    Undriven e x ((makeReport passed message >>= k) s).2 ((makeReport passed message >>= k) s).2 := by
  rcases hmade : makeReport passed message s with ⟨f | r, t⟩ <;>
    obtain ⟨m, -, rfl⟩ := (makeReport_quiet passed message).still hmade
  · rw [bind_error hmade]
    exact h.moved rfl
  · rw [bind_ok hmade]
    exact hk r m

theorem reportTo_alike (passed : Bool) (message : Value) :
    Alike (Undriven e x) (reportTo e passed message) (reportTo e passed message) := by
  refine alike fun s h => ?_
  obtain ⟨y, hy, hd⟩ := h.engine
  rw [show reportTo e passed message s = _ from engine_bind hy _]
  cases y with
  | sync y =>
    dsimp only
    split
    · refine h.makeReport_keeps passed message fun r m => ?_
      rw [changeSync_apply (s := s.recalling m) hy]
      refine (h.moved (t := s.recalling m) rfl).withEngine (Eq.trans ?_ hd)
      rw [SyncEngine.addReport]
      split <;> rfl
    · exact h
  | collecting c => exact h
  | item i => exact h.makeReport_keeps passed message fun r m => (h.moved (t := s.recalling m) rfl).withEngine hd
  | recording => exact h.moved rfl

theorem pause_alike : Alike (Undriven e x) (Act.pause e) (Act.pause e) := by
  refine alike fun s h => ?_
  obtain ⟨y, hy, hd⟩ := h.engine
  rw [show Act.pause e s = _ from engine_bind hy _]
  cases y with
  | sync y =>
    dsimp only
    split
    · exact h
    · exact h.withEngine hd
  | collecting c => exact h
  | item i =>
    dsimp only
    split
    · exact h
    · exact h.withEngine hd
  | recording => exact h.moved rfl

theorem resume_alike : Alike (Undriven e x) (Act.resume e) (Act.resume e) := by
  refine alike fun s h => ?_
  obtain ⟨y, hy, hd⟩ := h.engine
  rw [show Act.resume e s = _ from engine_bind hy _]
  cases y with
  | sync y => exact h.withEngine hd
  | collecting c => exact h
  | item i => exact h.withEngine hd
  | recording => exact h.moved rfl

/-- Programs that may not drive the engine do not. -/
def accord (e : Nat) (x : Engine) : Accord (some (.driving e)) (some (.driving e)) where
  World := Unit
  rel _ := Undriven e x
  twin _ a b := a = b ∧ a ≠ e
  odd _ a b := a = e ∧ b = e
  same h := h.matches_self
  memory h _ _ := h.recalling _
  scoping h _ := by rw [h.same]; exact h.moved rfl
  group name h _ := by
    rw [h.same]
    exact ⟨(), h.moved rfl, trivial, fun _ _ hu => by rw [hu.same]; exact hu.moved rfl⟩
  declare h _ _ _ := by rw [h.same]; exact h.moved rfl
  build h := by
    rw [h.same]
    exact ⟨(), h.moved rfl, trivial, fun _ _ hu => by rw [hu.same]; exact hu.moved rfl⟩
  thread h := by
    rw [h.same]
    exact ⟨(), h.moved rfl, trivial, fun _ _ hu => by rw [hu.same]; exact hu.moved rfl⟩
  current {w s s'} h := by
    rw [h.same]
    cases ha : s.running with
    | none => exact .inl ⟨rfl, rfl⟩
    | some a =>
      refine .inr ⟨a, a, rfl, rfl, ?_⟩
      by_cases hae : a = e
      · exact .inr ⟨hae, hae⟩
      · exact .inl ⟨rfl, hae⟩
  run h ht := by
    obtain ⟨rfl, hne⟩ := ht
    rw [h.same]
    exact ⟨(), h.moved rfl, ⟨rfl, hne⟩, fun _ _ hu => by rw [hu.same]; exact hu.moved rfl⟩
  fresh kind h := by
    rw [h.same]
    obtain ⟨y, hy, -⟩ := h.engine
    exact ⟨(), h.adding kind, ⟨rfl, Nat.ne_of_gt (Session.lt_of_engine hy)⟩, fun _ _ hu => hu⟩
  content h ht := by rw [h.same, ht.1]
  setting y h ht := by
    obtain ⟨rfl, hne⟩ := ht
    rw [h.same]
    exact h.withOther hne y
  free ht := by
    obtain ⟨rfl, hne⟩ := ht
    exact ⟨fun hc => hne (Option.some.inj hc).symm, fun hc => hne (Option.some.inj hc).symm⟩
  report passed message ho := by
    obtain ⟨rfl, rfl⟩ := ho
    exact reportTo_alike passed message
  pause ho := by
    obtain ⟨rfl, rfl⟩ := ho
    exact pause_alike
  resume ho := by
    obtain ⟨rfl, rfl⟩ := ho
    exact resume_alike
  wait ms body ho hc := by
    obtain ⟨rfl, rfl⟩ := ho
    exact waitOn_alike (·.matches_self) (fun h _ _ => h.recalling _) (hc ()) pause_alike resume_alike ms body
  setTitle title ho := by
    obtain ⟨rfl, rfl⟩ := ho
    exact .refused fun s s' _ => ⟨telling_barred s _ _ _, telling_barred s' _ _ _⟩
  declareGroup name setup teardown ho := by
    obtain ⟨rfl, rfl⟩ := ho
    exact .refused fun s s' _ => ⟨telling_barred s _ _ _, telling_barred s' _ _ _⟩
  runTest description body ho _ := by
    obtain ⟨rfl, rfl⟩ := ho
    exact .refused fun s s' _ => ⟨driving_barred rfl s _ _, driving_barred rfl s' _ _⟩
  specify name ho _ _ := by
    obtain ⟨rfl, rfl⟩ := ho
    exact .refused fun s s' _ => ⟨specifyOn_barred rfl s _ _ _, specifyOn_barred rfl s' _ _ _⟩

end Undriven

/-! ### Builders that do not drive -/

/-- The same builder function, but for its steps, which may not drive the engine `e`. -/
inductive BuilderFunction.Barred (e : EngineId) : BuilderFunction → BuilderFunction → Prop
  | script (style : Style) (saveAs : Option String) (module : ModuleId) (depth : Nat)
      (frame : Frame → Frame) (steps : List Step) :
      Barred e ⟨style, saveAs, module, fun f => Step.runAll none (callWithin none depth) (frame f) steps⟩
        ⟨style, saveAs, module, fun f =>
          Step.runAll (some (.driving e)) (callWithin (some (.driving e)) depth) (frame f) steps⟩
  | value (style : Style) (saveAs : Option String) (module : ModuleId) (depth : Nat) (v : Value)
      (args : List Value) :
      Barred e ⟨style, saveAs, module, fun _ => do let _ ← callWithin none depth v args []⟩
        ⟨style, saveAs, module, fun _ => do let _ ← callWithin (some (.driving e)) depth v args []⟩

/-- The build of the session goes the same when the engine may not be driven. -/
def BuilderFunction.Spares (e : EngineId) (fn : BuilderFunction) (s : Session) : Prop :=
  ∃ fn', fn.Barred e fn' ∧ buildForest fn' s = buildForest fn s

/-- A session compared with itself, in which the engine `e` is not current. -/
structure Elsewhere (e : Nat) (s s' : Session) : Prop where
  same : s' = s
  running : s.running ≠ some e
  known : e < s.engines.size

namespace Elsewhere

variable {e : Nat} {s s' t : Session}

theorem moved (h : Elsewhere e s s') (hr : t.running ≠ some e) (ht : t.engines.size = s.engines.size) :
    Elsewhere e t t := ⟨rfl, hr, ht ▸ h.known⟩

/-- It does not matter whether an engine that is not current is barred. -/
def accord (e : Nat) : Accord (some (.driving e)) none where
  World := Unit
  rel _ := Elsewhere e
  twin _ a b := a = b ∧ a ≠ e
  odd _ _ _ := False
  same h := h.same ▸ .refl _ False.elim
  memory h _ _ := by rw [h.same]; exact h.moved h.running rfl
  scoping h _ := by rw [h.same]; exact h.moved h.running rfl
  group name h _ := by
    rw [h.same]
    exact ⟨(), h.moved h.running rfl, trivial, fun _ _ hu => by rw [hu.same]; exact hu.moved hu.running rfl⟩
  declare h _ _ _ := by rw [h.same]; exact h.moved h.running rfl
  build h := by
    rw [h.same]
    exact ⟨(), h.moved h.running rfl, trivial, fun _ _ hu => by rw [hu.same]; exact hu.moved hu.running rfl⟩
  thread h := by
    rw [h.same]
    exact ⟨(), h.moved nofun rfl, trivial, fun _ _ hu => by rw [hu.same]; exact hu.moved h.running rfl⟩
  current {w s s'} h := by
    rw [h.same]
    cases ha : s.running with
    | none => exact .inl ⟨rfl, rfl⟩
    | some a => exact .inr ⟨a, a, rfl, rfl, .inl ⟨rfl, fun hae => h.running (hae ▸ ha)⟩⟩
  run h ht := by
    obtain ⟨rfl, hne⟩ := ht
    rw [h.same]
    exact ⟨(), h.moved (fun ha => hne (Option.some.inj ha)) rfl, ⟨rfl, hne⟩,
      fun _ _ hu => by rw [hu.same]; exact hu.moved h.running rfl⟩
  fresh {w s s'} kind h := by
    rw [h.same]
    have hsize : (s.adding kind).engines.size = s.engines.size + 1 := Array.size_push ..
    exact ⟨(), ⟨rfl, h.running, hsize ▸ Nat.lt_succ_of_lt h.known⟩, ⟨rfl, Nat.ne_of_gt h.known⟩,
      fun _ _ hu => hu⟩
  content h ht := by rw [h.same, ht.1]
  setting y h ht := by
    rw [h.same, ht.1]
    exact h.moved h.running (Array.size_setIfInBounds ..)
  free ht := by
    obtain ⟨rfl, hne⟩ := ht
    exact ⟨fun hc => hne (Option.some.inj hc).symm, nofun⟩
  report _ _ h := h.elim
  pause h := h.elim
  resume h := h.elim
  wait _ _ h := h.elim
  setTitle _ h := h.elim
  declareGroup _ _ _ h := h.elim
  runTest _ _ h _ := h.elim
  specify _ h _ _ := h.elim

end Elsewhere

namespace BuilderFunction

variable {e : EngineId} {fn fn' : BuilderFunction} {s : Session} {x : Engine}

/-- What is built with the engine barred leaves it undriven. -/
theorem Barred.build_alike (h : fn.Barred e fn') :
    Alike (Undriven e x) (buildForest fn') (buildForest fn') := by
  cases h with
  | script style saveAs module depth frame steps =>
    exact (Undriven.accord e x).buildForest_alike (w := ()) False.elim (Nat.zero_le _) fun w f =>
      (Undriven.accord e x).steps_alike ((Undriven.accord e x).callWithin_alike depth) (frame f) steps False.elim
  | value style saveAs module depth v args =>
    exact (Undriven.accord e x).buildForest_alike (w := ()) False.elim (Nat.zero_le _) fun w f =>
      ((Undriven.accord e x).callWithin_alike depth w v args []).bind fun _ => .pure _

theorem Spares.build (h : fn.Spares e s) (hx : s.engines[e]? = some x) :
    ∃ y, (buildForest fn s).2.engines[e]? = some y ∧ y.driven = x.driven := by
  obtain ⟨fn', hbarred, hsame⟩ := h
  have hstart : Undriven e x s s := ⟨rfl, x, hx, rfl⟩
  rw [← hsame]
  exact (hbarred.build_alike s s hstart).2.engine

/-- A builder function does not drive an engine that is not current. -/
theorem Programmed.spares (h : fn.Programmed) (he : e < s.engines.size) (hr : s.running ≠ some e) :
    fn.Spares e s := by
  have hstart : Elsewhere e s s := ⟨rfl, hr, he⟩
  have hsame : ∀ fn' : BuilderFunction, Alike (Elsewhere e) (buildForest fn') (buildForest fn) →
      buildForest fn' s = buildForest fn s := fun fn' ha => by
    obtain ⟨hresult, hsession⟩ := ha s s hstart
    exact Prod.ext hresult hsession.same.symm
  cases h with
  | script style saveAs module depth frame steps =>
    refine ⟨_, .script style saveAs module depth frame steps, hsame _ ?_⟩
    exact (Elsewhere.accord e).buildForest_alike (w := ()) False.elim (Nat.zero_le _) fun w f =>
      (Elsewhere.accord e).steps_alike ((Elsewhere.accord e).callWithin_alike depth) (frame f) steps False.elim
  | value style saveAs module depth v args =>
    refine ⟨_, .value style saveAs module depth v args, hsame _ ?_⟩
    exact (Elsewhere.accord e).buildForest_alike (w := ()) False.elim (Nat.zero_le _) fun w f =>
      ((Elsewhere.accord e).callWithin_alike depth w v args []).bind fun _ => .pure _

end BuilderFunction

/-! ### The last stage -/

/-- How an engine is given statements: one after the other, up to the first that fails. -/
inductive Gets (call : Call) (e : EngineId) :
    List Statement → Session → List Statement → Except Failure Unit × Session → Prop
  | all (s) : Gets call e [] s [] (.ok (), s)
  | next {statement rest s t got done} : perform call e statement s = (.ok (), t) → Gets call e rest t got done →
      Gets call e (statement :: rest) s (statement :: got) done
  | fails {statement s t f} (rest) : perform call e statement s = (.error f, t) →
      Gets call e (statement :: rest) s [statement] (.error f, t)

namespace Gets

variable {call : Call} {e : EngineId} {statements got : List Statement} {s : Session}
  {done : Except Failure Unit × Session}

theorem performAll (call : Call) (e : EngineId) (statements : List Statement) (s : Session) :
    ∃ got, Gets call e statements s got (Act.performAll call e statements s) := by
  induction statements generalizing s with
  | nil => exact ⟨[], .all s⟩
  | cons statement rest ih =>
    rcases hfirst : perform call e statement s with ⟨f | ⟨⟩, t⟩
    · rw [Act.performAll, bind_error hfirst]
      exact ⟨_, .fails rest hfirst⟩
    · rw [Act.performAll, bind_ok hfirst]
      obtain ⟨got, hrest⟩ := ih t
      exact ⟨_, .next hfirst hrest⟩

theorem isPrefix (h : Gets call e statements s got done) : got <+: statements := by
  induction h with
  | all s => exact List.prefix_refl _
  | next _ _ ih => exact List.cons_prefix_cons.mpr ⟨rfl, ih⟩
  | fails rest _ => exact List.cons_prefix_cons.mpr ⟨rfl, List.nil_prefix⟩

theorem ended (h : Gets call e statements s got done) (hok : done.1 = .ok ()) : got = statements := by
  induction h with
  | all s => rfl
  | next _ _ ih => rw [ih hok]
  | fails rest _ => cases hok

end Gets

/-- What a recording engine records of a statement. -/
def Statement.received : Statement → Event
  | .group name _ _ => .declareGroup (.text name)
  | .test description _ => .runTest (.text description)

/-- A recording engine has them in its log. -/
theorem performAll_recorded {e : EngineId} {s : Session} (hx : s.engines[e]? = some .recording) (call : Call)
    (statements : List Statement) : performAll call e statements s =
      (.ok (), { s with log := (statements.map fun st => ⟨s.heap, st.received⟩).reverse ++ s.log }) := by
  induction statements generalizing s with
  | nil => rfl
  | cons statement rest ih =>
    have hfirst : perform call e statement s =
        (.ok (), { s with log := ⟨s.heap, statement.received⟩ :: s.log }) := by
      cases statement with
      | group name befores afters => exact engine_bind hx _
      | test description body => exact engine_bind hx _
    rw [performAll, bind_ok hfirst]
    refine (ih (s := { s with log := ⟨s.heap, statement.received⟩ :: s.log }) hx).trans ?_
    simp only [List.map_cons, List.reverse_cons, List.append_assoc, List.singleton_append]

theorem Engine.driven_recording {y : Engine} (h : y.driven = .recording) : y = .recording := by
  cases y <;> first | rfl | cases h

/-! ### Runs -/

section Runs

variable {s t : Session} {e : EngineId} {x : Engine} {title : Value}

theorem setTitle_item {i : ItemEngine} (hx : s.engines[e]? = some (.item i)) :
    setTitle e title s = (.error (.misuse .runInsideSpec none), s) := engine_bind hx _

theorem setTitle_engine (hx : s.engines[e]? = some x) (hitem : ¬x.IsItem) (title : Value) :
    ∃ t, setTitle e title s = (.ok (), t) ∧ t.engines[e]? = some (x.titled title) ∧ t.running = s.running := by
  have hlt := Session.lt_of_engine hx
  cases x with
  | sync x => exact ⟨_, engine_bind hx _, Session.getElem?_withEngine hlt _, rfl⟩
  | collecting c => exact ⟨_, engine_bind hx _, Session.getElem?_withEngine hlt _, rfl⟩
  | item i => exact absurd trivial hitem
  | recording => exact ⟨_, engine_bind hx _, hx, rfl⟩

/-- A run on any engine, with a builder that does not drive it itself: an item engine refuses the
title, and nothing else happens. Any other engine gets the title, and the build leaves it undriven.
If the builder fails, or the forest can not be compiled, the run ends so. Otherwise the engine gets
the compiled statements in order while it is current, up to the first that fails; a recording engine
has recorded them all. -/
theorem run_staged (hx : s.engines[e]? = some x) (call : Call) (title : Value) {fn : BuilderFunction}
    (hfn : fn.Programmed)
    (hspares : s.running = some e → ∀ t, setTitle e title s = (.ok (), t) → fn.Spares e t) :
    let run := runSpecification call title fn e s
    (x.IsItem → run = (.error (.misuse .runInsideSpec none), s)) ∧
    (¬x.IsItem → ∃ t y, setTitle e title s = (.ok (), t) ∧ t.engines[e]? = some (x.titled title) ∧
      (buildForest fn t).2.engines[e]? = some y ∧ y.driven = (x.titled title).driven ∧
      (∀ f u, buildForest fn t = (.error f, u) → run = (.error f, u)) ∧
      ∀ b u, buildForest fn t = (.ok b, u) →
        (∀ f, (u.build b).forest.compile u.heap = .error f → run = (.error f, u)) ∧
        ∀ statements, (u.build b).forest.compile u.heap = .ok statements → ∃ got done,
          Gets call e statements (u.withRunning (some e)) got done ∧ got <+: statements ∧
          (done.1 = .ok () → got = statements) ∧ run = (done.1, done.2.withRunning u.running) ∧
          (x = .recording → done.1 = .ok () ∧
            done.2.log = (statements.map fun st => ⟨u.heap, st.received⟩).reverse ++ u.log)) := by
  intro run
  refine ⟨fun hitem => ?_, fun hitem => ?_⟩
  · cases x with
    | item i => exact bind_error (setTitle_item hx)
    | _ => exact hitem.elim
  obtain ⟨t, htitle, ht, hrunning⟩ := setTitle_engine hx hitem title
  have hspare : fn.Spares e t := by
    by_cases hr : s.running = some e
    · exact hspares hr t htitle
    · exact hfn.spares (Session.lt_of_engine ht) (hrunning ▸ hr)
  obtain ⟨y, hy, hdriven⟩ := hspare.build ht
  refine ⟨t, y, htitle, ht, hy, hdriven, fun f u hb => runSpecification_unbuilt htitle hb, fun b u hb =>
    ⟨fun f hc => runSpecification_uncompiled htitle hb hc, fun statements hc => ?_⟩⟩
  obtain ⟨got, hgot⟩ := Gets.performAll call e statements (u.withRunning (some e))
  refine ⟨got, _, hgot, hgot.isPrefix, hgot.ended, runSpecification_performs call htitle hb hc, ?_⟩
  rintro rfl
  rw [hb] at hy
  obtain rfl := Engine.driven_recording hdriven
  rw [performAll_recorded (s := u.withRunning (some e)) hy]
  exact ⟨rfl, rfl⟩

end Runs

/-- A report, and then an exception. -/
def Source.failing : Source where
  steps := [.report (.bool true) none, .raise .valueError [.text "x"]]

/-- In the middle of a test of an engine that has a result. -/
def SyncEngine.midway : SyncEngine := { results := [⟨"a", "b", [], none⟩], ledgers := [[]], recording := true }

def Session.midway : Session where
  engines := #[.sync .midway]
  running := some 0

theorem BuilderFunction.failing_spares (s : Session) : (builderIn none 0 .failing).Spares 0 s := by
  refine ⟨_, .script .param none 0 callDepth id Source.failing.steps, congrArg (buildForest · s) ?_⟩
  have hpassed : ∀ f, (Term.bool true).eval f = pure (.bool true) := fun f => rfl
  simp only [builderIn, Source.failing, Step.runAll, Step.run, id, hpassed, pure_bind, report, holds_bool]

/-- The builder reports to the engine and raises: what driving changes is as it was, but for the
title. -/
theorem run_staged_failing : ∃ u y,
    runSpecification call (.text "t") (builderIn none 0 .failing) 0 Session.midway =
      (.error (.raised .valueError [.text "x"]), u) ∧
    u.engines[0]? = some y ∧ y.driven = (Engine.sync { SyncEngine.midway with title := .text "t" }).driven := by
  obtain ⟨-, hstaged⟩ := run_staged (s := Session.midway) (e := 0) rfl call (.text "t")
    (.script .param none 0 callDepth id Source.failing.steps) fun _ t _ => BuilderFunction.failing_spares t
  obtain ⟨t, y, htitle, -, hy, hdriven, hunbuilt, -⟩ := hstaged (fun h => h)
  obtain rfl : _ = t := congrArg Prod.snd htitle
  have hfails : (buildForest (builderIn none 0 .failing) (setTitle 0 (.text "t") Session.midway).2).1 =
      .error (.raised .valueError [.text "x"]) := by rfl
  exact ⟨_, y, hunbuilt _ _ (Prod.ext hfails rfl), hy, hdriven⟩

end Exemplar
