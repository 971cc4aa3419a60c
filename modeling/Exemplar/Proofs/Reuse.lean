import Exemplar.Proofs.Collected
import Exemplar.Proofs.Shifted
import Exemplar.Proofs.Surroundings
import Exemplar.Proofs.Together

/-! A synchronous engine that is used again.

Between runs a synchronous engine is at rest: no ledger is open, nothing is recorded, and it does
not wait. A run that is cut off, in a builder or in a test, leaves it so too, but what it declared
and set last stays. The next run sets the title anew, and its first statement declares a group, so
nothing of the earlier runs is left for it to read: it appends the results that it would have had on
a new engine (`reused_as_fresh`). -/
namespace Exemplar

open Act

/-! ### Engines at rest -/

/-- No test runs on the engine. -/
structure SyncEngine.Rested (x : SyncEngine) : Prop where
  ledgers : x.ledgers = []
  recording : x.recording = false
  paused : x.paused = false

/-- The engine `e` is a synchronous engine at rest. -/
def Session.Rests (s : Session) (e : EngineId) : Prop :=
  ∃ x, s.engines[e]? = some (.sync x) ∧ x.Rested

/-- A test that began at rest ends at rest. -/
theorem SyncEngine.Rested.close {x z : SyncEngine} {log : List Happening} (hx : x.Rested)
    (h : Course x.begin log z) (result : Option TestResult) : (z.close result).Rested where
  ledgers := by
    have hz : z.ledgers = ([] ++ recorded log) :: x.ledgers := h.ledgers rfl
    simp [SyncEngine.close, SyncEngine.finish, hz, hx.ledgers]
  recording := rfl
  paused := rfl

section Resting

variable {s : Session} {e : EngineId}

/-- Statements leave the engine at rest, however they end. -/
theorem Session.Rests.performed (h : s.Rests e) (depth : Nat) (statement : Statement) :
    (perform (callWithin none depth) e statement s).2.Rests e := by
  obtain ⟨x, hx, hrested⟩ := h
  cases statement with
  | group name befores afters =>
    have hdeclare : perform (callWithin none depth) e (.group name befores afters) s = _ := engine_bind hx _
    rw [hdeclare]
    exact ⟨_, Session.getElem?_withEngine (Session.lt_of_engine hx) _, hrested.ledgers, hrested.recording,
      hrested.paused⟩
  | test description body =>
    obtain ⟨inner, z, result, hend, hinner, -⟩ := OnCourse.runTest hx depth (.text description) body
    exact ⟨_, hend, hrested.close hinner result⟩

theorem Session.Rests.performedAll (h : s.Rests e) (depth : Nat) (statements : List Statement) :
    (performAll (callWithin none depth) e statements s).2.Rests e := by
  induction statements generalizing s with
  | nil => exact h
  | cons statement rest ih =>
    have hfirst := h.performed depth statement
    rcases hperform : perform (callWithin none depth) e statement s with ⟨f | ⟨⟩, t⟩
    · rw [performAll, bind_error hperform]
      rw [hperform] at hfirst
      exact hfirst
    · rw [performAll, bind_ok hperform]
      rw [hperform] at hfirst
      exact ih hfirst

theorem setTitle_titled {x : SyncEngine} (hx : s.engines[e]? = some (.sync x)) (title : Value) :
    setTitle e title s = (.ok (), s.withEngine e (.sync { x with title })) := engine_bind hx _

/-- The build for an engine that is not current leaves it as it is. -/
theorem buildForest_engine {x : Engine} (hx : s.engines[e]? = some x) (hr : s.running ≠ some e)
    {fn : BuilderFunction} (hfn : fn.Programmed) : (buildForest fn s).2.engines[e]? = some x := by
  have hself : Unseen e x x s s := ⟨(Session.withEngine_self hx).symm, hx, hr⟩
  exact (hfn.build_alike (A := Unseen.accord e x x) (w := ()) ⟨id, Nat.zero_le⟩ s s hself).2.engine

/-- An engine that is not current is at rest when its specification is built. -/
theorem Session.Rests.built (h : s.Rests e) (hr : s.running ≠ some e) (title : Value)
    {fn : BuilderFunction} (hfn : fn.Programmed) : (buildForest fn (setTitle e title s).2).2.Rests e := by
  obtain ⟨x, hx, hrested⟩ := h
  rw [setTitle_titled hx]
  exact ⟨_, buildForest_engine (Session.getElem?_withEngine (Session.lt_of_engine hx) _) hr hfn,
    hrested.ledgers, hrested.recording, hrested.paused⟩

/-- A run on an engine that is not current leaves it at rest, finished or not. -/
theorem Session.Rests.run (h : s.Rests e) (hr : s.running ≠ some e) (depth : Nat) (title : Value)
    {fn : BuilderFunction} (hfn : fn.Programmed) :
    (runSpecification (callWithin none depth) title fn e s).2.Rests e := by
  have hbuilt := h.built hr title hfn
  obtain ⟨x, hx, -⟩ := h
  have htitle := setTitle_titled hx title
  rw [htitle] at hbuilt
  rcases hbuild : buildForest fn (s.withEngine e (.sync { x with title })) with ⟨f | b, u⟩ <;>
    rw [hbuild] at hbuilt
  · rw [runSpecification_unbuilt htitle hbuild]
    exact hbuilt
  · cases hcompile : (u.build b).forest.compile u.heap with
    | error f =>
      rw [runSpecification_uncompiled htitle hbuild hcompile]
      exact hbuilt
    | ok statements =>
      rw [runSpecification_performs _ htitle hbuild hcompile]
      have hin : (u.withRunning (some e)).Rests e := hbuilt
      exact hin.performedAll depth statements

end Resting

/-! ### The first statement -/

/-- The statements begin with a group. -/
def Led : List Statement → Prop
  | [] | .group .. :: _ => True
  | .test .. :: _ => False

theorem Led.append {a b : List Statement} (ha : Led a) (hb : Led b) : Led (a ++ b) := by
  cases a with
  | nil => exact hb
  | cons first _ =>
    cases first with
    | group => trivial
    | test => exact ha

namespace Forest

variable {h : Heap} {f : Forest}

theorem compileIn_led {depth n : Nat} {statements : List Statement}
    (hs : f.compileIn h depth n = .ok statements) : Led statements := by
  cases depth with
  | zero =>
    cases hs
    trivial
  | succ depth =>
    rw [compileIn] at hs
    obtain ⟨name, -, hs⟩ := bind_eq_ok_iff.mp hs
    obtain ⟨group, hgroup, hs⟩ := bind_eq_ok_iff.mp hs
    obtain ⟨inner, -, hs⟩ := bind_eq_ok_iff.mp hs
    cases hs
    rw [Statement.declare] at hgroup
    split at hgroup <;> cases hgroup
    trivial

theorem mapM_compileNode_led {ns : List NodeId} {blocks : List (List Statement)}
    (hs : ns.mapM (f.compileNode h) = .ok blocks) : Led blocks.flatten := by
  induction ns generalizing blocks with
  | nil =>
    cases hs
    trivial
  | cons n rest ih =>
    rw [List.mapM_cons] at hs
    obtain ⟨block, hblock, hs⟩ := bind_eq_ok_iff.mp hs
    obtain ⟨below, hbelow, hs⟩ := bind_eq_ok_iff.mp hs
    cases hs
    exact (compileIn_led hblock).append (ih hbelow)

/-- What is compiled begins with a group. -/
theorem compile_led {statements : List Statement} (hs : f.compile h = .ok statements) : Led statements := by
  rw [compile] at hs
  obtain ⟨blocks, hblocks, hs⟩ := bind_eq_ok_iff.mp hs
  cases hs
  exact mapM_compileNode_led hblocks

end Forest

/-! ### A run on a used engine beside the run on a new one -/

/-- The results of the first engine are those of the second, after `earlier` ones. -/
def Extended (earlier : List TestResult) (x x' : Engine) : Prop :=
  ∃ y y' : SyncEngine, x = .sync y ∧ x' = .sync y' ∧ y.results = earlier ++ y'.results

theorem Resumed.extended {earlier : List TestResult} {x x' : Engine} (h : Resumed earlier x x') :
    Extended earlier x x' := by
  obtain ⟨y, rfl, rfl⟩ := h
  exact ⟨_, y, rfl, rfl, rfl⟩

namespace Shifted

variable {s t t' : Session} {e n : EngineId} {x : SyncEngine}

/-- The second engine is new. -/
theorem start (hx : s.engines[e]? = some (.sync x))
    (hr : ∀ a, s.running = some a → a < s.engines.size ∧ a ≠ e) :
    Shifted e s.engines.size (fun y y' => y = .sync x ∧ y' = .sync {}) False s (s.adding .sync) where
  same := ⟨(Session.Matches.refl s False.elim).memory, rfl, rfl⟩
  size := Array.size_push _
  known := Nat.le_refl _
  running := by
    cases hrunning : s.running with
    | none => exact .inl ⟨rfl, hrunning⟩
    | some a =>
      obtain ⟨hlt, hne⟩ := hr a hrunning
      exact .inr ⟨a, a, rfl, hrunning, .inl ⟨hne, (if_pos hlt).symm⟩⟩
  others a _ := by
    unfold shift Session.adding
    split
    · rename_i hlt
      rw [Array.getElem?_push_lt hlt, Array.getElem?_eq_getElem hlt]
    · rw [Array.getElem?_eq_none (by omega), Array.getElem?_eq_none (by simp; omega)]
  pair := ⟨_, _, hx, Array.getElem?_push_size, rfl, rfl⟩

/-- The first statement makes the engines the same but for their results, and nothing undoes that. -/
theorem performAll_extends (hx : x.Rested) {title : Value}
    (h : Shifted e n (fun y y' => y = .sync { x with title } ∧ y' = .sync { title }) True t t') (depth : Nat)
    {statements : List Statement} (hled : Led statements) :
    AlikeAt (Shifted e n (Extended x.results) True) (performAll (callWithin none depth) e statements)
      (performAll (callWithin none depth) n statements) t t' := by
  cases statements with
  | nil =>
    refine ⟨rfl, h.mono ?_⟩
    rintro _ _ ⟨rfl, rfl⟩
    exact ⟨_, _, rfl, rfl, (List.append_nil _).symm⟩
  | cons first rest =>
    cases first with
    | test => exact hled.elim
    | group name befores afters =>
      obtain ⟨_, _, hy, hy', rfl, rfl⟩ := h.pair
      have hdeclare : ∀ {a : EngineId} {u : Session} {y : SyncEngine}, u.engines[a]? = some (.sync y) →
          perform (callWithin none depth) a (.group name befores afters) u = (.ok (), u.withEngine a
            (.sync { y with group := .text name, setup := .rolled befores, teardown := .rolled afters })) :=
        fun hy => engine_bind hy _
      have hcalls := (accord (e := e) (n := n) x.results fun _ : True => rfl).callWithin_alike depth ()
      unfold AlikeAt
      rw [performAll, performAll, bind_ok (hdeclare hy), bind_ok (hdeclare hy')]
      refine (performAll_alike hcalls rest _ _ (h.withPair ⟨_, ?_, rfl⟩)).imp id fun h => h.mono fun _ _ => ?_
      · simp [SyncEngine.after, hx.ledgers, hx.recording, hx.paused]
      · exact Resumed.extended

/-- The runs end alike, and the second engine has the results that the first has besides the earlier
ones. -/
theorem run_extends (hx : s.engines[e]? = some (.sync x)) (hrested : x.Rested)
    (hr : ∀ a, s.running = some a → a < s.engines.size ∧ a ≠ e) (depth : Nat) (title : Value)
    {fn : BuilderFunction} (hfn : fn.Programmed) :
    AlikeAt (Shifted e s.engines.size (Extended x.results) False)
      (runSpecification (callWithin none depth) title fn e)
      (runSpecification (callWithin none depth) title fn s.engines.size) s (s.adding .sync) := by
  have hx' : (s.adding .sync).engines[s.engines.size]? = some (.sync {}) := Array.getElem?_push_size
  have htitle := setTitle_titled hx title
  have htitle' := setTitle_titled hx' title
  have htitled := (start hx hr).withPair (Q := fun y y' => y = .sync { x with title } ∧ y' = .sync { title })
    ⟨rfl, rfl⟩
  have hextended : ∀ y y', y = .sync { x with title } ∧ y' = .sync { title } → Extended x.results y y' := by
    rintro _ _ ⟨rfl, rfl⟩
    exact ⟨_, _, rfl, rfl, (List.append_nil _).symm⟩
  obtain ⟨hresult, hbuilt⟩ :=
    hfn.build_alike (A := accord [] False.elim) (w := ()) ⟨id, Nat.zero_le⟩ _ _ htitled
  rcases hbuild : buildForest fn (s.withEngine e (.sync { x with title })) with ⟨r, u⟩
  rcases hbuild' : buildForest fn ((s.adding .sync).withEngine s.engines.size (.sync { title })) with ⟨r', u'⟩
  rw [hbuild, hbuild'] at hresult hbuilt
  obtain rfl : r = r' := hresult
  unfold AlikeAt
  cases r with
  | error f =>
    rw [runSpecification_unbuilt htitle hbuild, runSpecification_unbuilt htitle' hbuild']
    exact ⟨rfl, hbuilt.mono hextended⟩
  | ok b =>
    have hforest : (u.build b).forest.compile u.heap = (u'.build b).forest.compile u'.heap := by
      rw [hbuilt.same.heap, Session.build, Session.build, hbuilt.same.builds]
    cases hcompile : (u.build b).forest.compile u.heap with
    | error f =>
      rw [runSpecification_uncompiled htitle hbuild hcompile,
        runSpecification_uncompiled htitle' hbuild' (hforest.symm.trans hcompile)]
      exact ⟨rfl, hbuilt.mono hextended⟩
    | ok statements =>
      rw [runSpecification_performs _ htitle hbuild hcompile,
        runSpecification_performs _ htitle' hbuild' (hforest.symm.trans hcompile)]
      have hin : Shifted e s.engines.size _ True (u.withRunning (some e))
          (u'.withRunning (some s.engines.size)) :=
        hbuilt.withRunning (.inr ⟨e, s.engines.size, rfl, rfl, .inr ⟨trivial, rfl, rfl⟩⟩)
      obtain ⟨hended, hperformed⟩ := performAll_extends hrested hin depth (Forest.compile_led hcompile)
      exact ⟨hended, hperformed.withRunning hbuilt.running⟩

end Shifted

/-! ### After any history -/

/-- The session after the engine `e` was made, runs on it began and ended, each in some way, and
anything else happened that is no run on it. -/
inductive Used (e : EngineId) : Session → Prop
  | made {s : Session} : s.engines.size = e → (∀ a, s.running = some a → a < s.engines.size) →
      Used e (s.adding .sync)
  | ran {s : Session} {fn : BuilderFunction} (depth : Nat) (title : Value) : Used e s → fn.Programmed →
      Used e (runSpecification (callWithin none depth) title fn e s).2
  | elsewhere {s t : Session} : Used e s → t.engines[e]? = s.engines[e]? →
      (∀ a, t.running = some a → a < t.engines.size ∧ a ≠ e) → Used e t

namespace Used

variable {e : EngineId} {s : Session}

theorem rests (h : Used e s) :
    s.Rests e ∧ ∀ a, s.running = some a → a < s.engines.size ∧ a ≠ e := by
  induction h with
  | @made s he hr =>
    subst he
    refine ⟨⟨{}, Array.getElem?_push_size, rfl, rfl, rfl⟩, fun a ha => ?_⟩
    have hlt := hr a ha
    have hsize : (s.adding .sync).engines.size = s.engines.size + 1 := Array.size_push _
    exact ⟨hsize ▸ Nat.lt_succ_of_lt hlt, Nat.ne_of_lt hlt⟩
  | @ran s fn depth title _ hfn ih =>
    obtain ⟨hrests, hr⟩ := ih
    refine ⟨hrests.run (fun he => (hr e he).2 rfl) depth title hfn, fun a ha => ?_⟩
    obtain ⟨x, hx, hrested⟩ := hrests
    have hrestored := congrArg Surroundings.running (Amid.run s depth hfn title e).restored
    have hsize := (Shifted.run_extends hx hrested hr depth title hfn).2.known
    obtain ⟨hlt, hne⟩ := hr a (hrestored.symm.trans ha)
    exact ⟨Nat.lt_of_lt_of_le hlt hsize, hne⟩
  | elsewhere _ he hr ih =>
    obtain ⟨⟨x, hx, hrested⟩, -⟩ := ih
    exact ⟨⟨x, he.trans hx, hrested⟩, hr⟩

end Used

/-- On an engine that was used for any runs, however they ended, a run ends as it would on a new
engine: with the same outcome and in a session that no program can tell apart. The results of the
new engine are appended to the earlier ones, and the engine is at rest again. -/
theorem reused_as_fresh {e : EngineId} {s : Session} (h : Used e s) {fn : BuilderFunction}
    (hfn : fn.Programmed) (depth : Nat) (title : Value) :
    let reused := runSpecification (callWithin none depth) title fn e s
    let fresh := runSpecification (callWithin none depth) title fn s.engines.size (s.adding .sync)
    reused.1 = fresh.1 ∧ reused.2.Matches False fresh.2 ∧
      ∃ x y y', s.engines[e]? = some (.sync x) ∧ reused.2.engines[e]? = some (.sync y) ∧
        fresh.2.engines[s.engines.size]? = some (.sync y') ∧ y.results = x.results ++ y'.results ∧
        y.Rested := by
  intro reused fresh
  obtain ⟨hrests, hr⟩ := h.rests
  obtain ⟨y, hy, hyrested⟩ := hrests.run (fun he => (hr e he).2 rfl) depth title hfn
  obtain ⟨x, hx, hrested⟩ := hrests
  obtain ⟨hended, hshifted⟩ := Shifted.run_extends hx hrested hr depth title hfn
  obtain ⟨_, _, hz, hy', z, y', rfl, rfl, hresults⟩ := hshifted.pair
  obtain rfl : y = z := Engine.sync.inj (Option.some.inj (hy.symm.trans hz))
  exact ⟨hended, hshifted.same, x, y, y', hx, hy, hy', hresults, hyrested⟩

/-- One group with a spec for each body. -/
def BuilderFunction.specifying (bodies : List (List Step)) : BuilderFunction where
  style := .param
  saveAs := none
  module := 0
  body f := Step.runAll none (callWithin none 3) f
    [.describe none (.text "a")
      (.script none (bodies.map fun steps => .it none (.text "b") (.script none steps) false)) false]

theorem BuilderFunction.specifying_programmed (bodies : List (List Step)) : (specifying bodies).Programmed :=
  .script .param none 0 3 id _

/-- A run whose second spec is interrupted in a wait. -/
def Session.cutOff : Session :=
  (runSpecification (callWithin none 3) (.text "t")
    (.specifying [[.report (.bool true) none],
      [.wait none (.int 1) (.script none [.report (.bool true) none, .raise .keyboardInterrupt []])]])
    0 (Session.adding {} .sync)).2

/-- The result of the first spec, and the group, are still there. -/
theorem Session.cutOff_engine : cutOff.engines[0]? =
    some (.sync ⟨.text "t", [⟨"a", "b", [⟨true, none⟩], none⟩], .text "a", .rolled [.noop], .rolled [.noop],
      [], false, false⟩) := by decide +kernel

theorem Session.cutOff_size : cutOff.engines.size = 1 := by decide +kernel

theorem reused_as_fresh_cutOff :
    let fn := BuilderFunction.specifying [[.report (.bool false) none]]
    let reused := runSpecification (callWithin none 3) (.text "u") fn 0 Session.cutOff
    let fresh := runSpecification (callWithin none 3) (.text "u") fn 1 (Session.cutOff.adding .sync)
    Used 0 Session.cutOff ∧ reused.1 = fresh.1 ∧
      ∃ y y', reused.2.engines[0]? = some (.sync y) ∧ fresh.2.engines[1]? = some (.sync y') ∧
        y.results = ⟨"a", "b", [⟨true, none⟩], none⟩ :: y'.results ∧ y.Rested := by
  have hused : Used 0 Session.cutOff :=
    (Used.made (s := {}) rfl nofun).ran 3 (.text "t") (BuilderFunction.specifying_programmed _)
  have hengine := Session.cutOff_engine
  have hsize := Session.cutOff_size
  generalize Session.cutOff = s at hused hengine hsize ⊢
  obtain ⟨hended, -, x, y, y', hx, hy, hy', hresults, hrested⟩ :=
    reused_as_fresh hused (BuilderFunction.specifying_programmed [[.report (.bool false) none]]) 3 (.text "u")
  rw [hsize] at hended hy'
  obtain rfl := Engine.sync.inj (Option.some.inj (hengine.symm.trans hx))
  exact ⟨hused, hended, y, y', hy, hy', hresults, hrested⟩

end Exemplar
