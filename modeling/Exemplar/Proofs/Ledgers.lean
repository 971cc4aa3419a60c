import Exemplar.Proofs.Surroundings
import Exemplar.Proofs.Together
import Exemplar.Proofs.Verbs

/-! The reports of a test only grow.

A test runs on an engine from its beginning to its end, and meanwhile the engine keeps what it was
told. On a synchronous engine further tests may begin and end in between, each with reports of its
own, so what was told to the innermost test is read off the course of the engine
(`Course.ledgers`). An item engine runs no tests but its own and has only the one list
(`Told.accord`). Either way a call leaves the reports that there were, and adds those that were made
in the meantime (`Session.Hears.call`). -/
namespace Exemplar

open Act

/-- Whether a test runs on the engine. -/
def Engine.Testing : Engine → Prop
  | .sync x => x.ledgers ≠ []
  | .item _ => True
  | .collecting _ | .recording => False

/-! ### Items -/

/-- The engine `e` runs an item and was told the reports, and perhaps more after them. -/
def Told (e : EngineId) (reports : List Report) (s : Session) : Prop :=
  ∃ y, s.engines[e]? = some (.item y) ∧ reports <+: y.reports

/-- The same session on both sides, in which the item engine was told the reports. -/
def BothTold (e : EngineId) (reports : List Report) (s s' : Session) : Prop := s = s' ∧ Told e reports s

namespace Told

variable {e : EngineId} {reports : List Report} {s t : Session}

theorem lt (h : Told e reports s) : e < s.engines.size := by
  obtain ⟨y, hy, -⟩ := h
  exact Session.lt_of_engine hy

/-- Other engines do not matter. -/
theorem moved (h : Told e reports s) (ht : t.engines[e]? = s.engines[e]?) : Told e reports t := by
  obtain ⟨y, hy, hreports⟩ := h
  exact ⟨y, ht.trans hy, hreports⟩

theorem withItem (h : Told e reports s) {y : ItemEngine} (hy : reports <+: y.reports) :
    Told e reports (s.withEngine e (.item y)) := ⟨y, Session.getElem?_withEngine h.lt _, hy⟩

end Told

namespace BothTold

variable {e : EngineId} {reports : List Report} {s s' t t' : Session} {α : Type}

theorem moved (h : BothTold e reports s s') (htt : t = t') (ht : t.engines[e]? = s.engines[e]?) :
    BothTold e reports t t' := ⟨htt, h.2.moved ht⟩

/-- It is enough to look at one side. -/
theorem keeps {a : Act α} (h : ∀ s y, s.engines[e]? = some (.item y) → reports <+: y.reports →
    Told e reports (a s).2) : Alike (BothTold e reports) a a := by
  rintro s _ ⟨rfl, y, hy, hreports⟩
  exact ⟨rfl, rfl, h s y hy hreports⟩

/-- What an item engine refuses changes nothing. -/
theorem refused {a a' : Act α} {f : Failure}
    (h : ∀ {s : Session} {y}, s.engines[e]? = some (.item y) → a s = (.error f, s) ∧ a' s = (.error f, s)) :
    Alike (BothTold e reports) a a' := by
  refine .refused (f := f) fun s s' hs => ?_
  obtain ⟨rfl, y, hy, -⟩ := hs
  exact h hy

theorem report_alike (passed : Bool) (message : Value) :
    Alike (BothTold e reports) (reportTo e passed message) (reportTo e passed message) := by
  refine keeps fun s y hy hreports => ?_
  rw [show reportTo e passed message s = _ from engine_bind hy _]
  dsimp only
  rcases hmake : makeReport passed message s with ⟨f | r, t⟩ <;>
    have ht := congrArg (·[e]?) ((makeReport_quiet passed message).engines_eq hmake)
  · rw [bind_error hmake]
    exact ⟨y, ht.trans hy, hreports⟩
  · rw [bind_ok hmake]
    exact Told.withItem ⟨y, ht.trans hy, hreports⟩ (hreports.trans (List.prefix_append ..))

theorem pause_alike : Alike (BothTold e reports) (pause e) (pause e) := by
  refine keeps fun s y hy hreports => ?_
  have htold : Told e reports s := ⟨y, hy, hreports⟩
  rw [show pause e s = _ from engine_bind hy _]
  dsimp only
  split
  · exact htold
  · exact htold.withItem hreports

theorem resume_alike : Alike (BothTold e reports) (resume e) (resume e) := by
  refine keeps fun s y hy hreports => ?_
  have htold : Told e reports s := ⟨y, hy, hreports⟩
  rw [show resume e s = _ from engine_bind hy _]
  exact htold.withItem hreports

end BothTold

namespace Told

/-- What does nothing with engines leaves the reports. -/
def building (e : EngineId) (reports : List Report) : BuildAccord where
  World := Unit
  rel _ := BothTold e reports
  same h := h.1 ▸ .refl _ False.elim
  memory h _ _ := h.moved (by rw [h.1]) rfl
  scoping h _ := h.moved (by rw [h.1]) rfl
  group name h _ :=
    ⟨(), h.moved (by rw [h.1]) rfl, trivial, fun u u' hu => hu.moved (by rw [hu.1, h.1]) rfl⟩
  declare h _ _ _ := h.moved (by rw [h.1]) rfl
  build h := ⟨(), h.moved (by rw [h.1]) rfl, trivial, fun u u' hu => hu.moved (by rw [hu.1, h.1]) rfl⟩

/-- Programs take no report back from an item engine: an accord of a run with itself. -/
def accord (e : EngineId) (reports : List Report) : Accord none none where
  toBuildAccord := building e reports
  twin _ a b := a = b ∧ a ≠ e
  odd _ a b := a = e ∧ b = e
  thread h := ⟨(), h.moved (by rw [h.1]) rfl, trivial, fun u u' hu => hu.moved (by rw [hu.1, h.1]) rfl⟩
  current {w s s'} h := by
    obtain ⟨rfl, -⟩ := h
    cases ha : s.running with
    | none => exact .inl ⟨rfl, rfl⟩
    | some a =>
      refine .inr ⟨a, a, rfl, rfl, ?_⟩
      by_cases hae : a = e
      · exact .inr ⟨hae, hae⟩
      · exact .inl ⟨rfl, hae⟩
  run {w s s' a b} h ht := by
    obtain ⟨rfl, hne⟩ := ht
    exact ⟨(), h.moved (by rw [h.1]) rfl, ⟨rfl, hne⟩, fun u u' hu => hu.moved (by rw [hu.1, h.1]) rfl⟩
  fresh {w s s'} kind h := by
    obtain ⟨rfl, hs⟩ := h
    have hne : s.engines.size ≠ e := Nat.ne_of_gt hs.lt
    refine ⟨(), ⟨rfl, hs.moved ?_⟩, ⟨rfl, hne⟩, fun u u' hu => hu⟩
    rw [Session.adding, Array.getElem?_push, if_neg hne.symm]
  content h ht := by rw [h.1, ht.1]
  setting y h ht := by
    obtain ⟨rfl, hne⟩ := ht
    exact h.moved (by rw [h.1]) (Session.getElem?_withEngine_ne hne y)
  free _ := ⟨nofun, nofun⟩
  report passed message ho := by
    obtain ⟨rfl, rfl⟩ := ho
    exact BothTold.report_alike passed message
  pause ho := by
    obtain ⟨rfl, rfl⟩ := ho
    exact BothTold.pause_alike
  resume ho := by
    obtain ⟨rfl, rfl⟩ := ho
    exact BothTold.resume_alike
  wait ms body ho hc := by
    obtain ⟨rfl, rfl⟩ := ho
    exact waitOn_alike (building _ _).same (building _ _).memory (hc ()) BothTold.pause_alike
      BothTold.resume_alike ms body
  setTitle title ho := by
    obtain ⟨rfl, rfl⟩ := ho
    exact BothTold.refused fun hy => ⟨engine_bind hy _, engine_bind hy _⟩
  declareGroup name setup teardown ho := by
    obtain ⟨rfl, rfl⟩ := ho
    exact BothTold.refused fun hy => ⟨engine_bind hy _, engine_bind hy _⟩
  runTest description body ho _ := by
    obtain ⟨rfl, rfl⟩ := ho
    exact BothTold.refused fun hy => ⟨engine_bind hy _, engine_bind hy _⟩
  specify name ho _ _ := by
    obtain ⟨rfl, rfl⟩ := ho
    exact BothTold.refused fun hy =>
      ⟨bind_error (bind_error (engine_bind hy _)), bind_error (bind_error (engine_bind hy _))⟩

end Told

/-! ### Calls in a test -/

/-- A test runs on the engine `e`, has made the reports and gets those that are made now. -/
structure Session.Hears (e : EngineId) (reports : List Report) (s : Session) : Prop where
  running : s.running = some e
  engine : ∃ x, s.engines[e]? = some x ∧ x.Testing ∧ x.reports = reports

namespace Session.Hears

variable {e : EngineId} {reports : List Report} {s : Session}

/-- A test begins on a synchronous engine. -/
theorem begun {x : SyncEngine} (hx : s.engines[e]? = some (.sync x)) (hr : s.running = some e) :
    (s.begun e).Hears e [] :=
  ⟨hr, _, Session.begun_engine hx, List.cons_ne_nil _ _, rfl⟩

/-- An item begins, on an engine of its own. -/
theorem item (s : Session) :
    ((s.adding .item).withRunning (some s.engines.size)).Hears s.engines.size [] :=
  ⟨rfl, _, Array.getElem?_push_size .., trivial, rfl⟩

/-- In a test, a call adds the reports that are made in it. -/
theorem call (h : s.Hears e reports) (depth : Nat) (v : Value) (args : List Value)
    (named : List (String × Value)) :
    ∃ made, (callWithin none depth v args named s).2.Hears e (reports ++ made) := by
  have hrunning : (callWithin none depth v args named s).2.running = some e := by
    have hamid := ((Amid.accord s).callWithin_alike depth [] v args named s s ⟨rfl, .start⟩).2.2
    exact (congrArg Surroundings.running hamid.restored).trans h.running
  obtain ⟨x, hx, htesting, hreports⟩ := h.engine
  cases x with
  | sync x =>
    obtain ⟨ledger, outer, hledgers⟩ := List.exists_cons_of_ne_nil htesting
    obtain ⟨log, y, hy, hcourse⟩ := OnCourse.call hx depth v args named
    have hgrown := hcourse.ledgers hledgers
    have hx : ledger = reports := by rw [← hreports, Engine.reports, SyncEngine.reports, hledgers]; rfl
    refine ⟨recorded log, hrunning, _, hy, by rw [Engine.Testing, hgrown]; exact List.cons_ne_nil _ _, ?_⟩
    rw [Engine.reports, SyncEngine.reports, hgrown, hx]
    rfl
  | item x =>
    have htold : Told e x.reports s := ⟨x, hx, List.prefix_refl _⟩
    obtain ⟨-, -, y, hy, made, hmade⟩ :=
      (Told.accord e x.reports).callWithin_alike depth () v args named s s ⟨rfl, htold⟩
    exact ⟨made, hrunning, _, hy, trivial, by rw [← hreports]; exact hmade.symm⟩
  | collecting | recording => exact htesting.elim

end Session.Hears

end Exemplar
