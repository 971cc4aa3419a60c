import Exemplar.Proofs.Accord

/-! The course of a test on a synchronous engine.

What happens on the engine while a test runs is a list of `Happening`s: titles, groups, reports
and waits, and further tests on the same engine, each with its own happenings. A `Course` leads
from the engine at the beginning over what happened to the engine at the end. The engine keeps the
group that is active, and whether it records, in single places, so a test leaves its traces there:

* reports are recorded until the first further test has ended, and none after it
  (`Course.ledgers`, `Course.taken`);
* the active group is the one that was declared last, in whichever test (`Course.active`). -/
namespace Exemplar

/-- Something that happens on an engine while a test runs. -/
inductive Happening
  | titled (title : Value)
  | declared (group : Value) (setup teardown : Hook)
  | reported (r : Report)
  /-- A report that was refused. -/
  | refused (passed : Bool) (message : Value)
  /-- A wait begins or ends. -/
  | waiting (paused : Bool)
  /-- A test of its own, and the result that it left. -/
  | tested (inner : List Happening) (result : Option TestResult)

namespace Happening

def isTest : Happening → Bool
  | tested .. => true
  | _ => false

def report? : Happening → Option Report
  | reported r => some r
  | _ => none

end Happening

/-- The reports that were recorded. Those of further tests are not among them. -/
def recorded (log : List Happening) : List Report := log.filterMap (·.report?)

/-- A group with its hooks, as an engine keeps the active one. -/
abbrev ActiveGroup := Value × Hook × Hook

mutual

def Happening.lastGroup : Happening → Option ActiveGroup
  | .declared group setup teardown => some (group, setup, teardown)
  | .tested inner _ => lastGroup inner
  | _ => none

/-- The group that was declared last, if any was. It may have been declared in a further test. -/
def lastGroup : List Happening → Option ActiveGroup
  | [] => none
  | t :: rest => (lastGroup rest).or t.lastGroup

end

/-- A report is recorded exactly if no further test has ended before it. -/
def Taken (log : List Happening) : Prop :=
  ∀ before t after, log = before ++ t :: after →
    (∀ r, t = .reported r → ∀ u ∈ before, u.isTest = false) ∧
    ∀ passed message, t = .refused passed message → ∃ u ∈ before, u.isTest = true

namespace SyncEngine

def active (x : SyncEngine) : ActiveGroup := (x.group, x.setup, x.teardown)

/-- The result that a test leaves which ends on `x`. -/
def Leaves (x : SyncEngine) (r : TestResult) : Prop :=
  (∃ h, Schema.text h x.group = .ok r.group) ∧ r.reports = x.reports

/-- The test ends, with a result or without. -/
def close (x : SyncEngine) (result : Option TestResult) : SyncEngine :=
  { x.finish with results := x.results ++ result.toList }

end SyncEngine

/-- What happened leads from one engine to the other. -/
inductive Course : SyncEngine → List Happening → SyncEngine → Prop
  | start {x} : Course x [] x
  | titled {x log y} (title : Value) : Course x log y → Course x (log ++ [.titled title]) { y with title }
  | declared {x log y} (group : Value) (setup teardown : Hook) : Course x log y →
      Course x (log ++ [.declared group setup teardown]) { y with group, setup, teardown }
  | reported {x log y} (r : Report) : Course x log y → y.recording = true →
      Course x (log ++ [.reported r]) (y.addReport r)
  | refused {x log y} (passed : Bool) (message : Value) : Course x log y → y.recording = false →
      Course x (log ++ [.refused passed message]) y
  | waiting {x log y} (paused : Bool) : Course x log y → Course x (log ++ [.waiting paused]) { y with paused }
  | tested {x log y inner z} (result : Option TestResult) : Course x log y → Course y.begin inner z →
      (∀ r, result = some r → z.Leaves r) → Course x (log ++ [.tested inner result]) (z.close result)

theorem lastGroup_append (log log' : List Happening) :
    lastGroup (log ++ log') = (lastGroup log').or (lastGroup log) := by
  induction log with
  | nil => simp [lastGroup]
  | cons t rest ih => rw [List.cons_append, lastGroup, lastGroup, ih, Option.or_assoc]

theorem lastGroup_concat (log : List Happening) (t : Happening) :
    lastGroup (log ++ [t]) = t.lastGroup.or (lastGroup log) := by
  rw [lastGroup_append]
  simp [lastGroup]

theorem Taken.concat {log : List Happening} {t : Happening} (h : Taken log)
    (hreported : ∀ r, t = .reported r → ∀ u ∈ log, u.isTest = false)
    (hrefused : ∀ passed message, t = .refused passed message → ∃ u ∈ log, u.isTest = true) :
    Taken (log ++ [t]) := by
  intro before t' after hlog
  rcases List.eq_nil_or_concat after with rfl | ⟨rest, last, rfl⟩
  · obtain ⟨rfl, hlast⟩ := List.append_inj' hlog rfl
    obtain rfl : t = t' := List.singleton_inj.mp hlast
    exact ⟨hreported, hrefused⟩
  · rw [List.concat_eq_append, ← List.cons_append, ← List.append_assoc] at hlog
    exact h before t' rest (List.append_inj' hlog rfl).1

/-- Nothing is refused in a test without further tests. -/
theorem Taken.all {log : List Happening} (h : Taken log) (htests : ∀ u ∈ log, u.isTest = false)
    (passed : Bool) (message : Value) : .refused passed message ∉ log := by
  intro hmem
  obtain ⟨before, after, hlog⟩ := List.append_of_mem hmem
  obtain ⟨u, hu, htest⟩ := (h before _ after hlog).2 passed message rfl
  have hnone := htests u (hlog ▸ List.mem_append_left _ hu)
  rw [htest] at hnone
  cases hnone

namespace Course

variable {x y z : SyncEngine} {log log' : List Happening}

theorem trans (h : Course x log y) (h' : Course y log' z) : Course x (log ++ log') z := by
  induction h' with
  | start => rwa [List.append_nil]
  | titled title _ ih =>
    rw [← List.append_assoc]
    exact .titled title (ih h)
  | declared group setup teardown _ ih =>
    rw [← List.append_assoc]
    exact .declared group setup teardown (ih h)
  | reported r _ hrecording ih =>
    rw [← List.append_assoc]
    exact .reported r (ih h) hrecording
  | refused passed message _ hrecording ih =>
    rw [← List.append_assoc]
    exact .refused passed message (ih h) hrecording
  | waiting paused _ ih =>
    rw [← List.append_assoc]
    exact .waiting paused (ih h)
  | tested result _ hinner hleaves ih =>
    rw [← List.append_assoc]
    exact .tested result (ih h) hinner hleaves

/-- The innermost ledger grows by what was recorded, and the ledgers around it stay. -/
theorem ledgers (h : Course x log y) {ledger : List Report} {outer : List (List Report)}
    (hx : x.ledgers = ledger :: outer) : y.ledgers = (ledger ++ recorded log) :: outer := by
  induction h generalizing ledger outer with
  | start => simp [hx, recorded]
  | titled title _ ih | declared group setup teardown _ ih | waiting paused _ ih | refused _ _ _ _ ih =>
    simp [ih hx, recorded, Happening.report?]
  | reported r _ _ ih => simp [SyncEngine.addReport, ih hx, recorded, Happening.report?]
  | @tested x log y inner z result _ _ _ ih ihinner =>
    have hz : z.ledgers = ([] ++ recorded inner) :: y.ledgers := ihinner rfl
    simp [SyncEngine.close, SyncEngine.finish, hz, ih hx, recorded, Happening.report?]

/-- The engine records until a further test has ended. -/
theorem recording (h : Course x log y) (hx : x.recording = true) :
    y.recording = true ↔ ∀ u ∈ log, u.isTest = false := by
  induction h with
  | start => simp [hx]
  | titled title _ ih | declared group setup teardown _ ih | waiting paused _ ih | refused _ _ _ _ ih =>
    simp [or_imp, forall_and, ih hx, Happening.isTest]
  | @reported x log y r _ _ ih =>
    have hsame : (y.addReport r).recording = y.recording := by
      unfold SyncEngine.addReport
      split <;> rfl
    simp [or_imp, forall_and, hsame, ih hx, Happening.isTest]
  | tested result _ _ _ _ _ =>
    simp [SyncEngine.close, SyncEngine.finish, or_imp, forall_and, Happening.isTest]

/-- An engine that does not record goes on so. -/
theorem deaf (h : Course x log y) (hx : x.recording = false) :
    y.recording = false ∧ y.ledgers = x.ledgers := by
  induction h with
  | start => exact ⟨hx, rfl⟩
  | titled title _ ih | declared group setup teardown _ ih | waiting paused _ ih | refused _ _ _ _ ih =>
    exact ih hx
  | reported r _ hrecording ih =>
    rw [(ih hx).1] at hrecording
    cases hrecording
  | @tested x log y inner z result _ hinner _ ih _ =>
    have hz : z.ledgers = ([] ++ recorded inner) :: y.ledgers := hinner.ledgers rfl
    refine ⟨rfl, ?_⟩
    simp [SyncEngine.close, SyncEngine.finish, hz, (ih hx).2]

theorem taken (h : Course x log y) (hx : x.recording = true) : Taken log := by
  induction h with
  | start => exact fun before t after hlog => absurd hlog.symm (by simp)
  | reported r hcourse hrecording ih =>
    exact (ih hx).concat (fun _ _ => (hcourse.recording hx).mp hrecording) nofun
  | @refused x log y passed message hcourse hrecording ih =>
    refine (ih hx).concat nofun fun _ _ _ => ?_
    have htests : ¬ ∀ u ∈ log, u.isTest = false := fun htests => by
      rw [(hcourse.recording hx).mpr htests] at hrecording
      cases hrecording
    simpa using htests
  | titled _ _ ih | declared _ _ _ _ ih | waiting _ _ ih | tested _ _ _ _ ih =>
    exact (ih hx).concat nofun nofun

/-- The group that is active is the one that was declared last. -/
theorem active (h : Course x log y) : y.active = (lastGroup log).getD x.active := by
  induction h with
  | start => rfl
  | titled title _ ih | waiting paused _ ih | refused _ _ _ _ ih =>
    rw [lastGroup_concat]
    exact ih
  | declared group setup teardown _ ih => simp [lastGroup_concat, Happening.lastGroup, SyncEngine.active]
  | @reported x log y r _ _ ih =>
    have hsame : (y.addReport r).active = y.active := by
      unfold SyncEngine.addReport
      split <;> rfl
    simpa [lastGroup_concat, Happening.lastGroup, hsame] using ih
  | @tested x log y inner z result _ _ _ ih ihinner =>
    have hclose : (z.close result).active = z.active := rfl
    have hbegin : y.begin.active = y.active := rfl
    rw [hclose, ihinner, hbegin, ih, lastGroup_concat, Happening.lastGroup]
    cases lastGroup inner <;> rfl

end Course

end Exemplar
