import Exemplar.Proofs.Compilation

/-! Trials: what a run of specs calls, told without an engine that drives it.

The hooks before a spec are called from the outermost group in, up to the first that fails. If
all complete, the body is called, and then, however it ended, the hooks after it from the spec's
group out (`Case.calls`). A synchronous run tries one case after the other and keeps a result of
each (`conduct`). -/
namespace Exemplar

open Act

/-- How calls went: what was called and from where, and how the last one ended. -/
structure Called where
  calls : List (Value × Session) := []
  outcome : Except Failure Unit := .ok ()
  session : Session

namespace Called

def one (call : Call) (v : Value) (s : Session) : Called where
  calls := [(v, s)]
  outcome := (call v [] [] s).1.map fun _ => ()
  session := (call v [] [] s).2

/-- Further calls, if these completed. -/
def andThen (a : Called) (next : Session → Called) : Called :=
  match a.outcome with
  | .ok () => { next a.session with calls := a.calls ++ (next a.session).calls }
  | .error _ => a

theorem andThen_ok {a : Called} (h : a.outcome = .ok ()) (next : Session → Called) :
    a.andThen next = { next a.session with calls := a.calls ++ (next a.session).calls } := by
  rw [andThen, h]

theorem andThen_error {a : Called} {f : Failure} (h : a.outcome = .error f) (next : Session → Called) :
    a.andThen next = a := by
  rw [andThen, h]

/-- Further calls, however these ended. If both fail, the later failure counts. -/
def ensuring (a : Called) (next : Session → Called) : Called where
  calls := a.calls ++ (next a.session).calls
  outcome := match (next a.session).outcome with
    | .ok () => a.outcome
    | .error f => .error f
  session := (next a.session).session

/-- One after the other, up to the first that fails. -/
def each (call : Call) : List Value → Session → Called
  | [], s => { session := s }
  | v :: rest, s => (one call v s).andThen (each call rest)

/-- The calls of a hook. -/
def hook (call : Call) : Hook → Session → Called
  | .procedure v => one call v
  | .rolled hooks => each call hooks

/-- The setup, the body and, whenever the setup completed, the teardown. -/
def wrapped (call : Call) (setup : Hook) (body : Value) (teardown : Hook) (s : Session) : Called :=
  (hook call setup s).andThen fun s => (one call body s).ensuring (hook call teardown)

end Called

/-- A spec, and what leads to it. -/
structure Case where
  path : Path
  spec : Spec

/-- What is called for a case. -/
def Case.calls (call : Call) (c : Case) (s : Session) : Called :=
  (Called.each call c.path.befores s).andThen fun s =>
    (Called.one call c.spec.body s).ensuring (Called.each call c.path.afters)

theorem Case.calls_eq (call : Call) (c : Case) :
    c.calls call = Called.wrapped call (.rolled c.path.befores) c.spec.body (.rolled c.path.afters) := rfl

/-- The specs of a forest: groups in the order of the walk down, the specs of each in order. -/
def Forest.cases (h : Heap) (f : Forest) : List Case :=
  f.preorder.flatMap fun n => (f.specs n).map (⟨f.pathTo h n, ·⟩)

/-! ### The engine between the calls -/

namespace Session

/-- The synchronous engine that is found under a number. -/
def sync (s : Session) (e : EngineId) : SyncEngine :=
  match s.engines.getD e .recording with
  | .sync x => x
  | _ => {}

def withSync (s : Session) (e : EngineId) (x : SyncEngine) : Session := s.withEngine e (.sync x)

/-- There is a new synchronous engine, which knows its title. -/
def titled (s : Session) (title : Value) : Session := { s with engines := s.engines.push (.sync { title }) }

/-- The group at the end of a path is active. -/
def grouped (s : Session) (e : EngineId) (p : Path) : Session :=
  s.withSync e { s.sync e with group := .text p.name, setup := .rolled p.befores, teardown := .rolled p.afters }

/-- A test begins. -/
def begun (s : Session) (e : EngineId) : Session := s.withSync e (s.sync e).begin

/-- The test has ended and left these results. -/
def ended (s : Session) (e : EngineId) (results : List TestResult) : Session :=
  s.withSync e { (s.sync e).finish with results := (s.sync e).results ++ results }

end Session

/-- The result of a case whose error is `error`. -/
def Case.result (c : Case) (e : EngineId) (trial : Called) (error : Option String) : TestResult where
  group := c.path.name
  description := c.spec.description
  reports := (trial.session.sync e).reports
  error

/-- How cases were tried one after the other. -/
structure Conducted where
  trials : List Called := []
  results : List TestResult := []
  outcome : Except Failure Unit := .ok ()
  session : Session

/-- Tries the cases in order. Each leaves a result, with the reports that were made from the
first of its calls to the last; but a failure that is no exception or has no expression ends
the run. -/
def conduct (call : Call) (e : EngineId) : List Case → Session → Conducted
  | [], s => { session := s }
  | c :: rest, s =>
    let trial := c.calls call ((s.grouped e c.path).begun e)
    match escaped trial.session.heap trial.outcome with
    | .ok error =>
      let result := c.result e trial error
      let later := conduct call e rest (trial.session.ended e [result])
      { later with trials := trial :: later.trials, results := result :: later.results }
    | .error f =>
      { trials := [trial], outcome := .error f, session := trial.session.ended e [] }

section Conduct

variable {call : Call} {e : EngineId} {c : Case} {rest : List Case} {s : Session}

theorem conduct_ok {error : Option String}
    (h : escaped (c.calls call ((s.grouped e c.path).begun e)).session.heap
      (c.calls call ((s.grouped e c.path).begun e)).outcome = .ok error) :
    let trial := c.calls call ((s.grouped e c.path).begun e)
    let later := conduct call e rest (trial.session.ended e [c.result e trial error])
    conduct call e (c :: rest) s = { later with
      trials := trial :: later.trials, results := c.result e trial error :: later.results } := by
  simp only [conduct, h]

theorem conduct_error {f : Failure}
    (h : escaped (c.calls call ((s.grouped e c.path).begun e)).session.heap
      (c.calls call ((s.grouped e c.path).begun e)).outcome = .error f) :
    let trial := c.calls call ((s.grouped e c.path).begun e)
    conduct call e (c :: rest) s =
      { trials := [trial], outcome := .error f, session := trial.session.ended e [] } := by
  simp only [conduct, h]

theorem mem_trials_self :
    c.calls call ((s.grouped e c.path).begun e) ∈ (conduct call e (c :: rest) s).trials := by
  rw [conduct]
  dsimp only
  split <;> exact List.mem_cons_self

/-- A trial that a run survives: it ended well, or with an exception that has an expression. -/
def Called.Survived (a : Called) : Prop := ∃ error, escaped a.session.heap a.outcome = .ok error

/-- Nothing stopped the run: every case left one result of its own, with the reports of its
trial, and with an error exactly if a call of its trial failed. -/
structure Conducted.Complete (e : EngineId) (cases : List Case) (run : Conducted) : Prop where
  outcome : run.outcome = .ok ()
  results : run.results.map (fun r => (r.group, r.description)) =
    cases.map fun c => (c.path.name, c.spec.description)
  trials : List.Forall₂ (fun trial r => r.reports = (trial.session.sync e).reports ∧
    (r.error = none ↔ trial.outcome = .ok ())) run.trials run.results

/-- What becomes of an outcome that a run survives. -/
theorem escaped_eq_ok {h : Heap} {outcome : Except Failure Unit} {error : Option String}
    (he : escaped h outcome = .ok error) :
    outcome = .ok () ∧ error = none ∨
      ∃ f text, outcome = .error f ∧ f.shown h = .ok text ∧ error = some text := by
  cases outcome with
  | ok u =>
    cases he
    exact .inl ⟨rfl, rfl⟩
  | error f =>
    simp only [escaped] at he
    split at he
    · cases he
    · cases hs : f.shown h with
      | error g =>
        rw [hs] at he
        cases he
      | ok text =>
        rw [hs] at he
        cases he
        exact .inr ⟨f, text, rfl, hs, rfl⟩

theorem escaped_none {h : Heap} {outcome : Except Failure Unit} {error : Option String}
    (he : escaped h outcome = .ok error) : error = none ↔ outcome = .ok () := by
  rcases escaped_eq_ok he with ⟨ho, hnone⟩ | ⟨f, text, ho, -, hsome⟩
  · exact iff_of_true hnone ho
  · rw [ho, hsome]
    exact iff_of_false (fun h => by cases h) (fun h => by cases h)

/-- A run is complete exactly if it survives all its trials. -/
theorem conduct_complete (call : Call) (e : EngineId) (cases : List Case) (s : Session) :
    (conduct call e cases s).Complete e cases ↔
      ∀ trial ∈ (conduct call e cases s).trials, trial.Survived := by
  induction cases generalizing s with
  | nil => exact ⟨fun _ _ h => absurd h List.not_mem_nil, fun _ => ⟨rfl, rfl, .nil⟩⟩
  | cons c rest ih =>
    cases he : escaped (c.calls call ((s.grouped e c.path).begun e)).session.heap
        (c.calls call ((s.grouped e c.path).begun e)).outcome with
    | error f =>
      rw [conduct_error he]
      refine ⟨fun h => absurd h.outcome nofun, fun h => ?_⟩
      obtain ⟨error, ho⟩ := h _ List.mem_cons_self
      rw [he] at ho
      cases ho
    | ok error =>
      rw [conduct_ok he]
      refine ⟨fun h trial ht => ?_, fun h => ?_⟩
      · have hlater := (ih _).mp ⟨h.outcome, (List.cons.inj h.results).2, (List.forall₂_cons.mp h.trials).2⟩
        rcases List.mem_cons.mp ht with rfl | ht
        · exact ⟨error, he⟩
        · exact hlater trial ht
      · have hlater := (ih _).mpr fun trial ht => h trial (List.mem_cons_of_mem _ ht)
        exact ⟨hlater.outcome, congrArg ((c.path.name, c.spec.description) :: ·) hlater.results,
          .cons ⟨rfl, escaped_none he⟩ hlater.trials⟩

end Conduct

/-! ### The drivers call as told -/

theorem runHooks_each (call : Call) (hooks : List Value) (s : Session) :
    runHooks call hooks s = ((Called.each call hooks s).outcome, (Called.each call hooks s).session) := by
  induction hooks generalizing s with
  | nil => rfl
  | cons v rest ih =>
    simp only [runHooks, Called.each, Called.andThen, Called.one]
    rcases h : call v [] [] s with ⟨_ | _, t⟩
    · rw [bind_error h]
      rfl
    · rw [bind_ok h, ih]
      rfl

theorem call_one (call : Call) (v : Value) (s : Session) :
    (do let _ ← call v [] [] : Act Unit) s =
      ((Called.one call v s).outcome, (Called.one call v s).session) := by
  simp only [Called.one]
  rcases h : call v [] [] s with ⟨_ | _, t⟩
  · rw [bind_error h]
    rfl
  · rw [bind_ok h]
    rfl

theorem ensuring_calls {a : Act Unit} {cleanup : Act Unit} {s : Session} {A : Called}
    {next : Session → Called} (ha : a s = (A.outcome, A.session))
    (hc : cleanup A.session = ((next A.session).outcome, (next A.session).session)) :
    ensuring a cleanup s = ((A.ensuring next).outcome, (A.ensuring next).session) := by
  rw [ensuring_apply, ha, hc, Called.ensuring]
  cases (next A.session).outcome <;> rfl

theorem runHook_calls (call : Call) (hook : Hook) (s : Session) :
    runHook call hook s = ((Called.hook call hook s).outcome, (Called.hook call hook s).session) := by
  cases hook with
  | procedure v => exact call_one call v s
  | rolled hooks => exact runHooks_each call hooks s

/-- A wrapped body, where `after` are the hooks that are found when the body has ended. -/
theorem wrapped_calls (call : Call) (setup : Hook) (body : Value) (after : Hook) {teardown : Act Hook}
    {s : Session}
    (ht : ∀ t, (Called.hook call setup s).outcome = .ok () →
      t = (Called.one call body (Called.hook call setup s).session).session → teardown t = (.ok after, t)) :
    wrapped call setup body teardown s = ((Called.wrapped call setup body after s).outcome,
      (Called.wrapped call setup body after s).session) := by
  show (runHook call setup >>= fun _ =>
    Act.ensuring (do let _ ← call body [] []) (teardown >>= runHook call)) s = _
  have hsetup := runHook_calls call setup s
  cases ho : (Called.hook call setup s).outcome with
  | error f =>
    rw [ho] at hsetup
    rw [bind_error hsetup, Called.wrapped, Called.andThen_error ho, ho]
  | ok u =>
    rw [ho] at hsetup
    rw [bind_ok hsetup, Called.wrapped, Called.andThen_ok ho]
    exact ensuring_calls (call_one call _ _) ((bind_ok (ht _ ho rfl)).trans (runHook_calls ..))

end Exemplar
