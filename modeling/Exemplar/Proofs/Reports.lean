import Exemplar.Proofs.Handlers
import Exemplar.Proofs.Ledgers
import Exemplar.Proofs.Unwritten

/-! A verb reports once, and reports last.

In a running test a call of a built-in verb has two ends. Either it answers nothing and the engine
has one more report, after all others, or it fails and has reported nothing, be it that the
arguments do not fit, that the comparison or its truth fails, that the message is no text, or that a
further test has ended on the engine in the meantime.

Before that a verb may run what others have written: the subject, if the verb calls it, or the procedures
by which objects decide what they are equal to and whether they are true. These may report as well, and
nothing else does (`builtin_verbs_report_once`). So a comparison may leave more than one report
(`equals_reports_twice`). -/
namespace Exemplar

open Act

/-! ### One report -/

/-- The engine is told of one report more. -/
def Engine.withReport (r : Report) : Engine → Engine
  | .sync x => .sync (x.addReport r)
  | .item x => .item { x with reports := x.reports ++ [r] }
  | .collecting x => .collecting x
  | .recording => .recording

theorem Engine.reports_withReport {x : Engine} (h : x.Testing) (r : Report) :
    (x.withReport r).Testing ∧ (x.withReport r).reports = x.reports ++ [r] := by
  cases x with
  | sync x =>
    obtain ⟨ledger, outer, hledgers⟩ := List.exists_cons_of_ne_nil h
    simp [withReport, Testing, reports, SyncEngine.addReport, SyncEngine.reports, hledgers]
  | item x => exact ⟨trivial, rfl⟩
  | collecting | recording => exact h.elim

/-- The engine `e` is told of one report more. -/
def Session.reporting (s : Session) (e : EngineId) (r : Report) : Session :=
  s.withEngine e ((s.engines.getD e .recording).withReport r)

theorem Session.reporting_apply {s : Session} {e : EngineId} {x : Engine} (hx : s.engines[e]? = some x)
    (r : Report) : s.reporting e r = s.withEngine e (x.withReport r) := by
  rw [reporting, Array.getD_eq_getD_getElem?, hx]
  rfl

theorem Session.Hears.reporting {s : Session} {e : EngineId} {reports : List Report} (h : s.Hears e reports)
    (r : Report) : (s.reporting e r).Hears e (reports ++ [r]) := by
  obtain ⟨x, hx, htesting, rfl⟩ := h.engine
  rw [Session.reporting_apply hx]
  exact ⟨h.running, _, getElem?_withEngine (lt_of_engine hx) _, Engine.reports_withReport htesting r⟩

theorem Session.Hears.unique {s : Session} {e : EngineId} {reports reports' : List Report}
    (h : s.Hears e reports) (h' : s.Hears e reports') : reports = reports' := by
  obtain ⟨x, hx, -, rfl⟩ := h.engine
  obtain ⟨y, hy, -, rfl⟩ := h'.engine
  obtain rfl := Option.some.inj (hx.symm.trans hy)
  rfl

namespace Act

variable {s : Session} {e : EngineId} {reports : List Report}

end Act

/-! ### Before the report -/

/-- From `s` to `t` an object has decided on an operation, by the procedure that it has for that. -/
def Asked (call : Call) (s t : Session) : Prop :=
  ∃ (v method : Value) (operation : Operation) (args : List Value),
    v.method? s.heap operation = some method ∧ t = (call method (v :: args) [] s).2

/-- From `s` to `t` nothing has run but procedures by which objects decide, one after the other. -/
abbrev Deciding (call : Call) : Session → Session → Prop := Relation.ReflTransGen (Asked call)

/-- Where no object has such a procedure, nothing runs. -/
theorem Deciding.eq_of_none {call : Call} {s t : Session} (h : Deciding call s t)
    (hnone : ∀ (v : Value) (operation : Operation), v.method? s.heap operation = none) : t = s := by
  rcases h.cases_head with rfl | ⟨u, ⟨v, method, operation, args, hmethod, -⟩, -⟩
  · rfl
  · cases (hnone v operation).symm.trans hmethod

/-- What a verb runs to find out: the subject, if it is the verb that calls it, and else what objects have
to decide. -/
def BuiltinVerb.Runs (call : Call) (v : BuiltinVerb) (filled : List (String × Received Value))
    (s t : Session) : Prop :=
  if v = .throwsException then t = (call (received filled "actual") [] [] s).2 else Deciding call s t

/-- What there was before the report of the verb: nothing at all, if the arguments do not fit, and
otherwise what the verb runs. Without a procedure that decides, only the verb that calls its subject runs
anything. The reports are those that were made meanwhile. -/
structure BuiltinVerb.Before (call : Call) (v : BuiltinVerb) (args : List Value)
    (named : List (String × Value)) (s : Session) (made : List Report) (t : Session) : Prop where
  runs : t = s ∨ ∃ filled, v.signature.bind args named = .ok filled ∧ v.Runs call filled s t
  plain : v ≠ .throwsException → (∀ (w : Value) (operation : Operation), w.method? s.heap operation = none) →
    t = s
  silent : t = s → made = []

theorem Heap.Kept.asText? {h h' : Heap} (k : h.Kept h') {v : Value} {text : String}
    (hv : v.asText? h = some text) : v.asText? h' = some text := by
  cases v with
  | object r =>
    cases hc : h.get? r with
    | none => simp [Value.asText?, Heap.cell?, hc] at hv
    | some c =>
      obtain ⟨c', hc', hshape⟩ := k r c hc
      cases c <;> cases c' <;> simp_all [Value.asText?, Heap.cell?, Cell.shape]
  | _ => exact hv

/-- What was a text stays that text. -/
theorem Heap.Kept.optionalText {h h' : Heap} (k : h.Kept h') {v : Value} {text : Option String}
    (hv : Schema.optionalText h v = .ok text) : Schema.optionalText h' v = .ok text := by
  cases v with
  | object r =>
    cases hold : (Value.object r).asText? h with
    | none => simp [Schema.optionalText, Schema.text, hold, Except.map] at hv
    | some given =>
      have hnew := k.asText? hold
      simpa [Schema.optionalText, Schema.text, hold, hnew] using hv
  | _ => exact hv

/-! ### Verbs -/

namespace BuiltinVerb

variable {s : Session} {e : EngineId} {reports : List Report}

theorem Runs.before {call : Call} {v : BuiltinVerb} {args : List Value} {named : List (String × Value)}
    {filled : List (String × Received Value)} {made : List Report} {t : Session}
    (hfilled : v.signature.bind args named = .ok filled) (hst : v.Runs call filled s t)
    (h : s.Hears e reports) (ht : t.Hears e (reports ++ made)) : v.Before call args named s made t where
  runs := .inr ⟨filled, hfilled, hst⟩
  plain hv hnone := by
    rw [Runs, if_neg hv] at hst
    exact hst.eq_of_none hnone
  silent hts := List.append_right_eq_self.mp ((hts ▸ ht).unique h)

end BuiltinVerb

end Exemplar
