import Exemplar.Proofs.Comparisons
import Exemplar.Proofs.Testing

/-! The verbs of equality and inequality.

A verb that compares makes one report of what it finds of the two values (`Act.runVerb_settles`). What
`==` and `!=` answer may take calls, after which the session is another one; where nothing is asked, it
stays as it was (`Act.Settles.still`). Equality goes by `==` alone. Inequality asks for values of one kind
first: it passes for any two values of different types, unless both are numbers of the kinds that are
compared by value. Decimals and complex numbers are not among these kinds, so both verbs pass for an
integer and a decimal that are equal. -/
namespace Exemplar

open Act

/-! ### Reports of verbs -/

namespace Engine

/-- Whether a test is running that reports go to. -/
def takesReports : Engine → Bool
  | .sync x => x.recording && !x.ledgers.isEmpty
  | .item _ => true
  | .collecting _ | .recording => false

/-- The reports of the running test. -/
def reports : Engine → List Report
  | .sync x => x.reports
  | .item x => x.reports
  | .collecting _ | .recording => []

end Engine

/-- The verb, called in `s` with a subject and an expected value, makes one report to the engine `e` and
answers nothing. Up to the report the session has become `t`. -/
def MakesReport (call : Call) (s t : Session) (e : EngineId) (v : BuiltinVerb) (actual expected : Value)
    (passed : Bool) : Prop :=
  ∃ x y, t.engines[e]? = some x ∧
    runVerb call v [actual, expected] [] s = (.ok .null, t.withEngine e y) ∧
    y.reports = x.reports ++ [⟨passed, none⟩]

namespace Act

variable {s : Session} {e : EngineId} {x : Engine}

/-- A test that is recorded on a synchronous engine gets the report. -/
theorem reportTo_sync {z : SyncEngine} (hx : s.engines[e]? = some (.sync z)) (hrecording : z.recording = true)
    (passed : Bool) {message : Value} {text : Option String}
    (hmessage : Schema.optionalText s.heap message = .ok text) :
    reportTo e passed message s = (.ok (), s.withEngine e (.sync (z.addReport ⟨passed, text⟩))) := by
  have hmade : makeReport passed message s = (.ok ⟨passed, text⟩, s) := by
    rw [makeReport, bind_ok (get_apply s), hmessage]
    rfl
  rw [show reportTo e passed message s = _ from engine_bind hx _]
  dsimp only
  rw [if_pos hrecording, bind_ok hmade]
  exact changeSync_apply hx _

theorem reportTo_takes (hx : s.engines[e]? = some x) (htakes : x.takesReports = true) (passed : Bool) :
    ∃ y, reportTo e passed .null s = (.ok (), s.withEngine e y) ∧ y.reports = x.reports ++ [⟨passed, none⟩] := by
  cases x with
  | sync z =>
    obtain ⟨hrecording, hledgers⟩ := Bool.and_eq_true_iff.mp htakes
    obtain ⟨ledger, outer, hz⟩ := List.exists_cons_of_ne_nil (by simpa using hledgers)
    refine ⟨.sync (z.addReport ⟨passed, none⟩), reportTo_sync hx hrecording passed rfl, ?_⟩
    simp [Engine.reports, SyncEngine.addReport, SyncEngine.reports, hz]
  | item i => exact ⟨_, engine_bind hx _, rfl⟩
  | collecting c | recording => cases htakes

theorem bind_comparison {v : BuiltinVerb} (hv : v.isComparison = true) (actual expected : Value) :
    v.signature.bind [actual, expected] [] =
      .ok [("actual", .one actual), ("expected", .one expected), ("message", .one .null)] := by
  cases v <;> first | rfl | cases hv

/-- In the session `s`, where reports go to the engine `e`, a question has an answer that counts as
`outcome`. By then the session has become `t`, in which the engine takes reports. -/
structure Settles (call : Call) (e : EngineId) (question : Act Answer) (s : Session) (outcome : Bool)
    (t : Session) : Prop where
  answered : ∃ answer u, question s = (.ok answer, u) ∧ u.running = some e ∧
    (comparing call).holds answer u = (.ok outcome, t)
  takes : ∃ x, t.engines[e]? = some x ∧ x.takesReports = true

/-- A verb that compares reports what it finds of the two values. -/
theorem runVerb_settles {v : BuiltinVerb} (hv : v.isComparison = true) {call : Call} {t : Session}
    {actual expected : Value} {passed : Bool}
    (h : Settles call e (v.outcome (comparing call) actual expected) s passed t) :
    MakesReport call s t e v actual expected passed := by
  obtain ⟨answer, u, hanswer, hrunning, hholds⟩ := h.answered
  obtain ⟨x, hx, htakes⟩ := h.takes
  obtain ⟨y, hy, hreports⟩ := reportTo_takes hx htakes passed
  refine ⟨x, y, hx, ?_, hreports⟩
  let filled : List (String × Received Value) :=
    [("actual", .one actual), ("expected", .one expected), ("message", .one .null)]
  have hfilled : bindCall v.procedureName v.signature [actual, expected] [] s = (.ok filled, s) := by
    rw [bindCall, bind_comparison hv]
    rfl
  have hne : v ≠ .throwsException := by
    rintro rfl
    cases hv
  have hfind : find call v filled s = (.ok answer, u) := by
    rw [find, if_neg hne]
    exact hanswer
  have hreport : report call answer .null u = (.ok (), t.withEngine e y) := by
    rw [report, bind_ok (currentEngine_some hrunning), bind_ok hholds]
    exact hy
  rw [runVerb, bind_ok hfilled, bind_ok hfind]
  exact bind_ok hreport

/-! ### Comparisons that ask nothing -/

/-- What a comparison answers without a program, it answers in every program, and leaves the session as
it is. -/
theorem comparing_still (call : Call) (s : Session) :
    Comparing.Related (fun pure? run => ∀ r, pure? = .ok r → run s = (.ok r, s)) (Comparing.still s.heap)
      (comparing call) where
  pure a _ hr := hr ▸ rfl
  bind {_ _ x _ _ _} hx hk r hr := by
    cases x with
    | ok a => exact (bind_ok (hx a rfl)).trans (hk a r hr)
    | error f => cases hr
  store _ hr := hr ▸ rfl
  fail _ _ hr := nomatch hr
  ask v operation args r hr := by
    rw [comparing_ask]
    change (v.method? s.heap operation).mapM (Heap.Replies.reply s.heap · (v :: args)) = .ok r at hr
    cases hmethod : v.method? s.heap operation <;> rw [hmethod] at hr
    · exact hr ▸ rfl
    · cases hr

theorem Settles.still {call : Call} (hrunning : s.running = some e) (hx : s.engines[e]? = some x)
    (htakes : x.takesReports = true) {question : Act Answer} {answer : Answer} {outcome : Bool}
    (hanswer : question s = (.ok answer, s)) (hholds : (Comparing.still s.heap).holds answer = .ok outcome) :
    Settles call e question s outcome s :=
  ⟨⟨answer, s, hanswer, hrunning, (comparing_still call s).holds answer outcome hholds⟩, x, hx, htakes⟩

end Act

/-! ### Equality and inequality -/

namespace Value

/-- Numbers that are of one kind with numbers of their own type only. -/
def isDecimalOrComplex (h : Heap) (v : Value) : Bool :=
  match h.cell? v with
  | some (.decimal _) | some (.complex _) => true
  | _ => false

/-- Numbers other than truth values. -/
def isNumber (h : Heap) (v : Value) : Bool := v.isReal h || v.isDecimalOrComplex h

variable {h : Heap} {a b v : Value}

theorem not_isReal_iff (hv : v.isNumber h = true) : v.isReal h = false ↔ v.isDecimalOrComplex h = true := by
  constructor
  · intro hreal
    simpa [isNumber, hreal] using hv
  · intro hcell
    unfold isDecimalOrComplex at hcell
    split at hcell
    · rename_i hdecimal
      obtain ⟨r, rfl⟩ : ∃ r, v = .object r := by cases v <;> first | exact ⟨_, rfl⟩ | cases hdecimal
      simp [isReal, hdecimal]
    · rename_i hcomplex
      obtain ⟨r, rfl⟩ : ∃ r, v = .object r := by cases v <;> first | exact ⟨_, rfl⟩ | cases hcomplex
      simp [isReal, hcomplex]
    · cases hcell

theorem sameKind_eq_false_iff :
    a.sameKind h b = false ↔
      a.typeName h ≠ b.typeName h ∧ ¬ (a.isReal h = true ∧ b.isReal h = true) := by
  rw [sameKind, Bool.or_eq_false_iff, Bool.and_eq_false_imp, decide_eq_false_iff_not, and_comm, not_and]
  simp

end Value

/-- Inequality asks `!=` of values of one kind only, and passes for all others. -/
theorem Act.Settles.isNotEqualTo {call : Call} {s t : Session} {e : EngineId} {x : Engine}
    (hrunning : s.running = some e) (hx : s.engines[e]? = some x) (htakes : x.takesReports = true)
    {a b : Value} {differs : Bool} (h : Settles call e ((comparing call).unequal a b) s differs t) :
    Settles call e (BuiltinVerb.outcome (comparing call) .isNotEqualTo a b) s
      (!a.sameKind s.heap b || differs) (if a.sameKind s.heap b then t else s) := by
  have hstore : (comparing call).store s = (.ok s.heap, s) := rfl
  cases hkind : a.sameKind s.heap b with
  | true =>
    refine ⟨?_, h.takes⟩
    rw [BuiltinVerb.outcome, bind_ok hstore, if_pos hkind]
    exact h.answered
  | false =>
    have hanswer : BuiltinVerb.outcome (comparing call) .isNotEqualTo a b s = (.ok (.bool true), s) := by
      rw [BuiltinVerb.outcome, bind_ok hstore, if_neg (Bool.eq_false_iff.mp hkind)]
      rfl
    exact .still hrunning hx htakes hanswer rfl

/-- Where `==` and `!=` answer opposite truth values, equality passes for values that are equal, and
inequality passes for values that are not, and for values of different types, unless both are numbers that
are compared by value. What they answer may take calls. -/
theorem equality_verbs {s t u : Session} {e : EngineId} {x : Engine} (hrunning : s.running = some e)
    (hx : s.engines[e]? = some x) (htakes : x.takesReports = true) (call : Call) {a b : Value} {r : Bool}
    (hequal : Settles call e ((comparing call).equal a b) s r t)
    (hunequal : Settles call e ((comparing call).unequal a b) s (!r) u) :
    ∃ p q w, MakesReport call s t e .equals a b p ∧ MakesReport call s w e .isNotEqualTo a b q ∧
      (w = s ∨ w = u) ∧ (p = true ∨ q = true) ∧
      (p = true ∧ q = true ↔ r = true ∧ a.typeName s.heap ≠ b.typeName s.heap ∧
        ¬ (a.isReal s.heap = true ∧ b.isReal s.heap = true)) ∧
      (a.isNumber s.heap = true → b.isNumber s.heap = true → (q = true ↔ r = false ∨
        a.typeName s.heap ≠ b.typeName s.heap ∧
          (a.isDecimalOrComplex s.heap = true ∨ b.isDecimalOrComplex s.heap = true))) := by
  have hq : (!a.sameKind s.heap b || !r) = true ↔ a.sameKind s.heap b = false ∨ r = false := by simp
  refine ⟨r, !a.sameKind s.heap b || !r, _, runVerb_settles rfl hequal,
    runVerb_settles rfl (hunequal.isNotEqualTo hrunning hx htakes), ?_, ?_, ?_, ?_⟩
  · cases a.sameKind s.heap b <;> simp
  · cases r <;> simp
  · rw [hq, Value.sameKind_eq_false_iff]
    cases r <;> simp
  · intro ha hb
    rw [hq, Value.sameKind_eq_false_iff, or_comm, ← Value.not_isReal_iff ha, ← Value.not_isReal_iff hb]
    rw [not_and_or, Bool.not_eq_true, Bool.not_eq_true]

/-- A test runs on an item engine. The store has a float and a decimal, both of them one. -/
def Session.counting : Session where
  heap.cells := #[.float (.finite false 4503599627370496 (-52)), .decimal (.finite false 1 0)]
  engines := #[.item {}]
  running := some 0

/-- An integer and a float that are equal are not reported as different. -/
theorem equality_verbs_counting :
    let call := callWithin none 1
    Session.counting.running = some 0 ∧
      Settles call 0 ((comparing call).equal (.int 1) (.object 0)) .counting true .counting ∧
      Settles call 0 ((comparing call).unequal (.int 1) (.object 0)) .counting false .counting ∧
      MakesReport call .counting .counting 0 .equals (.int 1) (.object 0) true ∧
      MakesReport call .counting .counting 0 .isNotEqualTo (.int 1) (.object 0) false := by
  intro call
  have hstill := comparing_still call .counting
  have hequal : Settles call 0 ((comparing call).equal (.int 1) (.object 0)) .counting true .counting :=
    .still rfl rfl rfl (hstill.equal (.int 1) (.object 0) (.bool true) rfl) rfl
  have hunequal : Settles call 0 ((comparing call).unequal (.int 1) (.object 0)) .counting false .counting :=
    .still rfl rfl rfl (hstill.unequal (.int 1) (.object 0) (.bool false) rfl) rfl
  obtain ⟨p, q, w, hp, hq, hw, hsome, -, hnumbers⟩ := equality_verbs rfl rfl rfl call hequal hunequal
  obtain rfl : w = .counting := hw.elim id id
  obtain rfl : q = false := by
    refine Bool.eq_false_iff.mpr fun hq => ?_
    rcases (hnumbers rfl rfl).mp hq with hr | ⟨-, hother | hother⟩
    · cases hr
    · cases hother
    · cases hother
  exact ⟨rfl, hequal, hunequal, hsome.resolve_right nofun ▸ hp, hq⟩

/-- An integer is reported as equal to a decimal, and as different too. -/
theorem equality_verbs_both_pass :
    let call := callWithin none 1
    (Value.int 1).isNumber Session.counting.heap = true ∧
      (Value.object 1).isNumber Session.counting.heap = true ∧
      Settles call 0 ((comparing call).equal (.int 1) (.object 1)) .counting true .counting ∧
      Settles call 0 ((comparing call).unequal (.int 1) (.object 1)) .counting false .counting ∧
      MakesReport call .counting .counting 0 .equals (.int 1) (.object 1) true ∧
      MakesReport call .counting .counting 0 .isNotEqualTo (.int 1) (.object 1) true := by
  intro call
  have hstill := comparing_still call .counting
  have hequal : Settles call 0 ((comparing call).equal (.int 1) (.object 1)) .counting true .counting :=
    .still rfl rfl rfl (hstill.equal (.int 1) (.object 1) (.bool true) rfl) rfl
  have hunequal : Settles call 0 ((comparing call).unequal (.int 1) (.object 1)) .counting false .counting :=
    .still rfl rfl rfl (hstill.unequal (.int 1) (.object 1) (.bool false) rfl) rfl
  exact ⟨rfl, rfl, hequal, hunequal, runVerb_settles rfl hequal,
    runVerb_settles rfl (hunequal.isNotEqualTo rfl rfl rfl)⟩

end Exemplar
