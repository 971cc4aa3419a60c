import Exemplar.Proofs.Expansion
import Exemplar.Proofs.Surroundings
import Exemplar.Proofs.Teardown
import Exemplar.Proofs.Verbs

/-! Specs without a body.

Such a spec gets a stub, whichever verb declares it (`Declares.stub`). The stub looks up the verb that
is registered under the name `"fail"` when it is called, and calls it with the message that the spec is
not implemented (`stub_call`). As long as the built-in verb is registered there, the test fails with this
one report; another verb decides on its own what becomes of the test (`unwritten_spec_reports`). -/
namespace Exemplar

open Act

/-! ### Registrations that spare a name -/

/-- What a session comes to by registrations, strict or not, none of which has a definition with the
name, and anything else in between. -/
inductive Sparing (name : String) (s₀ : Session) : Session → Prop
  | start : Sparing name s₀ s₀
  | register {s} (r : Registration) (strict : Bool) : Sparing name s₀ s → r.Supplied s.heap →
      (∀ d ∈ r.registered (s.loader strict), name ∉ d.names) →
      Sparing name s₀ (s.registering strict r).2
  | elsewhere {s t} : Sparing name s₀ s → t.registry = s.registry → Sparing name s₀ t

/-- The name keeps its verb. -/
theorem Sparing.get?_eq {name : String} {s₀ s : Session} (h : Sparing name s₀ s) :
    s.registry.get? name = s₀.registry.get? name := by
  induction h with
  | start => rfl
  | @register s r strict _ hr hspared ih =>
    exact ((Registration.run_accepts (l := s.loader strict) hr).get?_eq hspared).trans ih
  | elsewhere _ hregistry ih => exact hregistry ▸ ih

/-! ### Declarations -/

/-- A spec that was declared without a body, on its own or for an argument. -/
inductive Declares (b : BuildId) (s : Session) : Spec → Session → Prop
  | it {description spec t} : Act.it b description .null s = (.ok spec, t) → Declares b s spec t
  | given {description args specs spec t} : Act.givenIt b description .null args s = (.ok specs, t) →
      spec ∈ specs → Declares b s spec t

namespace Act

variable {s t : Session} {b : BuildId} {description arg : Value} {args : List Value} {spec : Spec}
  {specs : List Spec}

theorem it_stub (h : it b description .null s = (.ok spec, t)) :
    s.heap.Equipped t.heap ∧ t.heap.Stub spec.body := by
  cases hm : s.refusal? b "it" with
  | some m =>
    rw [it_refused hm] at h
    cases h
  | none =>
    obtain ⟨hb, n, hn⟩ := Session.refusal?_eq_none.mp hm
    cases hd : Schema.text s.heap description with
    | ok d =>
      obtain ⟨heap, v, e, hv, hit⟩ := it_apply hb hn (.inl rfl) hd
      rw [hit] at h
      cases h
      exact ⟨e, hv⟩
    | error kind =>
      obtain ⟨heap, -, hit⟩ := it_undescribed hb hn (.inl rfl) hd
      rw [hit] at h
      cases h

theorem givenSpec_stub (h : givenSpec b description .null arg s = (.ok spec, t)) :
    s.heap.Equipped t.heap ∧ t.heap.Stub spec.body := by
  rw [givenSpec] at h
  obtain ⟨text, u, hread, h⟩ := bind_eq_ok h
  rw [reading_apply] at hread
  obtain ⟨-, rfl⟩ := Prod.mk.inj hread
  obtain ⟨body, w, hbody, h⟩ := bind_eq_ok h
  cases hbody
  exact it_stub h

theorem givenIt_stub (h : givenIt b description .null args s = (.ok specs, t)) :
    s.heap.Equipped t.heap ∧ ∀ spec ∈ specs, t.heap.Stub spec.body := by
  induction args generalizing s specs with
  | nil =>
    cases h
    exact ⟨.refl _, fun _ hspec => absurd hspec List.not_mem_nil⟩
  | cons arg rest ih =>
    rw [givenIt] at h
    obtain ⟨first, u, hfirst, h⟩ := bind_eq_ok h
    obtain ⟨more, w, hmore, h⟩ := bind_eq_ok h
    cases h
    obtain ⟨e, hstub⟩ := givenSpec_stub hfirst
    obtain ⟨e', hstubs⟩ := ih hmore
    exact ⟨e.trans e', List.forall_mem_cons.mpr ⟨hstub.kept e'.objects.kept, hstubs⟩⟩

end Act

theorem Declares.stub {b : BuildId} {s t : Session} {spec : Spec} (h : Declares b s spec t) :
    t.heap.Stub spec.body := by
  cases h with
  | it h => exact (it_stub h).2
  | given h hspec => exact (givenIt_stub h).2 _ hspec

/-! ### Calls of stubs -/

namespace Act

variable {s : Session} {body verb : Value}

/-- The shortcut of the asserter calls the verb that is registered under its name by then. -/
theorem callWithin_shortcut {fail message : Value}
    (hfail : s.heap.cell? fail = some (.procedure (.shortcut "fail")))
    (hverb : s.registry.resolve "fail" = .ok verb) (barred : Option Bar) (depth : Nat) :
    callWithin barred (depth + 2) fail [message] [] s = (do
      let _ ← callWithin barred depth verb [.undefined, message] []
      return Value.null : Act Value)
        { s with heap := (s.heap.alloc (.procedure (.applied verb [.undefined]))).1 } := by
  have hlookUp : s.registry.lookUp .undefined "fail" = .ok (.verb verb) := by
    have hname : "fail" ≠ Registry.subjectName ∧ "fail" ≠ Registry.registryName ∧
        "fail".toList.head? ≠ some '_' := by decide
    rw [Registry.lookUp, if_neg hname.1, if_neg hname.2.1, if_neg hname.2.2, hverb]
    rfl
  have hfilled : bindCall ("Asserter." ++ "fail") shortcutSignature (.foreign "Asserter" :: [message]) [] s =
      (.ok [("self", .one (.foreign "Asserter")), ("message", .one message)], s) := rfl
  have hcell : (s.heap.alloc (.procedure (.applied verb [.undefined]))).1.cell? (.object s.heap.size) =
      some (.procedure (.applied verb [.undefined])) := Heap.get?_alloc_self ..
  cases fail with
  | object r =>
    show apply barred (callWithin barred (depth + 1)) (.object r) [message] [] s = _
    rw [apply, bind_ok (get_apply s)]
    simp only [hfail, applyProcedure]
    rw [bind_ok hfilled, bind_ok (handlerAttribute_apply hlookUp)]
    have hcalled := callWithin_applied (s := { s with heap := _ }) barred depth hcell [message] []
    rcases hresult : callWithin barred depth verb [.undefined, message] []
      { s with heap := (s.heap.alloc (.procedure (.applied verb [.undefined]))).1 } with ⟨f | v, t⟩
    · rw [bind_error hresult]
      exact bind_error (hcalled.trans hresult)
    · rw [bind_ok hresult]
      exact bind_ok (hcalled.trans hresult)
  | _ => cases hfail

/-- A stub calls it with its message. -/
theorem stub_call (hbody : s.heap.Stub body) (hverb : s.registry.resolve "fail" = .ok verb)
    (barred : Option Bar) (depth : Nat) : callWithin barred (depth + 3) body [] [] s = (do
      let _ ← callWithin barred depth verb [.undefined, .text notImplemented] []
      return Value.null : Act Value)
        { s with heap := (s.heap.alloc (.procedure (.applied verb [.undefined]))).1 } := by
  obtain ⟨fail, hfail, happlied⟩ := hbody
  rw [callWithin_applied barred (depth + 2) happlied]
  exact callWithin_shortcut hfail hverb barred depth

theorem callWithin_verb (barred : Option Bar) (depth : Nat) (v : BuiltinVerb) (args : List Value)
    (named : List (String × Value)) (s : Session) : callWithin barred (depth + 1) (.verb v) args named s =
      runVerb (callWithin barred depth) v args named s := bind_ok (get_apply s)

/-- The built-in verb reports a failure with the message. -/
theorem runVerb_fail {e : EngineId} {z : SyncEngine} (hrunning : s.running = some e)
    (hz : s.engines[e]? = some (.sync z)) (hrecording : z.recording = true) (call : Call) (subject : Value)
    (text : String) : runVerb call .fail [subject, .text text] [] s =
      (.ok .null, s.withEngine e (.sync (z.addReport ⟨false, some text⟩))) := by
  have hfilled : bindCall BuiltinVerb.fail.procedureName BuiltinVerb.fail.signature [subject, .text text] [] s =
      (.ok [("actual", .one subject), ("message", .one (.text text))], s) := rfl
  have hreport : report call (.bool false) (.text text) s =
      (.ok (), s.withEngine e (.sync (z.addReport ⟨false, some text⟩))) := by
    rw [report, bind_ok (currentEngine_some hrunning)]
    exact reportTo_sync hz hrecording false rfl
  rw [runVerb, bind_ok hfilled]
  exact bind_ok hreport

/-- In a test, a stub that calls the built-in verb makes one report. -/
theorem stub_reports {e : EngineId} {z : SyncEngine} (hbody : s.heap.Stub body)
    (hverb : s.registry.resolve "fail" = .ok (.verb .fail)) (hrunning : s.running = some e)
    (hz : s.engines[e]? = some (.sync z)) (hrecording : z.recording = true) (depth : Nat) :
    ∃ h, callWithin none (depth + 4) body [] [] s = (.ok .null,
      ({ s with heap := h } : Session).withEngine e (.sync (z.addReport ⟨false, some notImplemented⟩))) := by
  refine ⟨(s.heap.alloc (.procedure (.applied (.verb .fail) [.undefined]))).1, ?_⟩
  rw [stub_call hbody hverb none (depth + 1)]
  generalize (s.heap.alloc _).1 = h
  have hrun := runVerb_fail (s := { s with heap := h }) hrunning hz hrecording (callWithin none depth) .undefined
    notImplemented
  exact bind_ok ((callWithin_verb none depth .fail _ _ _).trans hrun)

end Act

/-! ### Hooks around stubs -/

section Hooks

variable (depth : Nat) (k : Hook) (s : Session)

theorem Later.hook (K : List Opening) :
    Later K (K, s) (K, (Called.hook (callWithin none depth) k s).session) := by
  have hcalls := (Later.accord K (K, s)).callWithin_alike depth
  have hhook := (runHook_alike (hcalls ⟨K, List.suffix_refl K⟩) k s s (Later.start K s)).2.2
  rwa [runHook_calls] at hhook

theorem Amid.hook : Amid s [] (Called.hook (callWithin none depth) k s).session := by
  have hcalls := (Amid.accord s).callWithin_alike depth
  have hhook := (runHook_alike (hcalls []) k s s ⟨rfl, .start⟩).2.2
  rwa [runHook_calls] at hhook

end Hooks

/-- From `s` to `t` nothing was reported to the synchronous engine `e`, and no further test has ended
on it. -/
def Unheard (e : EngineId) (s t : Session) : Prop :=
  ∃ x y, s.engines[e]? = some (.sync x) ∧ t.engines[e]? = some (.sync y) ∧ y.recording = x.recording ∧
    y.ledgers = x.ledgers

theorem Unheard.engine {e : EngineId} {x : SyncEngine} {s t : Session} (h : Unheard e s t)
    (hx : s.engines[e]? = some (.sync x)) : ∃ y, t.engines[e]? = some (.sync y) ∧ y.recording = x.recording ∧
      y.ledgers = x.ledgers := by
  obtain ⟨x', y, hx', hy, hrecording, hledgers⟩ := h
  obtain rfl := Engine.sync.inj (Option.some.inj (hx.symm.trans hx'))
  exact ⟨y, hy, hrecording, hledgers⟩

/-- A test whose hooks and body complete leaves the reports it has made by then, and no error. -/
theorem runTest_completes {e : EngineId} {x z y : SyncEngine} {u : Session} (hx : u.engines[e]? = some (.sync x))
    (depth : Nat) (description : String) (body : Value) {group : String} :
    let call := callWithin none depth
    let entered := Called.hook call x.setup (u.begun e)
    let ran := Called.one call body entered.session
    let torn := Called.each call z.teardown.procedures ran.session
    entered.outcome = .ok () → ran.outcome = .ok () → ran.session.engines[e]? = some (.sync z) →
    torn.outcome = .ok () → torn.session.engines[e]? = some (.sync y) →
    Schema.text torn.session.heap y.group = .ok group →
    runTest call e (.text description) body u = (.ok (), torn.session.withEngine e
      (.sync (y.finish.addResult { group, description, reports := y.reports, error := none }))) := by
  intro call entered ran torn hentered hran hz htorn hy hgroup
  obtain ⟨before, after, z', y', hcourse⟩ := TestCourse.exists_of_engine hx depth body
  obtain rfl := Engine.sync.inj (Option.some.inj (hz.symm.trans (hcourse.atBody hentered)))
  have htest := Called.wrapped_tornDown x.setup body z.teardown hentered
  have hrun := runTest_apply hx call (.text description) body
  have hok : (Called.one call body entered.session).outcome = .ok () := hran
  rw [hcourse.inTest_calls hx, htest.ends htorn, htest.session, hok] at hrun
  rw [hrun]
  exact concluding_records hy rfl hgroup rfl

/-! ### Tests without a body -/

/-- The one report of a spec without a body. -/
def Report.unwritten : Report := ⟨false, some notImplemented⟩

section Tests

variable {e : EngineId} {x : SyncEngine} {u : Session} {body : Value} (hx : u.engines[e]? = some (.sync x))
  (hrunning : u.running = some e) (hbody : u.heap.Stub body) (depth : Nat)
include hbody

/-- The stub is there when the setup has ended. -/
theorem stub_entered : (Called.hook (callWithin none depth) x.setup (u.begun e)).session.heap.Stub body :=
  hbody.kept (Later.hook depth x.setup (u.begun e) []).heap_kept

include hx hrunning

/-- The body makes one report, if the built-in verb is registered by then and the test is still recorded. -/
theorem stub_runs :
    let call := callWithin none (depth + 4)
    let entered := Called.hook call x.setup (u.begun e)
    let ran := Called.one call body entered.session
    entered.session.registry.resolve "fail" = .ok (.verb .fail) → Unheard e (u.begun e) entered.session →
    ∃ z, ran.outcome = .ok () ∧ ran.session.engines[e]? = some (.sync z) ∧
      z.ledgers = [.unwritten] :: x.ledgers := by
  intro call entered ran hverb hquiet
  obtain ⟨y, hy, hrecording, hledgers⟩ := hquiet.engine (Session.begun_engine hx)
  have hcurrent : entered.session.running = some e :=
    (congrArg Surroundings.running (Amid.hook (depth + 4) x.setup (u.begun e)).restored).trans hrunning
  obtain ⟨h, hcall⟩ := stub_reports (stub_entered hbody (depth + 4)) hverb hcurrent hy hrecording depth
  refine ⟨y.addReport .unwritten, congrArg (fun r => r.1.map fun _ => ()) hcall, ?_, ?_⟩
  · rw [show ran.session = _ from congrArg Prod.snd hcall]
    exact Session.getElem?_withEngine (Session.lt_of_engine hy) _
  · rw [SyncEngine.addReport, hledgers]
    rfl

end Tests

/-- A spec that was declared without a body is run on a synchronous engine some time later. Its body calls
the verb that is registered as `"fail"` when the setup has ended, with the message, whatever has been
registered by then. If this is the built-in verb, as it is if no registration had a definition with this
name, the result has the one report, a failed one, and no error, provided that the hooks complete, report
nothing and run no further test. -/
theorem unwritten_spec_reports {b : BuildId} {r t u : Session} {spec : Spec} (hspec : Declares b r spec t)
    (hlater : t.heap.Kept u.heap) {e : EngineId} {x : SyncEngine} (hx : u.engines[e]? = some (.sync x))
    (hrunning : u.running = some e) (depth : Nat) :
    let call := callWithin none (depth + 4)
    let entered := Called.hook call x.setup (u.begun e)
    let v := entered.session
    let ran := Called.one call spec.body v
    (Registering {} v → ∃ verb, v.registry.resolve "fail" = .ok verb ∧ call spec.body [] [] v = (do
      let _ ← callWithin none (depth + 1) verb [.undefined, .text notImplemented] []
      return Value.null : Act Value)
        { v with heap := (v.heap.alloc (.procedure (.applied verb [.undefined]))).1 }) ∧
    (Sparing "fail" {} v → v.registry.resolve "fail" = .ok (.verb .fail)) ∧
    (v.registry.resolve "fail" = .ok (.verb .fail) → entered.outcome = .ok () → Unheard e (u.begun e) v →
      ∃ z, ran.outcome = .ok () ∧ ran.session.engines[e]? = some (.sync z) ∧ z.reports = [.unwritten] ∧
        let torn := Called.each call z.teardown.procedures ran.session
        torn.outcome = .ok () → Unheard e ran.session torn.session → ∀ y group,
          torn.session.engines[e]? = some (.sync y) → Schema.text torn.session.heap y.group = .ok group →
          let result : TestResult := ⟨group, spec.description, [.unwritten], none⟩
          runTest call e (.text spec.description) spec.body u =
            (.ok (), torn.session.withEngine e (.sync (y.finish.addResult result))) ∧
          result.passed = false) := by
  intro call entered v ran
  have hbody : u.heap.Stub spec.body := hspec.stub.kept hlater
  refine ⟨fun hregistering => ?_, fun hsparing => ?_, fun hverb hentered hsetup => ?_⟩
  · have hname : "fail" ∈ v.registry.names := hregistering.mem_names (by decide)
    obtain ⟨d, hd⟩ := Option.isSome_iff_exists.mp ((v.registry.mem_names_iff "fail").mp hname)
    have hverb := Registry.resolve_some hd
    exact ⟨d.verb, hverb, stub_call (stub_entered hbody (depth + 4)) hverb none (depth + 1)⟩
  · exact Registry.resolve_some (hsparing.get?_eq.trans rfl)
  · obtain ⟨z, hran, hz, hledgers⟩ := stub_runs hx hrunning hbody depth hverb hsetup
    refine ⟨z, hran, hz, congrArg (·.headD []) hledgers, fun htorn hquiet y group hy hgroup => ⟨?_, rfl⟩⟩
    obtain ⟨y', hy', -, hsame⟩ := hquiet.engine hz
    obtain rfl := Engine.sync.inj (Option.some.inj (hy'.symm.trans hy))
    have hreports : y'.reports = [.unwritten] := congrArg (·.headD []) (hsame.trans hledgers)
    rw [← hreports]
    exact runTest_completes hx (depth + 4) spec.description spec.body hentered hran hz htorn hy hgroup

/-- The group `"g"` is open. -/
def Session.opening (s : Session) : Session := s.entering.opened 0 (.text "g")

/-- An engine is about to run tests of the group. -/
def Session.awaiting (s : Session) : Session :=
  { s with engines := #[.sync { group := .text "g" }], running := some 0 }

/-- Nothing was registered after the built-in verbs. -/
theorem unwritten_spec_reports_alone : ∃ spec t, Declares 0 (Session.opening {}) spec t ∧
    Sparing "fail" {} t ∧ ((runTest call 0 (.text spec.description) spec.body t.awaiting).2.sync 0).results =
      [⟨"g", "x", [.unwritten], none⟩] := by
  let t := (it 0 (.text "x") .null (Session.opening {})).2
  have hit : it 0 (.text "x") .null (Session.opening {}) = (.ok ⟨"x", .object 1⟩, t) := rfl
  obtain ⟨-, hsparing, hreports⟩ :=
    unwritten_spec_reports (u := t.awaiting) (e := 0) (.it hit) (.refl _) rfl rfl 196
  obtain ⟨z, -, hz, -, hdone⟩ := hreports (hsparing (.elsewhere .start rfl)) rfl ⟨_, _, rfl, rfl, rfl, rfl⟩
  obtain rfl := Engine.sync.inj (Option.some.inj hz)
  obtain ⟨hrun, -⟩ := hdone rfl ⟨_, _, rfl, rfl, rfl, rfl⟩ _ "g" rfl rfl
  refine ⟨_, t, .it hit, .elsewhere .start rfl, ?_⟩
  rw [show runTest call 0 _ _ t.awaiting = _ from hrun]
  rfl

/-- A verb that does nothing is registered as `"fail"`. -/
def Session.overruled : Session :=
  let s : Session := { heap := { cells := #[.procedure (.script none [] none)] } }
  (s.registering false (.mapping [(.text "fail", .object 0)])).2

/-- A spec without a body passes. -/
theorem unwritten_spec_passes : ∃ spec t, Declares 0 Session.overruled.opening spec t ∧ Registering {} t ∧
    let result : TestResult := ⟨"g", "x", [], none⟩
    ((runTest call 0 (.text spec.description) spec.body t.awaiting).2.sync 0).results = [result] ∧
    result.passed = true := by
  have hit : it 0 (.text "x") .null Session.overruled.opening =
      (.ok ⟨"x", .object 5⟩, (it 0 (.text "x") .null Session.overruled.opening).2) := by rfl
  refine ⟨_, _, .it hit, ?_, by decide +kernel, by decide⟩
  have hsupplied : (Registration.mapping [(.text "fail", .object 0)]).Supplied
      { cells := #[.procedure (.script none [] none)] } :=
    List.forall_mem_singleton.mpr ⟨nofun, fun r hr => Value.object.inj hr ▸ Nat.zero_lt_one⟩
  have hstart : Registering {} { heap := { cells := #[.procedure (.script none [] none)] } } :=
    .elsewhere .start rfl
  exact .elsewhere (hstart.register _ false hsupplied) rfl

end Exemplar
