import Exemplar.Proofs.Reuse
import Exemplar.Proofs.Teardown

/-! Waits.

A wait pauses the engine of the running spec, calls the clock and then its procedure, and resumes the
engine on every way out. Which waits on an engine are in progress is told by `Timed`: only the pause
and the end of a wait change it, and nothing else changes the mark of the engine. So the engine is
paused exactly while a wait is in progress, a further wait is refused meanwhile, and whatever programs
do, every wait that they begin has ended when they end (`paused_while_waiting`). -/
namespace Exemplar

open Act

/-- Whether the engine is paused, if it is one that can be. -/
def Engine.mark : Engine → Option Bool
  | sync x => some x.paused
  | item x => some x.paused
  | _ => none

def Session.mark (s : Session) (e : EngineId) : Option Bool := s.engines[e]?.bind Engine.mark

section Marks

variable {e : EngineId} {s t : Session} {paused : Bool}

theorem Session.mark_of_engine {x : Engine} (h : s.engines[e]? = some x) : s.mark e = x.mark := by
  rw [mark, h]
  rfl

theorem Session.mark_moved (h : t.engines[e]? = s.engines[e]?) : t.mark e = s.mark e := by rw [mark, mark, h]

theorem Session.mark_withEngine (he : e < s.engines.size) (x : Engine) : (s.withEngine e x).mark e = x.mark :=
  mark_of_engine (getElem?_withEngine he x)

theorem Session.mark_cases (h : s.mark e = some paused) :
    (∃ x, s.engines[e]? = some (.sync x) ∧ x.paused = paused) ∨
      ∃ x, s.engines[e]? = some (.item x) ∧ x.paused = paused := by
  obtain ⟨x, hx, hmark⟩ := Option.bind_eq_some_iff.mp h
  cases x with
  | sync x => exact .inl ⟨x, hx, Option.some.inj hmark⟩
  | item x => exact .inr ⟨x, hx, Option.some.inj hmark⟩
  | collecting | recording => cases hmark

theorem Session.lt_of_mark (h : s.mark e = some paused) : e < s.engines.size := by
  obtain ⟨x, hx, -⟩ := Option.bind_eq_some_iff.mp h
  exact lt_of_engine hx

theorem Act.pause_refused (h : s.mark e = some true) : pause e s = (.error (.misuse .nestedWait none), s) := by
  rcases Session.mark_cases h with ⟨x, hx, hpaused⟩ | ⟨x, hx, hpaused⟩
  all_goals
    rw [show pause e s = _ from engine_bind hx _]
    dsimp only
    rw [if_pos hpaused]
    rfl

theorem Act.pause_marks (h : s.mark e = some false) : ∃ t, pause e s = (.ok (), t) ∧ t.mark e = some true := by
  have he := Session.lt_of_mark h
  rcases Session.mark_cases h with ⟨x, hx, hpaused⟩ | ⟨x, hx, hpaused⟩
  · refine ⟨s.withEngine e (.sync { x with paused := true }), ?_, Session.mark_withEngine he _⟩
    rw [show pause e s = _ from engine_bind hx _]
    dsimp only
    rw [if_neg (Bool.eq_false_iff.mp hpaused)]
    rfl
  · refine ⟨s.withEngine e (.item { x with paused := true }), ?_, Session.mark_withEngine he _⟩
    rw [show pause e s = _ from engine_bind hx _]
    dsimp only
    rw [if_neg (Bool.eq_false_iff.mp hpaused)]
    rfl

theorem Act.waitOn_refused (h : s.mark e = some true) (call : Call) (ms body : Value) :
    waitOn call e ms body s = (.error (.misuse .nestedWait none), s) := bind_error (pause_refused h)

theorem Act.waitOn_paused (h : pause e s = (.ok (), t)) (call : Call) (ms body : Value) :
    waitOn call e ms body s = ensuring (waited call ms body) (resume e) t := bind_ok h

theorem Act.resume_marks (h : s.mark e = some paused) :
    (resume e s).1 = .ok () ∧ (resume e s).2.mark e = some false := by
  have he := Session.lt_of_mark h
  rcases Session.mark_cases h with ⟨x, hx, -⟩ | ⟨x, hx, -⟩
  all_goals
    rw [show resume e s = _ from engine_bind hx _]
    exact ⟨rfl, Session.mark_withEngine he _⟩

theorem Act.setTitle_mark (h : s.mark e = some paused) (title : Value) :
    (setTitle e title s).2.mark e = s.mark e := by
  rcases Session.mark_cases h with ⟨x, hx, -⟩ | ⟨x, hx, -⟩ <;>
    rw [show setTitle e title s = _ from engine_bind hx _]
  · exact (Session.mark_withEngine (Session.lt_of_engine hx) _).trans (Session.mark_of_engine hx).symm
  · rfl

theorem Act.declareGroup_mark (h : s.mark e = some paused) (name : Value) (setup teardown : Hook) :
    (declareGroup e name setup teardown s).2.mark e = s.mark e := by
  rcases Session.mark_cases h with ⟨x, hx, -⟩ | ⟨x, hx, -⟩ <;>
    rw [show declareGroup e name setup teardown s = _ from engine_bind hx _]
  · exact (Session.mark_withEngine (Session.lt_of_engine hx) _).trans (Session.mark_of_engine hx).symm
  · rfl

/-- Reports leave the mark as it is. -/
theorem Act.reportTo_mark (h : s.mark e = some paused) (passed : Bool) (message : Value) :
    (reportTo e passed message s).2.mark e = s.mark e := by
  have hmake : ∀ {r t}, makeReport passed message s = (r, t) → t.engines = s.engines :=
    fun hr => (makeReport_quiet passed message).engines_eq hr
  rcases Session.mark_cases h with ⟨x, hx, -⟩ | ⟨x, hx, -⟩
  · cases hrecording : x.recording with
    | false => rw [Together.reportTo_refuses hx hrecording]
    | true =>
      rw [show reportTo e passed message s = _ from engine_bind hx _]
      dsimp only
      rw [if_pos hrecording]
      rcases hr : makeReport passed message s with ⟨f | r, t⟩
      · rw [bind_error hr]
        exact Session.mark_moved (congrArg (·[e]?) (hmake hr))
      · have ht : t.engines[e]? = some (.sync x) := (congrArg (·[e]?) (hmake hr)).trans hx
        have hsame : (x.addReport r).paused = x.paused := by
          unfold SyncEngine.addReport
          split <;> rfl
        rw [bind_ok hr, changeSync_apply ht, Session.mark_withEngine (Session.lt_of_engine ht),
          Session.mark_of_engine hx]
        exact congrArg some hsame
  · rw [show reportTo e passed message s = _ from engine_bind hx _]
    dsimp only
    rcases hr : makeReport passed message s with ⟨f | r, t⟩
    · rw [bind_error hr]
      exact Session.mark_moved (congrArg (·[e]?) (hmake hr))
    · have ht : t.engines[e]? = some (.item x) := (congrArg (·[e]?) (hmake hr)).trans hx
      rw [bind_ok hr, Session.mark_of_engine hx]
      exact Session.mark_withEngine (Session.lt_of_engine ht) _

end Marks

/-! ### Waits in progress -/

/-- Programs lead from `s₀` to a session in which the waits `W` on the engine `e` are in progress, the
innermost first, each told by the session in which it began. -/
inductive Timed (e : EngineId) (s₀ : Session) : List Session → Session → Prop
  | start : Timed e s₀ [] s₀
  /-- Anything else happens, which leaves the mark of the engine as it is. -/
  | other {W s t} : Timed e s₀ W s → t.mark e = s.mark e → Timed e s₀ W t
  /-- A wait begins. -/
  | pausing {W s t} : Timed e s₀ W s → pause e s = (.ok (), t) → Timed e s₀ (s :: W) t
  /-- The innermost wait ends. -/
  | resuming {W s t} : Timed e s₀ (s :: W) t → Timed e s₀ W (resume e t).2

namespace Timed

variable {e : EngineId} {s₀ s t : Session} {W B : List Session} {paused : Bool}

theorem append (h : Timed e s₀ W s) (h' : Timed e s B t) : Timed e s₀ (B ++ W) t := by
  induction h' with
  | start => exact h
  | other _ ht ih => exact ih.other ht
  | pausing _ hpause ih => exact ih.pausing hpause
  | resuming _ ih => exact ih.resuming

theorem moved (h : Timed e s₀ W s) (ht : t.engines[e]? = s.engines[e]?) : Timed e s₀ W t :=
  h.other (Session.mark_moved ht)

theorem marked (hs : s₀.mark e = some paused) (h : Timed e s₀ W t) : ∃ b, t.mark e = some b := by
  induction h with
  | start => exact ⟨paused, hs⟩
  | other _ ht ih => exact ht ▸ ih
  | @pausing W s t _ hpause ih =>
    obtain ⟨b, hb⟩ := ih
    cases b with
    | true => cases (pause_refused hb).symm.trans hpause
    | false =>
      obtain ⟨u, hu, hmark⟩ := pause_marks hb
      cases hu.symm.trans hpause
      exact ⟨true, hmark⟩
  | resuming _ ih =>
    obtain ⟨b, hb⟩ := ih
    exact ⟨false, (resume_marks hb).2⟩

/-- The engine is paused exactly while a wait is in progress, and then it is the only one. -/
theorem mark_eq (hs : s₀.mark e = some false) (h : Timed e s₀ W t) :
    t.mark e = some (!W.isEmpty) ∧ W.length ≤ 1 := by
  induction h with
  | start => exact ⟨hs, Nat.zero_le 1⟩
  | other _ ht ih => exact ⟨ht.trans ih.1, ih.2⟩
  | @pausing W s t _ hpause ih =>
    -- a pause succeeds only on an engine that is not paused, so no other wait is in progress
    cases W with
    | cons first rest => cases (pause_refused ih.1).symm.trans hpause
    | nil =>
      obtain ⟨u, hu, hmark⟩ := pause_marks ih.1
      cases hu.symm.trans hpause
      exact ⟨hmark, Nat.le_refl 1⟩
  | @resuming W s t _ ih =>
    obtain ⟨hmark, hlength⟩ := ih
    obtain rfl : W = [] := List.eq_nil_of_length_eq_zero (Nat.le_zero.mp (Nat.le_of_succ_le_succ hlength))
    exact ⟨(resume_marks hmark).2, Nat.zero_le 1⟩

/-- What leaves the mark as it is keeps the waits. -/
theorem keeps {α : Type} {a : Act α} (hs : s₀.mark e = some paused)
    (ha : ∀ t b, t.mark e = some b → (a t).2.mark e = t.mark e) :
    Alike (fun t t' => t = t' ∧ Timed e s₀ W t) a a := by
  rintro t _ ⟨rfl, h⟩
  obtain ⟨b, hb⟩ := h.marked hs
  exact ⟨rfl, rfl, h.other (ha t b hb)⟩

/-- What does nothing with engines leaves the waits in progress. -/
def building (e : EngineId) (s₀ : Session) : BuildAccord where
  World := List Session
  rel W t t' := t = t' ∧ Timed e s₀ W t
  same h := h.1 ▸ .refl _ False.elim
  memory h _ _ := ⟨by rw [h.1], h.2.moved rfl⟩
  scoping h _ := ⟨by rw [h.1], h.2.moved rfl⟩
  group {W t t' b} name h _ :=
    ⟨W, ⟨by rw [h.1], h.2.moved rfl⟩, trivial, fun u u' hu => ⟨by rw [hu.1], hu.2.moved rfl⟩⟩
  declare h _ _ _ := ⟨by rw [h.1], h.2.moved rfl⟩
  build {W t t'} h :=
    ⟨W, ⟨by rw [h.1], h.2.moved rfl⟩, trivial, fun u u' hu => ⟨by rw [hu.1], hu.2.moved rfl⟩⟩

section Accord

variable {call call' : Call} (hs : s₀.mark e = some paused)
include hs

/-- A wait begins and ends, or is refused. -/
theorem waitOn_alike
    (hc : ∀ W v args named, Alike ((building e s₀).rel W) (call v args named) (call' v args named))
    (ms body : Value) : Alike ((building e s₀).rel W) (waitOn call e ms body) (waitOn call' e ms body) := by
  rintro t _ ⟨rfl, h⟩
  unfold AlikeAt
  obtain ⟨b, hb⟩ := h.marked hs
  cases b with
  | true =>
    rw [waitOn_refused hb, waitOn_refused hb]
    exact ⟨rfl, rfl, h⟩
  | false =>
    obtain ⟨u, hpause, -⟩ := pause_marks hb
    rw [waitOn_paused hpause, waitOn_paused hpause]
    have hin : (building e s₀).rel (t :: W) u u := ⟨rfl, h.pausing hpause⟩
    have hwaited := waited_alike (building e s₀).same (building e s₀).memory (hc (t :: W)) ms body u u hin
    exact hwaited.ensuring fun v v' hv => ⟨congrArg (fun v => (resume e v).1) hv.1,
      congrArg (fun v => (resume e v).2) hv.1, hv.2.resuming⟩

/-- An engine that may only be reported to and waited on. -/
def accord : Accord (some (.handling e)) (some (.handling e)) where
  toBuildAccord := building e s₀
  twin _ a b := a = b ∧ a ≠ e
  odd _ a b := a = e ∧ b = e
  thread {W t t'} h :=
    ⟨W, ⟨by rw [h.1], h.2.moved rfl⟩, trivial, fun u u' hu => ⟨by rw [hu.1, h.1], hu.2.moved rfl⟩⟩
  current {W t t'} h := by
    obtain ⟨rfl, -⟩ := h
    cases ha : t.running with
    | none => exact .inl ⟨rfl, rfl⟩
    | some a =>
      refine .inr ⟨a, a, rfl, rfl, ?_⟩
      by_cases hae : a = e
      · exact .inr ⟨hae, hae⟩
      · exact .inl ⟨rfl, hae⟩
  run {W t t' a b} h ht := by
    obtain ⟨rfl, hne⟩ := ht
    exact ⟨W, ⟨by rw [h.1], h.2.moved rfl⟩, ⟨rfl, hne⟩, fun u u' hu => ⟨by rw [hu.1, h.1], hu.2.moved rfl⟩⟩
  fresh {W t t'} kind h := by
    obtain ⟨rfl, ht⟩ := h
    obtain ⟨b, hb⟩ := ht.marked hs
    have hne : t.engines.size ≠ e := Nat.ne_of_gt (Session.lt_of_mark hb)
    refine ⟨W, ⟨rfl, ht.moved ?_⟩, ⟨rfl, hne⟩, fun u u' hu => hu⟩
    rw [Session.adding, Array.getElem?_push, if_neg hne.symm]
  content h ht := by rw [h.1, ht.1]
  setting y h ht := by
    obtain ⟨rfl, hne⟩ := ht
    exact ⟨by rw [h.1], h.2.moved (Session.getElem?_withEngine_ne hne y)⟩
  free ht := by
    obtain ⟨rfl, hne⟩ := ht
    have hfree : (some (Bar.handling e)).map Bar.engine ≠ some _ := fun h => hne (Option.some.inj h).symm
    exact ⟨hfree, hfree⟩
  report passed message ho := by
    obtain ⟨rfl, rfl⟩ := ho
    exact keeps hs fun t b hb => reportTo_mark hb passed message
  pause ho := by
    obtain ⟨rfl, rfl⟩ := ho
    exact .refused fun t t' _ => ⟨handling_barred t _ _, handling_barred t' _ _⟩
  resume ho := by
    obtain ⟨rfl, rfl⟩ := ho
    exact .refused fun t t' _ => ⟨handling_barred t _ _, handling_barred t' _ _⟩
  wait ms body ho hc := by
    obtain ⟨rfl, rfl⟩ := ho
    exact waitOn_alike hs hc ms body
  setTitle title ho := by
    obtain ⟨rfl, rfl⟩ := ho
    exact keeps hs fun t b hb => setTitle_mark hb title
  declareGroup name setup teardown ho := by
    obtain ⟨rfl, rfl⟩ := ho
    exact keeps hs fun t b hb => declareGroup_mark hb name setup teardown
  runTest description body ho _ := by
    obtain ⟨rfl, rfl⟩ := ho
    exact .refused fun t t' _ => ⟨driving_barred rfl t _ _, driving_barred rfl t' _ _⟩
  specify name ho _ _ := by
    obtain ⟨rfl, rfl⟩ := ho
    exact .refused fun t t' _ => ⟨specifyOn_barred rfl t _ _ _, specifyOn_barred rfl t' _ _ _⟩

end Accord

/-! ### Programs -/

/-- The calls of procedures that run no tests on the engine `e`, and pause and resume it by waits only. -/
abbrev handsOff (e : EngineId) (depth : Nat) : Call := callWithin (some (.handling e)) depth

/-- From every session in which the waits `W` are in progress, and those that may have begun since,
the calls are the same. -/
def SameCalls (e : EngineId) (s₀ : Session) (W : List Session) (call call' : Call) : Prop :=
  ∀ B t, Timed e s₀ (B ++ W) t → ∀ v args named, call' v args named t = call v args named t

section Programs

variable (hs : s₀.mark e = some paused) (h : Timed e s₀ W t) (depth : Nat)
include hs h

theorem step (f : Frame) (p : Step) :
    Timed e s₀ W (Step.run (some (.handling e)) (handsOff e depth) f p t).2 :=
  ((accord hs).step_alike ((accord hs).callWithin_alike depth) f p False.elim t t ⟨rfl, h⟩).2.2

theorem call (v : Value) (args : List Value) (named : List (String × Value)) :
    Timed e s₀ W (handsOff e depth v args named t).2 :=
  ((accord hs).callWithin_alike depth W v args named t t ⟨rfl, h⟩).2.2

theorem tick (seconds : Value) : Timed e s₀ W (Act.tick (handsOff e depth) seconds t).2 :=
  (tick_alike (building e s₀).same (building e s₀).memory ((accord hs).callWithin_alike depth W) seconds
    t t ⟨rfl, h⟩).2.2

end Programs

section Calls

variable {depth : Nat} {call' : Call} (hs : s₀.mark e = some paused) (h : Timed e s₀ W t)
  (hc : SameCalls e s₀ W (handsOff e depth) call')
include hs h hc

/-- Seen from `t`, the waits `W` are around everything, and only later ones are in progress. -/
theorem calls_alike : (building e t).Calls call' (handsOff e depth) := by
  obtain ⟨b, hb⟩ := h.marked hs
  exact (building e t).calls_of_same (·.1) ((accord hb).callWithin_alike depth) fun B u hu =>
    hc B u (h.append hu.2)

/-- A step makes its calls while the waits around it are in progress. -/
theorem step_calls (f : Frame) (p : Step) : Step.run (some (.handling e)) call' f p t =
    Step.run (some (.handling e)) (handsOff e depth) f p t := by
  obtain ⟨b, hb⟩ := h.marked hs
  obtain ⟨hr, ht⟩ := (accord hb).step_alike (h.calls_alike hs hc) f p False.elim t t ⟨rfl, .start⟩
  exact Prod.ext hr ht.1

/-- So does a wait after its pause. -/
theorem waited_calls (ms body : Value) : waited call' ms body t = waited (handsOff e depth) ms body t := by
  obtain ⟨hr, ht⟩ := waited_alike (building e t).same (building e t).memory (h.calls_alike hs hc []) ms body
    t t ⟨rfl, .start⟩
  exact Prod.ext hr ht.1

end Calls

end Timed

/-! ### One wait -/

/-- What a wait calls. -/
inductive WaitCall
  | clock (seconds : Value)
  | callback

/-- How a wait goes on after its pause: its calls, in order and with the sessions they are made in, its
outcome, and where it is to end. -/
inductive Act.Waits (call : Call) (ms body : Value) (t : Session) :
    List (WaitCall × Session) → Except Failure Unit → Session → Prop
  /-- There is no quotient. -/
  | undefined {f u} : quotient ms 1000 t = (.error f, u) → Waits call ms body t [] (.error f) u
  /-- The clock fails. -/
  | clockFails {seconds u f v} : quotient ms 1000 t = (.ok seconds, u) → tick call seconds u = (.error f, v) →
      Waits call ms body t [(.clock seconds, u)] (.error f) v
  | calls {seconds u v} : quotient ms 1000 t = (.ok seconds, u) → tick call seconds u = (.ok (), v) →
      Waits call ms body t [(.clock seconds, u), (.callback, v)]
        ((call body [] [] v).1.map fun _ => ()) (call body [] [] v).2

theorem Act.Waits.exists_of_call (call : Call) (ms body : Value) (t : Session) :
    ∃ calls outcome u, Waits call ms body t calls outcome u ∧ waited call ms body t = (outcome, u) := by
  rcases hquotient : quotient ms 1000 t with ⟨f | seconds, u⟩
  · exact ⟨_, _, _, .undefined hquotient, bind_error hquotient⟩
  · rcases htick : tick call seconds u with ⟨f | ⟨⟩, v⟩
    · exact ⟨_, _, _, .clockFails hquotient htick, (bind_ok hquotient).trans (bind_error htick)⟩
    · refine ⟨_, _, _, .calls hquotient htick, ((bind_ok hquotient).trans (bind_ok htick)).trans ?_⟩
      exact call_one call body v

theorem Timed.waits {e : EngineId} {s₀ t u : Session} {W : List Session} {paused : Bool} {depth : Nat}
    {ms body : Value} {calls : List (WaitCall × Session)} {outcome : Except Failure Unit}
    (hs : s₀.mark e = some paused) (h : Timed e s₀ W t)
    (hw : Waits (handsOff e depth) ms body t calls outcome u) :
    (∀ c ∈ calls, Timed e s₀ W c.2) ∧ Timed e s₀ W u := by
  have hquiet : ∀ {r v}, quotient ms 1000 t = (r, v) → Timed e s₀ W v :=
    fun hq => h.moved (congrArg (·[e]?) ((quotient_quiet ms 1000).engines_eq hq))
  cases hw with
  | undefined hquotient => exact ⟨fun c hc => absurd hc List.not_mem_nil, hquiet hquotient⟩
  | @clockFails seconds _ _ _ hquotient htick =>
    have hticked := Timed.tick hs (hquiet hquotient) depth seconds
    rw [htick] at hticked
    exact ⟨List.forall_mem_singleton.mpr (hquiet hquotient), hticked⟩
  | @calls seconds _ _ hquotient htick =>
    have hticked := Timed.tick hs (hquiet hquotient) depth seconds
    rw [htick] at hticked
    exact ⟨List.forall_mem_cons.mpr ⟨hquiet hquotient, List.forall_mem_singleton.mpr hticked⟩,
      hticked.call hs depth body [] []⟩

/-! ### Tests -/

namespace Called

/-- `P` holds where each call is made, and in the end. -/
structure Keeps (P : Session → Prop) (a : Called) : Prop where
  calls : ∀ c ∈ a.calls, P c.2
  session : P a.session

/-- All these calls go the same if the engine `e` refuses to run tests, and to be paused or resumed but
by waits: nothing that runs in them does so. -/
def HandsOff (e : EngineId) (depth : Nat) (a : Called) : Prop :=
  ∀ c ∈ a.calls, Timed.handsOff e depth c.1 [] [] c.2 = callWithin none depth c.1 [] [] c.2

section Keeps

variable {P : Session → Prop} {e : EngineId} {depth : Nat} {a : Called} {next : Session → Called} {s : Session}

theorem andThen_keeps (hoff : (a.andThen next).HandsOff e depth) (ha : a.HandsOff e depth → a.Keeps P)
    (hnext : ∀ s, P s → (next s).HandsOff e depth → (next s).Keeps P) : (a.andThen next).Keeps P := by
  cases ho : a.outcome with
  | error f =>
    rw [andThen_error ho] at hoff ⊢
    exact ha hoff
  | ok u =>
    rw [andThen_ok ho] at hoff ⊢
    obtain ⟨hcalls, hend⟩ := ha fun c hc => hoff c (List.mem_append_left _ hc)
    obtain ⟨hlater, hlast⟩ := hnext _ hend fun c hc => hoff c (List.mem_append_right _ hc)
    exact ⟨List.forall_mem_append.mpr ⟨hcalls, hlater⟩, hlast⟩

theorem ensuring_keeps (hoff : (a.ensuring next).HandsOff e depth) (ha : a.HandsOff e depth → a.Keeps P)
    (hnext : ∀ s, P s → (next s).HandsOff e depth → (next s).Keeps P) : (a.ensuring next).Keeps P := by
  obtain ⟨hcalls, hend⟩ := ha fun c hc => hoff c (List.mem_append_left _ hc)
  obtain ⟨hlater, hlast⟩ := hnext _ hend fun c hc => hoff c (List.mem_append_right _ hc)
  exact ⟨List.forall_mem_append.mpr ⟨hcalls, hlater⟩, hlast⟩

variable (hP : ∀ s v, P s → P (Timed.handsOff e depth v [] [] s).2)
include hP

theorem one_keeps {v : Value} (hs : P s) (hoff : (one (callWithin none depth) v s).HandsOff e depth) :
    (one (callWithin none depth) v s).Keeps P := by
  have hsame := hoff (v, s) List.mem_cons_self
  have hend := hP s v hs
  rw [hsame] at hend
  exact ⟨List.forall_mem_singleton.mpr hs, hend⟩

theorem each_keeps {vs : List Value} (hs : P s)
    (hoff : (each (callWithin none depth) vs s).HandsOff e depth) :
    (each (callWithin none depth) vs s).Keeps P := by
  induction vs generalizing s with
  | nil => exact ⟨fun c hc => absurd hc List.not_mem_nil, hs⟩
  | cons v rest ih => exact andThen_keeps hoff (one_keeps hP hs) fun t ht => ih ht

theorem hook_keeps (k : Hook) (hs : P s) (hoff : (hook (callWithin none depth) k s).HandsOff e depth) :
    (hook (callWithin none depth) k s).Keeps P := by
  rw [hook_eq] at hoff ⊢
  exact each_keeps hP hs hoff

/-- What hands-off calls keep is kept by a test of such calls. -/
theorem wrapped_keeps {setup teardown : Hook} {body : Value} (hs : P s)
    (hoff : (wrapped (callWithin none depth) setup body teardown s).HandsOff e depth) :
    (wrapped (callWithin none depth) setup body teardown s).Keeps P :=
  andThen_keeps hoff (hook_keeps hP setup hs) fun _ ht hoff =>
    ensuring_keeps hoff (one_keeps hP ht) fun _ hu => hook_keeps hP teardown hu

end Keeps

end Called

/-! ### Tests that wait -/

/-- Wherever programs lead from `s₀` that run no tests on the engine `e`, and pause and resume it by
waits only, one wait on it at most is in progress. -/
structure Session.WaitsSingly (s₀ : Session) (e : EngineId) (depth : Nat) : Prop where
  /-- The engine is paused exactly while a wait is in progress. -/
  marked : ∀ {W t}, Timed e s₀ W t → t.mark e = some (!W.isEmpty) ∧ W.length ≤ 1
  /-- The waits that a step begins have ended when it ends, and those around it go on meanwhile. -/
  step : ∀ {W t}, Timed e s₀ W t → ∀ f p,
    Timed e s₀ W (Step.run (some (.handling e)) (Timed.handsOff e depth) f p t).2 ∧
    ∀ call', Timed.SameCalls e s₀ W (Timed.handsOff e depth) call' →
      Step.run (some (.handling e)) call' f p t =
        Step.run (some (.handling e)) (Timed.handsOff e depth) f p t
  call : ∀ {W t}, Timed e s₀ W t → ∀ v args named, Timed e s₀ W (Timed.handsOff e depth v args named t).2
  /-- A wait while another is in progress calls nothing, and the other goes on. -/
  refuses : ∀ {W t}, Timed e s₀ W t → W ≠ [] → t.running = some e → ∀ call ms body,
    wait call ms body t = (.error (.misuse .nestedWait none), t)
  /-- Any other wait makes its calls while it is in progress, and however it ends, the engine is not
  paused any more. -/
  waits : ∀ {t}, Timed e s₀ [] t → t.running = some e → ∀ ms body, ∃ u calls outcome v,
    pause e t = (.ok (), u) ∧ Waits (Timed.handsOff e depth) ms body u calls outcome v ∧
    (∀ c ∈ calls, Timed e s₀ [t] c.2) ∧ Timed e s₀ [t] v ∧ (resume e v).2.mark e = some false ∧
    ∀ call', Timed.SameCalls e s₀ [t] (Timed.handsOff e depth) call' →
      wait call' ms body t = (outcome, (resume e v).2)

theorem Session.waitsSingly {s₀ : Session} {e : EngineId} (hs : s₀.mark e = some false) (depth : Nat) :
    s₀.WaitsSingly e depth where
  marked h := h.mark_eq hs
  step h f p := ⟨h.step hs depth f p, fun call' hc => h.step_calls hs hc f p⟩
  call h := h.call hs depth
  refuses {W t} h hW hr call ms body := by
    have hmark : t.mark e = some true := by
      rw [(h.mark_eq hs).1, List.isEmpty_eq_false_iff.mpr hW]
      rfl
    rw [wait, bind_ok (currentEngine_some hr), waitOn_refused hmark]
  waits {t} h hr ms body := by
    obtain ⟨u, hpause, -⟩ := pause_marks (h.mark_eq hs).1
    have hin : Timed e s₀ [t] u := h.pausing hpause
    obtain ⟨calls, outcome, v, hwaits, hrun⟩ := Waits.exists_of_call (Timed.handsOff e depth) ms body u
    obtain ⟨hcalls, hv⟩ := hin.waits hs hwaits
    obtain ⟨hresumed, hmark⟩ := resume_marks (hv.mark_eq hs).1
    refine ⟨u, calls, outcome, v, hpause, hwaits, hcalls, hv, hmark, fun call' hc => ?_⟩
    rw [wait, bind_ok (currentEngine_some hr), waitOn_paused hpause, ensuring_apply,
      hin.waited_calls hs hc, hrun, hresumed]

/-- Tests on a synchronous engine, and items, with any waits in their hooks, bodies and callbacks. From
where an engine is not paused, programs wait on it singly: it is paused exactly while a wait is in
progress, a further wait is refused meanwhile, and any other wait calls the clock, then its callback if
the clock returned, and ends with the engine unpaused. Every test and every item begins on an engine
that is not paused, and if none of its calls runs tests on it, or pauses or resumes it but by waits,
then each begins and ends with no wait in progress. Every test of a run finds the engine unpaused,
whatever the tests before it did. -/
theorem paused_while_waiting (e : EngineId) (depth : Nat) :
    (∀ s₀ : Session, s₀.mark e = some false → s₀.WaitsSingly e depth) ∧
    (∀ {x s}, s.engines[e]? = some (.sync x) → x.paused = false → ∀ description body,
      let call := callWithin none depth
      (s.begun e).mark e = some false ∧ ∃ before after z y, TestCourse call e x body s before after z y ∧
        let test := Called.wrapped call x.setup body z.teardown (s.begun e)
        runTest call e description body s = concluding e description test.outcome test.session ∧
        (test.HandsOff e depth → test.Keeps (Timed e (s.begun e) []))) ∧
    (∀ (i : Item) (s : Session), s.engines.size = e → (s.itemSession false).mark e = some false ∧
      let test := i.calls call (s.itemSession false)
      (runItem i s).2 = test.session.withRunning s.running ∧
      (test.HandsOff e callDepth → test.Keeps (Timed e (s.itemSession false) []))) ∧
    ∀ s, Used e s → ∀ title {fn : BuilderFunction}, fn.Programmed → ∀ statements,
      let built := (buildForest fn (setTitle e title s).2).2
      ∃ x, (performAll (callWithin none depth) e statements (built.withRunning (some e))).2.engines[e]? =
        some (.sync x) ∧ x.paused = false := by
  refine ⟨fun s₀ hs => Session.waitsSingly hs depth, fun {x s} hx hpaused description body => ?_,
    fun i s he => ?_, fun s hs title fn hfn statements => ?_⟩
  · have hmark : (s.begun e).mark e = some false := by
      rw [Session.mark_of_engine (Session.begun_engine hx), ← hpaused]
      rfl
    obtain ⟨before, after, z, y, h⟩ := TestCourse.exists_of_engine hx depth body
    refine ⟨hmark, before, after, z, y, h, ?_, fun hoff => ?_⟩
    · rw [runTest_apply hx, h.inTest_calls hx]
    · exact Called.wrapped_keeps (fun t v ht => ht.call hmark depth v [] []) .start hoff
  · subst he
    have hmark : (s.itemSession false).mark s.engines.size = some false :=
      Session.mark_of_engine (x := .item {}) Array.getElem?_push_size
    refine ⟨hmark, runItem_session rfl, fun hoff => ?_⟩
    exact Called.wrapped_keeps (fun t v ht => ht.call hmark callDepth v [] []) .start hoff
  · obtain ⟨hrests, hr⟩ := hs.rests
    have hbuilt := hrests.built (fun he => (hr e he).2 rfl) title hfn
    obtain ⟨x, hx, hrested⟩ := Session.Rests.performedAll (s := Session.withRunning _ (some e)) hbuilt depth statements
    exact ⟨x, hx, hrested.paused⟩

/-- A procedure of the first builder. -/
def builderScript (steps : List Step) : Cell := .procedure (.script none steps (some 0))

/-- In the callback of a wait, a further wait. -/
def nestedWait : List Step := [.wait none (.int 1) (.script none [])]

def outerWait : List Step := [.wait none (.int 1500) (.script none nestedWait)]

/-- A test is to wait on the engine `x`. -/
def Session.waiting (x : Engine) : Session where
  heap := { cells := #[builderScript outerWait] }
  engines := #[x]
  running := some 0

/-- The objects when the clock is called. -/
def Heap.delayed : Heap where
  cells := #[builderScript outerWait, builderScript nestedWait, .float (Binary64.ofRatio false 1500 1000)]

def Session.waited (x : Engine) : Session :=
  { Session.waiting x with
    heap := { cells := Heap.delayed.cells.push (builderScript []) }
    log := [⟨.delayed, .clock (.object 2)⟩] }

section Waiting

variable {x : Engine} (hx : x = .sync (SyncEngine.begin {}) ∨ x = .item {})
include hx

theorem Session.waiting_call (barred : Option Bar) : callWithin barred callDepth (.object 0) [] [] (.waiting x) =
    (.error (.misuse .nestedWait none), .waited x) := by
  rcases hx with rfl | rfl <;> rfl

theorem Session.waiting_handsOff :
    (Called.wrapped call (.procedure .noop) (.object 0) (.procedure .noop) (.waiting x)).HandsOff 0 callDepth := by
  have hbody : Called.one call (.object 0) (.waiting x) =
      ⟨[(.object 0, .waiting x)], .error (.misuse .nestedWait none), .waited x⟩ := by
    have hcall : call (.object 0) [] [] (.waiting x) = _ := waiting_call hx none
    rw [Called.one, hcall]
    rfl
  have hnoop : ∀ t, Called.one call .noop t = ⟨[(.noop, t)], .ok (), t⟩ := fun _ => rfl
  rw [Called.wrapped, Called.hook, hnoop, Called.andThen_ok rfl, hbody]
  have hsame : ∀ t, Timed.handsOff 0 callDepth .noop [] [] t = call .noop [] [] t :=
    fun t => (callWithin_noop _ 199 t).trans (callWithin_noop none 199 t).symm
  refine List.forall_mem_cons.mpr ⟨hsame _, List.forall_mem_cons.mpr ⟨?_, List.forall_mem_singleton.mpr (hsame _)⟩⟩
  exact (waiting_call hx _).trans (waiting_call hx none).symm

end Waiting

/-- The item of the test. -/
def Item.waiting : Item where
  id := "m::spec::g::x"
  group := { name := "g", setup := .procedure .noop, teardown := .procedure .noop }
  test := { description := "x", body := .object 0 }

/-- The wait in the callback is refused and ends the test, which leaves the engine unpaused, be it run
on a synchronous engine or as an item. -/
theorem paused_while_waiting_nested :
    let s := Session.waiting (.sync {})
    let idle := { s with engines := #[], running := none }
    (∃ t, pause 0 (s.begun 0) = (.ok (), t) ∧ t.mark 0 = some true ∧
      ∀ call ms body, wait call ms body t = (.error (.misuse .nestedWait none), t)) ∧
    (∃ before after z y, TestCourse call 0 {} (.object 0) s before after z y ∧
      (Called.wrapped call (.procedure .noop) (.object 0) z.teardown (s.begun 0)).session.mark 0 =
        some false) ∧
    (Item.waiting.calls call (idle.itemSession false)).session.mark 0 = some false := by
  intro s idle
  obtain ⟨hsingly, htests, hitems, -⟩ := paused_while_waiting 0 callDepth
  obtain ⟨hmark, before, after, z, y, h, -, htest⟩ := htests (s := s) rfl rfl (.text "x") (.object 0)
  obtain ⟨hmark', -, hitem⟩ := hitems .waiting idle rfl
  have hwaits := hsingly (s.begun 0) hmark
  obtain ⟨t, calls, outcome, v, hpause, -⟩ := hwaits.waits .start rfl (.int 1500) .null
  have hin : Timed 0 (s.begun 0) [s.begun 0] t := .pausing .start hpause
  have hr : t.running = some 0 := by
    cases hpause
    rfl
  have hran : (Called.one call (.object 0) (Called.hook call (.procedure .noop) (s.begun 0)).session).session =
      .waited (.sync (SyncEngine.begin {})) := congrArg Prod.snd (Session.waiting_call (.inl rfl) none)
  have hz : some (Engine.sync (SyncEngine.begin {})) = some (.sync z) :=
    (congrArg (·.engines[0]?) hran).symm.trans (h.atBody rfl)
  obtain rfl := Engine.sync.inj (Option.some.inj hz)
  refine ⟨⟨t, hpause, (hwaits.marked hin).1, hwaits.refuses hin (List.cons_ne_nil _ _) hr⟩,
    ⟨before, after, _, y, h, ?_⟩, ?_⟩
  · exact (hwaits.marked (htest (Session.waiting_handsOff (.inl rfl))).session).1
  · exact ((hsingly _ hmark').marked (hitem (Session.waiting_handsOff (.inr rfl))).session).1

end Exemplar
