import Exemplar.Proofs.Later
import Exemplar.Proofs.Unseen

/-! What is around a program, and how it is restored.

The current build, the current engine and the cursors of the builds are the `Surroundings` of a
session. Four activities change them: a group is described, a specification is built, a thread
runs, and statements are executed. `Amid s A t` says that programs lead from `s` to `t` while the
activities `A` are still going on, the innermost first, each beside the session it began in.

Whatever a program does, and however it ends, its surroundings are restored, and meanwhile
reports go to the engine of the innermost execution of the thread (`amid_surroundings`). -/
namespace Exemplar

open Act

@[ext]
structure Surroundings where
  building : Option BuildId
  running : Option EngineId
  cursor : BuildId → Option NodeId

def Session.surroundings (s : Session) : Surroundings :=
  ⟨s.building, s.running, fun b => (s.build b).cursor⟩

/-! ### Activities -/

inductive Activity
  | describing (b : BuildId) (name : Value)
  | building
  | threading
  /-- Statements are executed on an engine. -/
  | executing (e : EngineId)

namespace Activity

/-- Groups are described in the build that is current. -/
def Allowed (s : Session) : Activity → Prop
  | describing b _ => s.building = some b
  | _ => True

/-- The activity begins. -/
def enter (s : Session) : Activity → Session
  | describing b name => s.opened b name
  | building => s.entering
  | threading => (s.withBuilding none).withRunning none
  | executing e => s.withRunning (some e)

/-- The activity that began in `t` ends. -/
def leave (t s : Session) : Activity → Session
  | describing b _ => s.withCursor b (t.build b).cursor
  | building => s.withBuilding t.building
  | threading => (s.withRunning t.running).withBuilding t.building
  | executing _ => s.withRunning t.running

/-- The engine that receives reports while the activities go on: that of the innermost execution
of the thread. Building and describing leave it as it is, and a thread begins without one. -/
def reporting (outer : Option EngineId) : List Activity → Option EngineId
  | [] => outer
  | executing e :: _ => some e
  | threading :: _ => none
  | _ :: rest => reporting outer rest

end Activity

theorem Session.cursor_opened (s : Session) (b : BuildId) (name : Value) (b' : BuildId) :
    ((s.opened b name).build b').cursor =
      if b = b' ∧ b' < s.builds.size then some (s.nextNode b name) else (s.build b').cursor := by
  rw [opened, build_modify]
  split <;> rfl

theorem Session.cursor_withCursor (s : Session) (b : BuildId) (cursor : Option NodeId) (b' : BuildId) :
    ((s.withCursor b cursor).build b').cursor =
      if b = b' ∧ b' < s.builds.size then cursor else (s.build b').cursor := by
  rw [build_withCursor]
  split <;> rfl

/-- Closing a group puts its cursor back, and there is no cursor in a build that there is not. -/
theorem Session.cursor_closed {s t : Session} {b : BuildId} {name : Value}
    (h : ∀ b', (s.build b').cursor = ((t.opened b name).build b').cursor) (b' : BuildId) :
    ((s.withCursor b (t.build b).cursor).build b').cursor = (t.build b').cursor := by
  have hb := h b'
  rw [cursor_opened] at hb
  rw [cursor_withCursor]
  by_cases hne : b = b'
  · subst hne
    by_cases hs : b < s.builds.size
    · rw [if_pos ⟨rfl, hs⟩]
    · rw [if_neg fun hc => hs hc.2, hb, if_neg]
      rintro ⟨-, ht⟩
      rw [if_pos ⟨rfl, ht⟩] at hb
      exact hs (lt_of_cursor hb)
  · rw [if_neg fun hc => hne hc.1] at hb ⊢
    exact hb

theorem Session.surroundings_declaring (s : Session) (b : BuildId) (n : NodeId) (d : Declaration) :
    (s.declaring b n d).surroundings = s.surroundings := by
  refine Surroundings.ext rfl rfl (funext fun b' => ?_)
  show ((s.declaring b n d).build b').cursor = (s.build b').cursor
  rw [declaring, build_modify]
  split <;> rfl

/-- An activity that ends in the surroundings it made restores those it began in. -/
theorem Activity.leave_surroundings {a : Activity} {s t : Session}
    (h : s.surroundings = (a.enter t).surroundings) :
    (a.leave t s).surroundings = t.surroundings := by
  have hbuilding := congrArg Surroundings.building h
  have hrunning := congrArg Surroundings.running h
  have hcursor := congrArg Surroundings.cursor h
  cases a with
  | describing b name =>
    exact Surroundings.ext hbuilding hrunning (funext (Session.cursor_closed (congrFun hcursor)))
  | building =>
    have hentering := funext fun b => congrArg Build.cursor (t.build_entering b)
    exact Surroundings.ext rfl hrunning (hcursor.trans hentering)
  | threading => exact Surroundings.ext rfl rfl hcursor
  | executing e => exact Surroundings.ext hbuilding rfl hcursor

/-! ### In the midst of activities -/

inductive Amid (s₀ : Session) : List (Activity × Session) → Session → Prop
  | start : Amid s₀ [] s₀
  | memory {A s m} : Amid s₀ A s → s.heap.Kept m.heap → Amid s₀ A { s with toMemory := m }
  | engines {A s} (engines : Array Engine) : Amid s₀ A s → Amid s₀ A { s with engines }
  | declare {A s b n d} : Amid s₀ A s → s.building = some b → (s.build b).cursor = some n →
      d.Allowed s.heap → Amid s₀ A (s.declaring b n d)
  | enter {A s} (a : Activity) : Amid s₀ A s → a.Allowed s → Amid s₀ ((a, s) :: A) (a.enter s)
  | leave {A s a t} : Amid s₀ ((a, t) :: A) s → Amid s₀ A (a.leave t s)

namespace Amid

variable {s₀ s t : Session} {A B : List (Activity × Session)}

theorem append (h : Amid s₀ A s) (h' : Amid s B t) : Amid s₀ (B ++ A) t := by
  induction h' with
  | start => exact h
  | memory _ hk ih => exact ih.memory hk
  | engines engines _ ih => exact ih.engines engines
  | declare _ hb hn hd ih => exact ih.declare hb hn hd
  | enter a _ ha ih => exact ih.enter a ha
  | leave _ ih => exact ih.leave

/-- The surroundings that the innermost activity made. -/
def around (s₀ : Session) : List (Activity × Session) → Surroundings
  | [] => s₀.surroundings
  | (a, t) :: _ => (a.enter t).surroundings

/-- Each activity began in the surroundings that the one around it made. -/
def Nested (s₀ : Session) : List (Activity × Session) → Prop
  | [] => True
  | (_, t) :: rest => t.surroundings = around s₀ rest ∧ Nested s₀ rest

/-- No other thing that programs do changes the surroundings. -/
theorem nested (h : Amid s₀ A s) : s.surroundings = around s₀ A ∧ Nested s₀ A := by
  induction h with
  | start => exact ⟨rfl, trivial⟩
  | memory _ _ ih | engines _ _ ih => exact ih
  | @declare A s b n d _ _ _ _ ih =>
    exact ⟨(s.surroundings_declaring b n d).trans ih.1, ih.2⟩
  | enter a _ _ ih => exact ⟨rfl, ih.1, ih.2⟩
  | leave _ ih =>
    obtain ⟨hs, ht, hrest⟩ := ih
    exact ⟨(Activity.leave_surroundings hs).trans ht, hrest⟩

/-- When all activities have ended, the surroundings are those of the beginning. -/
theorem restored (h : Amid s [] t) : t.surroundings = s.surroundings := h.nested.1

/-- The innermost activity would restore the surroundings it began in. -/
theorem leave_surroundings {a : Activity} (h : Amid s₀ ((a, t) :: A) s) :
    (a.leave t s).surroundings = t.surroundings := Activity.leave_surroundings h.nested.1

theorem running_around (h : Nested s₀ A) :
    (around s₀ A).running = Activity.reporting s₀.running (A.map (·.1)) := by
  induction A with
  | nil => rfl
  | cons head rest ih =>
    obtain ⟨a, t⟩ := head
    obtain ⟨ht, hrest⟩ := h
    have hrunning : t.running = _ := (congrArg Surroundings.running ht).trans (ih hrest)
    cases a with
    | describing | building => exact hrunning
    | threading | executing => rfl

/-- The current engine is that of the innermost execution of the thread. -/
theorem running (h : Amid s₀ A s) : s.running = Activity.reporting s₀.running (A.map (·.1)) := by
  obtain ⟨hs, hnested⟩ := h.nested
  exact (congrArg Surroundings.running hs).trans (running_around hnested)

/-- Programs only begin and end activities: an accord of a run with itself. -/
def accord (s : Session) : Accord none none where
  World := List (Activity × Session)
  rel A t t' := t = t' ∧ Amid s A t
  twin _ e e' := e = e'
  odd _ _ _ := False
  same h := h.1 ▸ .refl _ False.elim
  memory h hk _ := ⟨by rw [h.1], h.2.memory hk⟩
  scoping h _ := ⟨by rw [h.1], h.2.memory (.refl _)⟩
  group {A t t' b} name h hb := by
    obtain ⟨rfl, h⟩ := h
    have hin := h.enter (.describing b name) hb
    refine ⟨(.describing b name, t) :: A, ⟨rfl, hin⟩, trivial, fun u u' hu => ?_⟩
    exact ⟨by rw [hu.1], hu.2.leave⟩
  declare h hb hn hd := ⟨by rw [h.1], h.2.declare hb hn hd⟩
  build {A t t'} h := by
    obtain ⟨rfl, h⟩ := h
    refine ⟨(.building, t) :: A, ⟨rfl, h.enter .building trivial⟩, trivial, fun u u' hu => ?_⟩
    exact ⟨by rw [hu.1], hu.2.leave⟩
  thread {A t t'} h := by
    obtain ⟨rfl, h⟩ := h
    refine ⟨(.threading, t) :: A, ⟨rfl, h.enter .threading trivial⟩, trivial, fun u u' hu => ?_⟩
    exact ⟨by rw [hu.1], hu.2.leave⟩
  current {A t t'} h := by
    obtain ⟨rfl, -⟩ := h
    cases he : t.running with
    | none => exact .inl ⟨rfl, rfl⟩
    | some e => exact .inr ⟨e, e, rfl, rfl, .inl rfl⟩
  run {A t t' e e'} h ht := by
    obtain ⟨rfl, h⟩ := h
    obtain rfl := ht
    refine ⟨(.executing e, t) :: A, ⟨rfl, h.enter (.executing e) trivial⟩, rfl, fun u u' hu => ?_⟩
    exact ⟨by rw [hu.1], hu.2.leave⟩
  fresh {A t t'} kind h := by
    obtain ⟨rfl, h⟩ := h
    exact ⟨A, ⟨rfl, h.engines _⟩, rfl, fun u u' hu => hu⟩
  content h ht := by rw [h.1, ht]
  setting x h ht := ⟨by rw [h.1, ht], h.2.engines _⟩
  free _ := ⟨nofun, nofun⟩
  report _ _ h := h.elim
  pause h := h.elim
  resume h := h.elim
  wait _ _ h := h.elim
  setTitle _ h := h.elim
  declareGroup _ _ _ h := h.elim
  runTest _ _ h _ := h.elim
  specify _ h _ _ := h.elim

/-! ### Programs -/

section Programs

variable (s : Session) (depth : Nat) {fn : BuilderFunction}

theorem step (f : Frame) (p : Step) : Amid s [] (Step.run none (callWithin none depth) f p s).2 :=
  ((accord s).step_alike ((accord s).callWithin_alike depth) f p False.elim s s ⟨rfl, .start⟩).2.2

theorem describe (b : BuildId) (name body : Value) :
    Amid s [] (Act.describe (callWithin none depth) b name body s).2 :=
  ((accord s).describe_alike ((accord s).callWithin_alike depth) b name body s s ⟨rfl, .start⟩).2.2

theorem build (hfn : fn.Programmed) : Amid s [] (buildForest fn s).2 :=
  (hfn.build_alike (A := accord s) ⟨id, Nat.zero_le⟩ s s ⟨rfl, .start⟩).2.2

theorem run (hfn : fn.Programmed) (title : Value) (e : EngineId) :
    Amid s [] (runSpecification (callWithin none depth) title fn e s).2 := by
  have hcalls := (accord s).callWithin_alike depth
  have htotal : (accord s).Total := ⟨id, Nat.zero_le⟩
  exact ((accord s).runSpecification_alike (e := e) hcalls rfl title False.elim (htotal.2 _)
    (hfn.body_alike htotal) s s ⟨rfl, .start⟩).2.2

end Programs

/-- From every session in the midst of `A`, and of what may have begun since, the calls are the same. -/
def SameCalls (s₀ : Session) (A : List (Activity × Session)) (call call' : Call) : Prop :=
  ∀ B t, Amid s₀ (B ++ A) t → ∀ v args named, call' v args named t = call v args named t

section Calls

variable {depth : Nat} {call' : Call} (h : Amid s₀ A s)
include h

theorem calls_alike (hc : SameCalls s₀ A (callWithin none depth) call') :
    (accord s).Calls call' (callWithin none depth) :=
  (accord s).calls_of_same (·.1) ((accord s).callWithin_alike depth) fun B t ht => hc B t (h.append ht.2)

/-- Steps call procedures in the midst of activities only. -/
theorem step_calls (hc : SameCalls s₀ A (callWithin none depth) call') (f : Frame) (p : Step) :
    Step.run none call' f p s = Step.run none (callWithin none depth) f p s := by
  obtain ⟨hr, ht⟩ := (accord s).step_alike (h.calls_alike hc) f p False.elim s s ⟨rfl, .start⟩
  exact Prod.ext hr ht.1

/-- Statements are executed in the midst of their execution. -/
theorem run_calls {fn : BuilderFunction} (hfn : fn.Programmed) (title : Value) (e : EngineId)
    (hc : ∀ t, SameCalls s₀ ((.executing e, t) :: A) (callWithin none depth) call') :
    runSpecification call' title fn e s = runSpecification (callWithin none depth) title fn e s := by
  have htitle := (accord s).setTitle_alike (w := []) (e := e) rfl title
  have hbuild : Alike ((accord s).rel []) (buildForest fn) (buildForest fn) :=
    hfn.build_alike ⟨id, Nat.zero_le⟩
  suffices AlikeAt Eq (runSpecification call' title fn e)
      (runSpecification (callWithin none depth) title fn e) s s from Prod.ext this.1 this.2
  refine (htitle s s ⟨rfl, .start⟩).bind_into (fun _ _ ht => ht.1) fun _ t t' ht => ?_
  refine (hbuild t t' ht).bind_into (fun _ _ ht => ht.1) fun b t t' ht => ?_
  refine ((accord s).quiet (compile_quiet b) t t' ht).bind_into (fun _ _ ht => ht.1)
    fun statements t t' ht => ?_
  obtain ⟨rfl, ht⟩ := ht
  have hin := (h.append ht).enter (.executing e) trivial
  have hperformed := (accord _).performAll_alike (w := []) (e := e) (hin.calls_alike (hc t)) rfl statements
  have hended : ∀ u u', (accord (t.withRunning (some e))).rel [] u u' →
      AlikeAt Eq (modify (·.withRunning t.running) : Act Unit) (modify (·.withRunning t.running)) u u' :=
    fun u u' hu => ⟨rfl, congrArg (·.withRunning t.running) hu.1⟩
  exact (hperformed _ _ ⟨rfl, .start⟩).ensuring hended

end Calls

section Builders

variable {style : Style} {saveAs : Option String} {module : ModuleId} {body body' : Frame → Act Unit}

theorem invoke_body (h : Amid s₀ A s) (hb : ∀ f t, Amid s₀ A t → body' f t = body f t) (b : BuildId) :
    Act.invoke ⟨style, saveAs, module, body'⟩ b s = Act.invoke ⟨style, saveAs, module, body⟩ b s := by
  suffices AlikeAt Eq (Act.invoke ⟨style, saveAs, module, body'⟩ b)
      (Act.invoke ⟨style, saveAs, module, body⟩ b) s s from Prod.ext this.1 this.2
  have hmerge := (accord s).mergeVerbs_alike (w := []) (Nat.zero_le module) b
  have hvisible := (accord s).quiet (w := []) (visibleBuilder_quiet ⟨style, saveAs, module, body⟩ b)
  refine (hmerge s s ⟨rfl, .start⟩).bind_into (fun _ _ ht => ht.1) fun _ t t' ht => ?_
  refine (hvisible t t' ht).bind_into (fun _ _ ht => ht.1) fun visible t t' ht => ?_
  refine ((accord s).quiet (saveBuilder_quiet saveAs visible) t t' ht).bind_into (fun _ _ ht => ht.1)
    fun _ t t' ht => ?_
  obtain ⟨rfl, ht⟩ := ht
  have hsame := hb { builder := some visible } t (h.append ht)
  exact ⟨congrArg Prod.fst hsame, congrArg Prod.snd hsame⟩

/-- Builder functions are called in the midst of building, with nothing executed around them that was
not executed before. -/
theorem run_body (h : Amid s₀ A s)
    (hb : ∀ f u t, Amid s₀ ((.building, u) :: A) t → body' f t = body f t) (call : Call) (title : Value)
    (e : EngineId) : runSpecification call title ⟨style, saveAs, module, body'⟩ e s =
      runSpecification call title ⟨style, saveAs, module, body⟩ e s := by
  suffices AlikeAt Eq (runSpecification call title ⟨style, saveAs, module, body'⟩ e)
      (runSpecification call title ⟨style, saveAs, module, body⟩ e) s s from Prod.ext this.1 this.2
  have htitle := (accord s).setTitle_alike (w := []) (e := e) rfl title s s ⟨rfl, .start⟩
  refine htitle.bind_into (fun _ _ ht => ht.1) fun _ t t' ht => ?_
  obtain ⟨rfl, ht⟩ := ht
  have hin := (h.append ht).enter .building trivial
  have hbuilt : buildForest ⟨style, saveAs, module, body'⟩ t =
      buildForest ⟨style, saveAs, module, body⟩ t := by
    have hinvoked : Act.invoke ⟨style, saveAs, module, body'⟩ t.builds.size t.entering =
        Act.invoke ⟨style, saveAs, module, body⟩ t.builds.size t.entering :=
      hin.invoke_body (fun f => hb f t) t.builds.size
    rw [buildForest_apply, buildForest_apply]
    exact congrArg (fun r => (r.1.map fun _ => t.builds.size, r.2.withBuilding t.building)) hinvoked
  refine AlikeAt.bind (R := Eq) ⟨congrArg Prod.fst hbuilt, congrArg Prod.snd hbuilt⟩ fun b u u' hu => ?_
  subst hu
  exact ⟨rfl, rfl⟩

end Builders

end Amid

/-! ### Reports -/

/-- To ask whether an answer counts as true leaves the current engine. -/
theorem Act.holds_running (depth : Nat) (passed : Answer) (s : Session) :
    ((comparing (callWithin none depth)).holds passed s).2.running = s.running := by
  have hcalls := (Amid.accord s).callWithin_alike depth
  have hamid := (((Amid.accord s).comparing_related (w := []) hcalls).holds passed s s ⟨rfl, .start⟩).2.2
  exact congrArg Surroundings.running hamid.restored

/-- A report changes no engine that is not current, once it is known whether its outcome counts as
true. -/
theorem Act.report_others {s : Session} {e e' : EngineId} {x : Engine} (hr : s.running = some e)
    (hne : e' ≠ e) {depth : Nat} {passed : Answer}
    (hx : ((comparing (callWithin none depth)).holds passed s).2.engines[e']? = some x) (message : Value) :
    (report (callWithin none depth) passed message s).2.engines[e']? = some x := by
  have hrunning := holds_running depth passed s
  rw [report, bind_ok (currentEngine_some hr)]
  rcases hholds : (comparing (callWithin none depth)).holds passed s with ⟨f | outcome, t⟩
  all_goals rw [hholds] at hx hrunning
  · rw [bind_error hholds]
    exact hx
  · rw [bind_ok hholds]
    have hother : t.running ≠ some e' := by
      rw [hrunning, hr]
      exact fun he => hne (Option.some.inj he).symm
    have hself : Unseen e' x x t t := ⟨(Session.withEngine_self hx).symm, hx, hother⟩
    exact ((Unseen.accord e' x x).reportTo_alike (w := ()) ⟨rfl, hne.symm⟩ outcome message t t hself).2.engine

/-- At every point of a program, in the midst of whatever activities: what is described, built, run
or otherwise done from there restores the surroundings, however it ends. A report goes to the engine
of the innermost execution of the thread, and to no other, or is a misuse if there is none; whether
its outcome counts as true is asked before. And
programs come to no other points: procedures are called, builder functions are called and
statements are executed in the midst of activities that began from there. -/
theorem amid_surroundings {s₀ s : Session} {A : List (Activity × Session)} (h : Amid s₀ A s)
    (depth : Nat) :
    ((∀ b name body,
        (describe (callWithin none depth) b name body s).2.surroundings = s.surroundings) ∧
      (∀ fn, fn.Programmed → (buildForest fn s).2.surroundings = s.surroundings ∧ ∀ title e,
        (runSpecification (callWithin none depth) title fn e s).2.surroundings = s.surroundings) ∧
      (∀ f p, (Step.run none (callWithin none depth) f p s).2.surroundings = s.surroundings) ∧
      ∀ a t B, A = (a, t) :: B → (a.leave t s).surroundings = t.surroundings) ∧
    (∀ passed message, match Activity.reporting s₀.running (A.map (·.1)) with
      | none => ∃ f, f.kind = .dslRuntimeError ∧
        report (callWithin none depth) passed message s = (.error f, s)
      | some e =>
        let asked := (comparing (callWithin none depth)).holds passed
        report (callWithin none depth) passed message s = (asked >>= (reportTo e · message)) s ∧
        ∀ e' x, e' ≠ e → (asked s).2.engines[e']? = some x →
          (report (callWithin none depth) passed message s).2.engines[e']? = some x) ∧
    (∀ call', Amid.SameCalls s₀ A (callWithin none depth) call' → ∀ f p,
      Step.run none call' f p s = Step.run none (callWithin none depth) f p s) ∧
    ∀ style saveAs module body title e,
      (∀ call body', (∀ f u t, Amid s₀ ((.building, u) :: A) t → body' f t = body f t) →
        runSpecification call title ⟨style, saveAs, module, body'⟩ e s =
          runSpecification call title ⟨style, saveAs, module, body⟩ e s) ∧
      (BuilderFunction.Programmed ⟨style, saveAs, module, body⟩ → ∀ call',
        (∀ t, Amid.SameCalls s₀ ((.executing e, t) :: A) (callWithin none depth) call') →
        runSpecification call' title ⟨style, saveAs, module, body⟩ e s =
          runSpecification (callWithin none depth) title ⟨style, saveAs, module, body⟩ e s) := by
  refine ⟨⟨fun b name body => (Amid.describe s depth b name body).restored, fun fn hfn =>
    ⟨(Amid.build s hfn).restored, fun title e => (Amid.run s depth hfn title e).restored⟩,
    fun f p => (Amid.step s depth f p).restored, ?_⟩, fun passed message => ?_,
    fun call' hc => h.step_calls hc, fun style saveAs module body title e =>
      ⟨fun call body' hb => h.run_body hb call title e, fun hfn call' hc => h.run_calls hfn title e hc⟩⟩
  · rintro a t B rfl
    exact h.leave_surroundings
  · have hrunning := h.running
    cases hcurrent : Activity.reporting s₀.running (A.map (·.1)) with
    | none =>
      rw [hcurrent] at hrunning
      exact ⟨.misuse .noEngine none, rfl, bind_error (currentEngine_none hrunning)⟩
    | some e =>
      rw [hcurrent] at hrunning
      exact ⟨bind_ok (currentEngine_some hrunning), fun e' x hne hx => report_others hrunning hne hx message⟩

/-- The builder of a run inside a spec reports to the engine around it. -/
theorem amid_surroundings_nested :
    Amid (Session.adding {} .sync)
      [(.building, (Session.adding {} .sync).withRunning (some 0)), (.executing 0, Session.adding {} .sync)]
      ((Session.adding {} .sync).withRunning (some 0)).entering ∧
    report (callWithin none 1) (.bool true) .null ((Session.adding {} .sync).withRunning (some 0)).entering =
      ((comparing (callWithin none 1)).holds (.bool true) >>= (reportTo 0 · .null))
        ((Session.adding {} .sync).withRunning (some 0)).entering := by
  have h : Amid (Session.adding {} .sync) _ _ :=
    (Amid.start.enter (.executing 0) trivial).enter .building trivial
  exact ⟨h, ((amid_surroundings h 1).2.1 (.bool true) .null).1⟩

end Exemplar
