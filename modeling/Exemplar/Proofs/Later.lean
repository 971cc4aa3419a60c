import Exemplar.Proofs.Reachable
import Mathlib.Logic.Relation

/-! Moves of a program, and the moments that come later.

A `Move` is one thing that a program does to a session, and to the calls that are running: it
changes memory or engines, declares in the open group, or a call begins or ends. `Later base p q`
says that moves lead from `p` to `q` while the calls `base` keep running. Programs move in no
other way (`Later.step`, `Later.call`, `Later.invoke`, `Later.build`), so what every move keeps is
kept at every later moment (`Later.preserves`), in the midst of calls too. -/
namespace Exemplar

open Act

/-- The calls that are running, the innermost first, and the session. -/
abbrev Instant := List Opening × Session

inductive Move : Instant → Instant → Prop
  | memory {K s m} : s.heap.Kept m.heap → Move (K, s) (K, { s with toMemory := m })
  | engines {K s} (engines : Array Engine) : Move (K, s) (K, { s with engines })
  | openGroup {K s b} (name : Value) : s.building = some b →
      Move (K, s) (.group b (s.nextNode b name) (s.build b).cursor :: K, s.opened b name)
  | closeGroup {K s b node outer} : Move (.group b node outer :: K, s) (K, s.withCursor b outer)
  | declare {K s b n d} : s.building = some b → (s.build b).cursor = some n → d.Allowed s.heap →
      Move (K, s) (K, s.declaring b n d)
  | enterBuild {K s} : Move (K, s) (.build s.building :: K, s.entering)
  | leaveBuild {K s outer} : Move (.build outer :: K, s) (K, s.withBuilding outer)
  | enterThread {K s} :
      Move (K, s) (.thread s.building s.running :: K, (s.withBuilding none).withRunning none)
  | leaveThread {K s b e} : Move (.thread b e :: K, s) (K, (s.withRunning e).withBuilding b)
  | enterRun {K s e} : Move (K, s) (.run s.running :: K, s.withRunning (some e))
  | leaveRun {K s e} : Move (.run e :: K, s) (K, s.withRunning e)

/-- Moves lead from one moment to the other, and meanwhile the calls `base` do not end. -/
def Later (base : List Opening) : Instant → Instant → Prop :=
  Relation.ReflTransGen fun p q => Move p q ∧ base <:+ p.1 ∧ base <:+ q.1

namespace Later

variable {base : List Opening} {p q r : Instant}

theorem refl (base : List Opening) (p : Instant) : Later base p p := Relation.ReflTransGen.refl

theorem trans (h : Later base p q) (h' : Later base q r) : Later base p r :=
  Relation.ReflTransGen.trans h h'

theorem move (h : Later base p q) (hq : base <:+ q.1) (hr : base <:+ r.1) (hm : Move q r) :
    Later base p r := Relation.ReflTransGen.tail h ⟨hm, hq, hr⟩

/-- Fewer calls have to go on running. -/
theorem weaken {base' : List Opening} (hb : base' <:+ base) (h : Later base p q) : Later base' p q :=
  Relation.ReflTransGen.mono (fun _ _ ⟨hm, hp, hq⟩ => ⟨hm, hb.trans hp, hb.trans hq⟩) p q h

/-- What every move keeps holds at every later moment. -/
theorem preserves {P : Instant → Prop}
    (hstep : ∀ {p q}, Move p q → base <:+ p.1 → base <:+ q.1 → P p → P q) (h : Later base p q)
    (hp : P p) : P q := by
  induction h with
  | refl => exact hp
  | tail _ hlast ih =>
    obtain ⟨hm, hbefore, hafter⟩ := hlast
    exact hstep hm hbefore hafter ih

/-- No build goes away. -/
theorem builds_size_le (h : Later base p q) : p.2.builds.size ≤ q.2.builds.size := by
  refine h.preserves (P := fun q => p.2.builds.size ≤ q.2.builds.size) ?_ (Nat.le_refl _)
  intro q r hm _ _ hq
  cases hm with
  | enterBuild =>
    simp only [Session.entering, Array.size_push]
    exact Nat.le_succ_of_le hq
  | openGroup | closeGroup | declare =>
    simpa [Session.opened, Session.withCursor, Session.declaring] using hq
  | _ => exact hq

/-- Every object keeps its shape, and a procedure stays the same procedure. -/
theorem heap_kept (h : Later base p q) : p.2.heap.Kept q.2.heap := by
  refine h.preserves (P := fun q => p.2.heap.Kept q.2.heap) ?_ (.refl _)
  intro q r hm _ _ hq
  cases hm with
  | memory hk => exact hq.trans hk
  | _ => exact hq

/-- The calls that are running now, of which the last ones are `base`. -/
abbrev Above (base : List Opening) := { K : List Opening // base <:+ K }

/-- One more call is running. -/
def Above.push (K : Above base) (o : Opening) : Above base := ⟨o :: K.1, K.2.trans (List.suffix_cons o K.1)⟩

theorem move_above {K K' : Above base} {s t : Session} (h : Later base p (K.1, s))
    (hm : Move (K.1, s) (K'.1, t)) : Later base p (K'.1, t) := h.move K.2 K'.2 hm

/-- Programs lead to later moments: an accord of a run with itself. -/
def accord (base : List Opening) (p : Instant) : Accord none none where
  World := Above base
  rel K s s' := s = s' ∧ Later base p (K.1, s)
  twin _ e e' := e = e'
  odd _ _ _ := False
  same h := h.1 ▸ .refl _ False.elim
  memory h hk _ := ⟨by rw [h.1], h.2.move_above (.memory hk)⟩
  scoping h _ := ⟨by rw [h.1], h.2.move_above (.memory (.refl _))⟩
  group {K s s' b} name h hb := by
    obtain ⟨rfl, h⟩ := h
    refine ⟨K.push _, ⟨rfl, h.move_above (.openGroup name hb)⟩, trivial, fun u u' hu => ?_⟩
    exact ⟨by rw [hu.1], hu.2.move_above .closeGroup⟩
  declare h hb hn hd := ⟨by rw [h.1], h.2.move_above (.declare hb hn hd)⟩
  build {K s s'} h := by
    obtain ⟨rfl, h⟩ := h
    refine ⟨K.push _, ⟨rfl, h.move_above .enterBuild⟩, trivial, fun u u' hu => ?_⟩
    exact ⟨by rw [hu.1], hu.2.move_above .leaveBuild⟩
  thread {K s s'} h := by
    obtain ⟨rfl, h⟩ := h
    refine ⟨K.push _, ⟨rfl, h.move_above .enterThread⟩, trivial, fun u u' hu => ?_⟩
    exact ⟨by rw [hu.1], hu.2.move_above .leaveThread⟩
  current {K s s'} h := by
    obtain ⟨rfl, -⟩ := h
    cases he : s.running with
    | none => exact .inl ⟨rfl, rfl⟩
    | some e => exact .inr ⟨e, e, rfl, rfl, .inl rfl⟩
  run {K s s' e e'} h ht := by
    obtain ⟨rfl, h⟩ := h
    obtain rfl := ht
    refine ⟨K.push _, ⟨rfl, h.move_above .enterRun⟩, rfl, fun u u' hu => ?_⟩
    exact ⟨by rw [hu.1], hu.2.move_above .leaveRun⟩
  fresh {K s s'} kind h := by
    obtain ⟨rfl, h⟩ := h
    exact ⟨K, ⟨rfl, h.move_above (.engines _)⟩, rfl, fun u u' hu => hu⟩
  content h ht := by rw [h.1, ht]
  setting x h ht := ⟨by rw [h.1, ht], h.2.move_above (.engines _)⟩
  free _ := ⟨nofun, nofun⟩
  report _ _ h := h.elim
  pause h := h.elim
  resume h := h.elim
  wait _ _ h := h.elim
  setTitle _ h := h.elim
  declareGroup _ _ _ h := h.elim
  runTest _ _ h _ := h.elim
  specify _ h _ _ := h.elim

/-! ### Programs -/

variable (K : List Opening) (s : Session) (depth : Nat)

/-- The moment itself, with all its calls to go on running. -/
theorem start : (accord K (K, s)).rel ⟨K, List.suffix_refl K⟩ s s := ⟨rfl, refl K (K, s)⟩

theorem step (f : Frame) (p : Step) :
    Later K (K, s) (K, (Step.run none (callWithin none depth) f p s).2) := by
  have hcalls := (accord K (K, s)).callWithin_alike depth
  exact ((accord K (K, s)).step_alike hcalls f p False.elim s s (start K s)).2.2

theorem call (v : Value) (args : List Value) (named : List (String × Value)) :
    Later K (K, s) (K, (callWithin none depth v args named s).2) :=
  ((accord K (K, s)).callWithin_alike depth _ v args named s s (start K s)).2.2

end Later

/-- The builder functions that programs have: steps that they were given, or a value that is
called. -/
inductive BuilderFunction.Programmed : BuilderFunction → Prop
  | script (style : Style) (saveAs : Option String) (module : ModuleId) (depth : Nat)
      (frame : Frame → Frame) (steps : List Step) :
      Programmed ⟨style, saveAs, module, fun f => Step.runAll none (callWithin none depth) (frame f) steps⟩
  | value (style : Style) (saveAs : Option String) (module : ModuleId) (depth : Nat) (v : Value)
      (args : List Value) :
      Programmed ⟨style, saveAs, module, fun _ => do let _ ← callWithin none depth v args []⟩

theorem BuilderFunction.Written.programmed {fn : BuilderFunction} (h : fn.Written) : fn.Programmed := by
  cases h with
  | source module source => exact .script source.style source.saveAs module callDepth id source.steps
  | value module v args => exact .value .param none module callDepth v args

namespace BuilderFunction.Programmed

variable {fn : BuilderFunction} (h : fn.Programmed) {A : Accord none none} (hA : A.Total) {w : A.World}
include h hA

/-- What programs have as builder functions goes alike in every accord. -/
theorem body_alike (w : A.World) (f : Frame) : Alike (A.rel w) (fn.body f) (fn.body f) := by
  cases h with
  | script style saveAs module depth frame steps =>
    exact A.steps_alike (A.callWithin_alike depth) (frame f) steps (absurd · hA.1)
  | value style saveAs module depth v args =>
    exact (A.callWithin_alike depth w v args []).bind fun _ => Alike.pure ()

theorem invoke_alike (b : BuildId) : Alike (A.rel w) (Act.invoke fn b) (Act.invoke fn b) :=
  A.invoke_alike (absurd · hA.1) (hA.2 _) (h.body_alike hA) b

theorem build_alike : Alike (A.rel w) (buildForest fn) (buildForest fn) :=
  A.buildForest_alike (absurd · hA.1) (hA.2 _) (h.body_alike hA)

end BuilderFunction.Programmed

namespace Later

/-- What a builder function does. -/
theorem invoke (K : List Opening) (s : Session) {fn : BuilderFunction} (hfn : fn.Programmed)
    (b : BuildId) : Later K (K, s) (K, (Act.invoke fn b s).2) :=
  (hfn.invoke_alike (A := accord K (K, s)) ⟨id, Nat.zero_le⟩ b s s (start K s)).2.2

end Later

/-- A build is made, is current while the builder function runs, and then is current no more. -/
theorem buildForest_apply (fn : BuilderFunction) (s : Session) :
    buildForest fn s = ((Act.invoke fn s.builds.size s.entering).1.map fun _ => s.builds.size,
      (Act.invoke fn s.builds.size s.entering).2.withBuilding s.building) := by
  show (ensuring (Act.invoke fn s.builds.size) (modify (·.withBuilding s.building)) >>=
    fun _ => pure s.builds.size : Act BuildId) s.entering = _
  have hrun := ensuring_apply (Act.invoke fn s.builds.size) (modify (·.withBuilding s.building)) s.entering
  rcases hresult : Act.invoke fn s.builds.size s.entering with ⟨_ | _, t⟩
  · rw [hresult] at hrun
    exact bind_error hrun
  · rw [hresult] at hrun
    exact bind_ok hrun

/-- Building leads to a later moment. -/
theorem Later.build (K : List Opening) (s : Session) {fn : BuilderFunction} (hfn : fn.Programmed) :
    Later K (K, s) (K, (buildForest fn s).2) := by
  have hsuffix : K <:+ .build s.building :: K := List.suffix_cons _ K
  have hentered : Later K (K, s) (.build s.building :: K, s.entering) :=
    (Later.refl K (K, s)).move (List.suffix_refl K) hsuffix .enterBuild
  have hinvoked := (Later.invoke (.build s.building :: K) s.entering hfn s.builds.size).weaken hsuffix
  rw [buildForest_apply]
  exact (hentered.trans hinvoked).move hsuffix (List.suffix_refl K) .leaveBuild

end Exemplar
