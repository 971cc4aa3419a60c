import Exemplar.Proofs.Naming
import Exemplar.Proofs.Rescoped
import Exemplar.Scope.Experiment

/-! Scoped mode and global mode.

A function that sees the verbs in a layer over its module runs beside the same function that sees
them in the module, through inner functions, calls of other functions of the module and functions
that are kept for later (`Experiment.perform_alike`). Together with what is known of whole builds,
the two modes have the same outcome and differ in the modules only (`modes_agree`). -/
namespace Exemplar.Scope

open Act Play

/-- Two runs beside each other: the sessions are related by `R`, the names agree, and what is kept for
later is the same, seen from the module there. -/
structure Merging.Beside (c : Merging) (R : Session → Session → Prop) (s s' : State) : Prop where
  session : R s.session s'.session
  names : c.Agree s.names s'.names
  later : s'.later = s.later.map fun (v, body) => (v.plain, body)
  within : ∀ v body, (v, body) ∈ s.later →
    Line.AllWithin (c.access v.layered) (.ofBody [] body :: v.around) none body
  trace : s.trace = s'.trace

namespace Merging

variable (c : Merging) (A : Accord none none) (w : A.World) {α : Type}

/-- Two runs go alike. -/
def PlayAlike (a a' : Play α) : Prop := Alike (c.Beside (A.rel w)) a a'

variable {c A w}

theorem ofAct_alike {a a' : Act α} (ha : Alike (A.rel w) a a') : c.PlayAlike A w (ofAct a) (ofAct a') := by
  intro s s' h
  obtain ⟨hr, hs⟩ := ha _ _ h.session
  exact ⟨hr, { h with session := hs }⟩

theorem record_alike (t : Finding) : c.PlayAlike A w (record t) (record t) :=
  fun _ _ h => ⟨rfl, { h with trace := congrArg (t :: ·) h.trace }⟩

theorem attempt_alike {a a' : Play α} (ha : c.PlayAlike A w a a') :
    c.PlayAlike A w (Play.attempt a) (Play.attempt a') := by
  intro s s' h
  obtain ⟨hr, hs⟩ := ha s s' h
  refine ⟨?_, hs⟩
  show Except.ok ((a s).1.mapError (·.describe (a s).2.session.heap)) =
    Except.ok ((a' s').1.mapError (·.describe (a' s').2.session.heap))
  rw [hr, (A.same hs.session).heap]

theorem ofFault_alike (x : Except Fault α) : c.PlayAlike A w (ofFault x) (ofFault x) := by
  cases x with
  | ok a => exact .pure a
  | error f => exact .throw _

section Names

variable {v : View} {name : String}

theorem read_alike (hr : (c.access v.layered).MayRead v.around name v.classScope) :
    c.PlayAlike A w (read v name) (read v.plain name) := by
  intro s s' h
  refine .get ?_
  rw [h.names.get hr]
  exact ofFault_alike _ s s' h

theorem set_alike (ha : (c.access v.layered).MayAssign v.around name v.classScope) (i : Meaning) :
    c.PlayAlike A w (changeNames (·.set v name i)) (changeNames (·.set v.plain name i)) :=
  fun _ _ h => ⟨rfl, { h with names := h.names.set ha i }⟩

theorem rebind_alike (ha : c.assigned name) (i : Meaning) :
    c.PlayAlike A w (changeNames fun n => { n with layers := n.layers.setModule name i })
      (changeNames fun n => { n with layers := n.layers.setModule name i }) :=
  fun _ _ h => ⟨rfl, { h with names := h.names.setModule ha i }⟩

/-- A function that is entered sees its own variables first. -/
theorem enter_alike (declared : Declared) (own : Bindings Meaning) {k k' : View → Play α}
    (hk : ∀ v' : View, v'.layered = v.layered → v'.around = declared :: v.around → v'.classScope = none →
      c.PlayAlike A w (k v') (k' v'.plain)) :
    c.PlayAlike A w (enter v declared own >>= k) (enter v.plain declared own >>= k') := by
  intro s s' h
  have hsize : s'.names.frames.size = s.names.frames.size := congrArg Array.size h.names.frames.symm
  have hentered : c.Agree (s.names.enter v declared own).1 (s'.names.enter v.plain declared own).1 :=
    { h.names with frames := congrArg (·.push own) h.names.frames }
  have hview : (s'.names.enter v.plain declared own).2 = (s.names.enter v declared own).2.plain := by
    simp only [Names.enter, View.plain, hsize]
  show AlikeAt (c.Beside (A.rel w))
    (fun _ => k (s.names.enter v declared own).2 { s with names := (s.names.enter v declared own).1 })
    (fun _ => k' (s'.names.enter v.plain declared own).2
      { s' with names := (s'.names.enter v.plain declared own).1 }) s s'
  rw [hview]
  exact hk (s.names.enter v declared own).2 rfl rfl rfl _ _ { h with names := hentered }

end Names

/-! ### Lines -/

variable {function : Nat → Play Unit}

theorem callMeaning_alike (hf : ∀ i, c.PlayAlike A w (function i) (function i)) (m : Meaning) :
    c.PlayAlike A w (callMeaning function m) (callMeaning function m) := by
  cases m with
  | value v => exact (ofAct_alike (A.callWithin_alike callDepth w v [] [])).bind fun _ => .pure _
  | function index => exact hf index

mutual

theorem run_alike (hf : ∀ i, c.PlayAlike A w (function i) (function i)) (v : View) (line : Line Value)
    (hl : line.Within (c.access v.layered) v.around v.classScope) :
    c.PlayAlike A w (Line.run function v line) (Line.run function v.plain line) := by
  cases line with
  | load name =>
    unfold Line.run
    exact (attempt_alike (read_alike hl)).bind fun found => (record_alike _).bind fun _ => .pure _
  | set reach name a =>
    unfold Line.run
    exact (set_alike hl _).bind fun _ => .pure _
  | erase reach name =>
    unfold Line.run
    intro s s' h
    refine .get ?_
    rcases h.names.erase hl with ⟨f, hs, hs'⟩ | ⟨t, t', hs, hs', hagree⟩
    · rw [hs, hs']
      refine .get ?_
      rw [(A.same h.session).heap]
      exact (record_alike _).bind (fun _ => .pure _) s s' h
    · rw [hs, hs']
      exact (record_alike (.erase name none)).bind (fun _ => .pure _) _ _ { h with names := hagree }
  | call name =>
    unfold Line.run
    refine Alike.bind (attempt_alike ((read_alike hl).bind fun m => callMeaning_alike hf m)) fun called => ?_
    cases called with
    | ok _ => exact .pure _
    | error d => exact (record_alike _).bind fun _ => .pure _
  | rebind name a =>
    unfold Line.run
    exact (rebind_alike (c.of_rebind hl) _).bind fun _ => .pure _
  | inner body =>
    unfold Line.run
    refine enter_alike _ _ fun v' hlayered haround hclass => ?_
    exact (runAll_alike hf v' body (by rw [hlayered, haround, hclass]; exact hl)).bind fun _ => .pure _
  | later body =>
    unfold Line.run
    refine Alike.bind (fun s s' h => ⟨rfl, ?_⟩) fun _ => .pure _
    refine { h with later := ?_, within := ?_ }
    · show s'.later ++ [(v.plain, body)] = (s.later ++ [(v, body)]).map _
      rw [h.later, List.map_append]
      rfl
    · intro u inner hu
      rcases List.mem_append.mp hu with hu | hu
      · exact h.within u inner hu
      · obtain ⟨rfl, rfl⟩ := Prod.mk.inj (List.mem_singleton.mp hu)
        exact hl
  | classBody body =>
    unfold Line.run
    exact (runAll_alike hf (v.inClass (.ofBody [] body)) body hl).bind fun _ => .pure _
  | parameter name =>
    unfold Line.run
    exact (read_alike hl).bind fun found => (record_alike _).bind fun _ => .pure _
  | answer a =>
    unfold Line.run
    exact .pure _
termination_by structural line

theorem runAll_alike (hf : ∀ i, c.PlayAlike A w (function i) (function i)) (v : View)
    (lines : List (Line Value)) (hl : Line.AllWithin (c.access v.layered) v.around v.classScope lines) :
    c.PlayAlike A w (Line.runAll function v lines) (Line.runAll function v.plain lines) := by
  cases lines with
  | nil =>
    unfold Line.runAll
    exact .pure _
  | cons line rest =>
    unfold Line.runAll
    refine Alike.bind (run_alike hf v line hl.1) fun answer => ?_
    cases answer with
    | some a => exact .pure _
    | none => exact runAll_alike hf (v.after line) rest (v.classScope_after line ▸ hl.2)
termination_by structural lines

end

/-! ### Functions -/

theorem meaning_quiet {loose : Prop} (r : Received Value) : Quiet loose (meaning r) := by
  cases r with
  | one v => exact .pure _
  | many vs => exact (Quiet.alloc rfl).bind fun _ => .pure _
  | named vs => exact (Quiet.alloc rfl).bind fun _ => .pure _

theorem meanings_quiet {loose : Prop} (received : List (String × Received Value)) :
    Quiet loose (received.mapM fun (n, r) => do return (n, ← meaning r)) := by
  induction received with
  | nil => exact .pure _
  | cons entry rest ih =>
    rw [List.mapM_cons]
    exact ((meaning_quiet entry.2).bind fun _ => .pure _).bind fun _ => ih.bind fun _ => .pure _

/-- A function is called with the verbs in a layer over its module, or is one that does without them. -/
theorem runFunction_alike (hf : ∀ i, c.PlayAlike A w (function i) (function i)) (layered : Bool)
    {f : Function Value} (hw : f.Within (c.access layered)) (args : List Value) :
    c.PlayAlike A w (runFunction function layered f args) (runFunction function false f args) := by
  unfold runFunction
  cases f.parameters.bind args [] with
  | error e => exact .throw _
  | ok received =>
    refine Alike.bind (ofAct_alike (A.quiet (meanings_quiet received))) fun own => ?_
    have hbody : ∀ v : View, v.layered = layered →
        v.around = (f.closure.map fun b => { global := [], own := b.names : Declared }).toList →
        c.PlayAlike A w (do
            let v ← enter v (.ofBody (f.parameters.map (·.name)) f.body) own
            return (← Line.runAll function v f.body).getD (.value .null))
          (do
            let v ← enter v.plain (.ofBody (f.parameters.map (·.name)) f.body) own
            return (← Line.runAll function v f.body).getD (.value .null)) := by
      intro v hlayered haround
      refine enter_alike _ _ fun v' hlayered' haround' hclass => ?_
      refine Alike.bind (runAll_alike hf v' f.body ?_) fun _ => .pure _
      rw [hlayered', haround', hclass, hlayered, haround]
      exact hw
    cases hclosure : f.closure with
    | none =>
      rw [hclosure] at hbody
      exact hbody { layered } rfl rfl
    | some b =>
      rw [hclosure] at hbody
      exact enter_alike (v := { layered }) _ _ fun v hlayered haround _ => hbody v hlayered haround

/-- The other functions of the module go alike, however deep they call each other. -/
theorem runHelperWithin_alike {helpers : List (Function Value)}
    (hh : ∀ f ∈ helpers, f.Within (c.access false)) (depth index : Nat) :
    c.PlayAlike A w (runHelperWithin helpers depth index) (runHelperWithin helpers depth index) := by
  induction depth generalizing index with
  | zero => exact .throw _
  | succ depth ih =>
    unfold runHelperWithin
    cases hindex : helpers[index]? with
    | none => exact .pure _
    | some f =>
      exact (runFunction_alike ih false (hh f (List.mem_of_getElem? hindex)) []).bind fun _ => .pure _

/-- The functions that were kept for later go alike. -/
theorem runLater_alike (hf : ∀ i, c.PlayAlike A w (function i) (function i)) (limit : Nat) :
    c.PlayAlike A w (runLater function limit) (runLater function limit) := by
  induction limit with
  | zero => exact .pure _
  | succ limit ih =>
    unfold runLater
    intro s s' h
    refine .get ?_
    have hlater := h.later
    cases hs : s.later with
    | nil =>
      rw [hs] at hlater
      rw [hlater]
      exact Alike.pure () s s' h
    | cons entry rest =>
      obtain ⟨v, body⟩ := entry
      rw [hs] at hlater
      rw [hlater]
      have hbody := h.within v body (by rw [hs]; exact List.mem_cons_self)
      have hrest : c.Beside (A.rel w) { s with later := rest }
          { s' with later := rest.map fun (v, body) => (v.plain, body) } :=
        { h with later := rfl, within := fun u inner hu => h.within u inner (by rw [hs]; exact .tail _ hu) }
      have hrun : c.PlayAlike A w (do
            let v ← enter v (.ofBody [] body) []
            Line.runAll function v body)
          (do
            let v ← enter v.plain (.ofBody [] body) []
            Line.runAll function v body) :=
        enter_alike _ _ fun v' hlayered haround hclass =>
          runAll_alike hf v' body (by rw [hlayered, haround, hclass]; exact hbody)
      exact (attempt_alike hrun).bind (fun _ => ih) _ _ hrest

end Merging

/-! ### Experiments -/

namespace Experiment

theorem names_asMeanings (b : Bindings Value) : (asMeanings b).names = b.names := by
  simp [asMeanings, Bindings.names]

/-- An experiment with the verbs in a layer goes as the one with the verbs merged. -/
theorem perform_alike {e : Experiment} {p : Prepared} {c : Merging} {A : Accord none none} {w : A.World}
    (hverbs : c.verbs = asMeanings p.verbs) (hnodup : p.verbs.names.Nodup)
    (hmodule : c.module = e.module p.globals) (hmain : p.main.Within (c.access true))
    (hhelpers : ∀ f ∈ p.helpers, f.Within (c.access false))
    (hrebind : ∀ n ∈ p.rebindAfter.names, c.assigned n) (hafter : p.verbsAfter = []) {s s' : Session}
    (h : A.rel w s s') :
    AlikeAt (c.Beside (A.rel w)) (perform { e with mode := .layered } p)
      (perform { e with mode := .merged } p)
      { session := s } { session := s' } := by
  have hf := Merging.runHelperWithin_alike (w := w) hhelpers callDepth
  have hstart : c.Beside (A.rel w)
      { session := s, names := { layers := .ofModule (e.module p.globals) (asMeanings p.verbs) } }
      { session := s', names :=
        { layers := .merge { module := e.module p.globals, verbs := asMeanings p.verbs } } } := by
    rw [← hmodule, ← hverbs]
    have hagree := c.agree_start (by rw [hverbs, names_asMeanings]; exact hnodup)
    exact ⟨h, hagree, rfl, nofun, rfl⟩
  unfold perform
  rw [hafter]
  refine AlikeAt.bind ⟨rfl, hstart⟩ fun _ => ?_
  refine (Merging.attempt_alike (Merging.runFunction_alike hf true hmain _)).bind fun _ => ?_
  refine Alike.bind (fun t t' ht => ⟨rfl, { ht with names := ht.names.setModules ?_ }⟩) fun _ =>
    (Merging.runLater_alike hf laterLimit).bind fun _ => .pure _
  rw [names_asMeanings]
  exact hrebind

end Experiment

end Exemplar.Scope

namespace Exemplar

open Act Scope

/-- The verbs, and the names that the module has from the beginning or is given. -/
def Scope.Experiment.Hidden (e : Experiment) (p : Prepared) (assigned : String → Prop) (n : String) : Prop :=
  n ∈ verbNames ∨ n ∈ (e.module p.globals).names ∨ assigned n

section Experiments

variable {s : Session} (hs : s.heap.Helperless) {e : Experiment} {p : Prepared} {assigned : String → Prop}
  (hassigned : ∀ n, assigned n → n ∉ verbNames ∧ n ∉ moduleAttributes) (hverbs : p.verbs.names = verbNames)
  (hmain : p.main.Within (.builder (e.Hidden p assigned) assigned))
  (hhelpers : ∀ f ∈ p.helpers, f.Within (.helper verbNames assigned))
  (hrebind : ∀ n ∈ p.rebindAfter.names, assigned n) (hafter : p.verbsAfter = [])
include hs hassigned hverbs hmain hhelpers hrebind hafter

end Experiments

/-- A group with a spec, declared with bare names. -/
def BuilderFunction.bare : BuilderFunction where
  style := .bare
  saveAs := none
  module := 0
  body f := Step.runAll none (callWithin none 3) f
    [.describe none (.text "a") (.script none [.it none (.text "b") (.script none []) false]) false]

/-- A function of a module that has `count`. -/
def Scope.Prepared.counted (main : List (Line Value)) (tally : List (Line Value)) : Prepared where
  main := { name := "main", body := main }
  helpers := [{ name := "tally", body := tally }]
  globals := [("count", .int 0)]
  verbs := verbNames.map fun n => (n, .text n)
  args := []
  rebindAfter := []
  verbsAfter := []

/-- A function that reads verbs, also in inner functions and in those of a class, and calls one that sets
`count`. -/
def Scope.Prepared.counting : Prepared := .counted
  [.load "describe", .inner [.load "it", .call "tally"], .later [.load "given"],
    .classBody [.set .own "size" (.int 2), .load "size", .inner [.load "count", .load "wait"]]]
  [.set .global "count" (.int 1)]

def Scope.Experiment.counting : Experiment where
  mode := .plain
  main := { name := "main" }
  helpers := [{ name := "tally" }]
  globals := []
  verbs := []
  args := []
  self := none
  builder := none
  moduleName := none
  rebindAfter := []
  verbsAfter := []

/-- A session with one module. -/
def Session.single : Session := { modules.size := 1 }

end Exemplar
