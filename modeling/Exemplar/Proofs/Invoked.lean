import Exemplar.Proofs.Handover
import Exemplar.Proofs.Quiet
import Exemplar.Scope.Experiment

/-! Functions that a builder runs.

Evaluation decides what the defaults of a function are, and nothing else about its parameters
(`evalSignature_shape`), so whether the function gets the builder is seen before and after it. The
parameters matter to the call only (`Experiment.perform_eq`): the body runs with what they have received,
inside the same experiment. `builder_handed_over` says what that is. -/
namespace Exemplar

namespace Signature

variable {α : Type}

/-- The parameters without what their defaults are. -/
def shape (s : Signature α) : Signature Unit := s.map fun p => ⟨p.name, p.kind, p.default?.map fun _ => ()⟩

theorem shape_acceptsBuilder (s : Signature α) : s.shape.acceptsBuilder = s.acceptsBuilder := by
  unfold acceptsBuilder shape
  rw [List.any_map]
  congr 1
  funext p
  simp [Parameter.isPositional]

theorem shape_ofMethod? (s : Signature α) : s.shape.ofMethod? = s.ofMethod?.map shape := by
  cases s with
  | nil => rfl
  | cons p rest => cases hkind : p.kind <;> simp [shape, ofMethod?, hkind]

end Signature

namespace Scope

open Play

/-! ### Evaluated parameters -/

/-- Only what the defaults are depends on the evaluation. -/
theorem evalSignature_shape {f : Frame} {s : Signature Term} {s' : Signature Value} {t u : Session}
    (h : evalSignature f s t = (.ok s', u)) : s'.shape = s.shape := by
  refine Act.mapM_map_eq (fun {p t p' u} h => ?_) h
  cases hdefault : p.default? with
  | none =>
    rw [hdefault] at h
    obtain ⟨none', _, hnone, h⟩ := Act.bind_eq_ok h
    cases hnone
    cases h
    rfl
  | some term =>
    rw [hdefault] at h
    obtain ⟨some', _, hsome, h⟩ := Act.bind_eq_ok h
    rw [map_eq_pure_bind] at hsome
    obtain ⟨v, _, -, hv⟩ := Act.bind_eq_ok hsome
    cases hv
    cases h
    rfl

theorem Function.eval_shape {f : Frame} {fn : Function Term} {fn' : Function Value} {t u : Session}
    (h : fn.eval f t = (.ok fn', u)) : fn'.parameters.shape = fn.parameters.shape := by
  unfold Function.eval at h
  obtain ⟨parameters, _, hparameters, h⟩ := Act.bind_eq_ok h
  obtain ⟨body, _, -, h⟩ := Act.bind_eq_ok h
  cases hclosure : fn.closure
  all_goals
    rw [hclosure] at h
    obtain ⟨closure, _, -, h⟩ := Act.bind_eq_ok h
    cases h
    exact evalSignature_shape hparameters

namespace Experiment

variable {e : Experiment} {p : Prepared} {s t : Session}

theorem prepare_shape (h : e.prepare s = (.ok p, t)) : p.main.parameters.shape = e.main.parameters.shape := by
  unfold prepare at h
  obtain ⟨main, _, hmain, h⟩ := Act.bind_eq_ok h
  obtain ⟨helpers, _, -, h⟩ := Act.bind_eq_ok h
  obtain ⟨globals, _, -, h⟩ := Act.bind_eq_ok h
  obtain ⟨verbs, _, -, h⟩ := Act.bind_eq_ok h
  obtain ⟨args, _, -, h⟩ := Act.bind_eq_ok h
  obtain ⟨rebindAfter, _, -, h⟩ := Act.bind_eq_ok h
  obtain ⟨verbsAfter, _, -, h⟩ := Act.bind_eq_ok h
  cases h
  exact Function.eval_shape hmain

/-- The parameters of a function that are left to its caller. -/
def seen? {α : Type} (e : Experiment) (s : Signature α) : Option (Signature α) :=
  if e.self.isSome then s.ofMethod? else some s

theorem seen?_shape {α : Type} (e : Experiment) (s : Signature α) :
    e.seen? s.shape = (e.seen? s).map Signature.shape := by
  unfold seen?
  split
  · exact s.shape_ofMethod?
  · rfl

theorem acceptsBuilder_of_prepare (h : e.prepare s = (.ok p, t)) {seen : Signature Value}
    (hseen : e.seen? p.main.parameters = some seen) : e.acceptsBuilder = seen.acceptsBuilder := by
  have hmain : (e.seen? e.main.parameters).map Signature.shape = some seen.shape := by
    rw [← seen?_shape, ← prepare_shape h, seen?_shape, hseen]
    rfl
  obtain ⟨seen', hseen', hshape⟩ := Option.map_eq_some_iff.mp hmain
  calc e.acceptsBuilder = (e.seen? e.main.parameters).any (·.acceptsBuilder) := rfl
    _ = seen'.acceptsBuilder := by rw [hseen']; rfl
    _ = seen.acceptsBuilder := by rw [← seen'.shape_acceptsBuilder, hshape, seen.shape_acceptsBuilder]

/-- The arguments before those of the caller. -/
theorem behind_of_seen? {s seen : Signature Value} (h : e.seen? s = some seen) :
    Signature.Behind s e.self.toList seen := by
  unfold seen? at h
  cases hself : e.self with
  | none =>
    rw [hself] at h
    obtain rfl := Option.some.inj h
    exact .function
  | some self =>
    rw [hself] at h
    exact .method h

/-! ### Calls -/

/-- The arguments that the function is called with. -/
def arguments (e : Experiment) (p : Prepared) : List Value :=
  e.self.toList ++ match e.builder with
    | some b => if e.acceptsBuilder then [b] else []
    | none => p.args

/-- The experiment, where the function is called by `call`. -/
def calling (e : Experiment) (p : Prepared) (call : (Nat → Play Unit) → Play Meaning) :
    Play (Except Described Meaning) := do
  changeNames fun n => { n with layers := e.layers (e.module p.globals) (asMeanings p.verbs) }
  let function := runHelperWithin p.helpers Act.callDepth
  let result ← attempt (call function)
  changeNames fun n =>
    let layers := (asMeanings p.rebindAfter).foldl (fun l (n, i) => l.setModule n i) n.layers
    { n with layers := (asMeanings p.verbsAfter).foldl (fun l (n, i) => l.setVerb n i) layers }
  runLater function laterLimit
  return result

/-- The call of the function is the only part of an experiment that its parameters matter to. -/
theorem perform_eq (e : Experiment) (p : Prepared) : e.perform p =
    e.calling p fun function => runFunction function (e.mode = .layered) p.main (e.arguments p) := rfl

theorem arguments_of_builder {b : Value} (hb : e.builder = some b) (h : e.prepare s = (.ok p, t))
    {seen : Signature Value} (hseen : e.seen? p.main.parameters = some seen) :
    e.arguments p = e.self.toList ++ seen.handed b := by
  rw [arguments, hb, Signature.handed, ← acceptsBuilder_of_prepare h hseen]

end Experiment

namespace Play

/-- Runs a function whose parameters have received what they get. -/
def runBody (function : Nat → Play Unit) (layered : Bool) (f : Function Value)
    (received : List (String × Received Value)) : Play Meaning := do
  let own ← ofAct (received.mapM fun (n, r) => do return (n, ← meaning r))
  let outside ← match f.closure with
    | some b => enter { layered } { global := [], own := b.names } (b.map fun (n, v) => (n, .value v))
    | none => pure { layered }
  let v ← enter outside (.ofBody (f.parameters.map (·.name)) f.body) own
  return (← Line.runAll function v f.body).getD (.value .null)

theorem runFunction_bound {f : Function Value} {args : List Value} {received : List (String × Received Value)}
    (h : f.parameters.bind args [] = .ok received) (function : Nat → Play Unit) (layered : Bool) :
    runFunction function layered f args = runBody function layered f received := by
  unfold runFunction
  rw [h]
  rfl

end Play

variable {e : Experiment} {p : Prepared} {s t : Session}

/-- A function that one argument is enough for is called by a builder: its parameters are bound, the one
that takes the builder has it, and the others have what they have without arguments. The promise to hand
the builder over and to keep the defaults is kept unless the builder displaces a default. -/
theorem builder_handed_over {b : Value} {seen : Signature Value} (hb : e.builder = some b)
    (hp : e.prepare s = (.ok p, t)) (hw : p.main.parameters.WellFormed)
    (hseen : e.seen? p.main.parameters = some seen) (hs : seen.Suits) :
    let before := p.main.parameters.gathered e.self.toList
    ∃ received, p.main.parameters.bind (e.arguments p) [] = .ok received ∧
      (e.perform p = e.calling p fun function => runBody function (e.mode = .layered) p.main received) ∧
      received.map (·.1) = p.main.parameters.map (·.name) ∧
      seen.Account before b received ∧ (seen.Promised before b received ↔ ¬seen.Displaces) := by
  have hbehind := Experiment.behind_of_seen? hseen
  obtain ⟨received, hbind, hnames, haccount⟩ := hw.account hbehind hs b
  rw [← Experiment.arguments_of_builder hb hp hseen] at hbind
  have hpromised := haccount.promised_iff (hw.handsOver hbehind hs b).wellFormed hs
  refine ⟨received, hbind, ?_, hnames, haccount, hpromised⟩
  simp only [Experiment.perform_eq, runFunction_bound hbind]

/-- The parameters of a method, of every kind but the first. -/
def Signature.mixed {α : Type} (count sep : α) : Signature α :=
  [⟨"self", .positional, none⟩, ⟨"s", .positional, none⟩, ⟨"count", .positional, some count⟩,
    ⟨"rest", .variadic, none⟩, ⟨"sep", .namedOnly, some sep⟩, ⟨"more", .variadicNamed, none⟩]

def Experiment.mixed : Experiment where
  mode := .layered
  main := { name := "main", parameters := Signature.mixed (.int 2) (.text ",") }
  helpers := []
  globals := []
  verbs := []
  args := []
  self := some (.foreign "Owner")
  builder := some (.foreign "Builder")
  moduleName := none
  rebindAfter := []
  verbsAfter := []

def Prepared.mixed : Prepared where
  main := { name := "main", parameters := Signature.mixed (.int 2) (.text ",") }
  helpers := []
  globals := []
  verbs := []
  args := []
  rebindAfter := []
  verbsAfter := []

theorem builder_handed_over_mixed : ∃ received,
    Prepared.mixed.main.parameters.bind [.foreign "Owner", .foreign "Builder"] [] = .ok received ∧
    (Experiment.mixed.perform .mixed =
      Experiment.mixed.calling .mixed fun function => runBody function true Prepared.mixed.main received) ∧
    received.map (·.1) = ["self", "s", "count", "rest", "sep", "more"] ∧
    received.lookup "s" = some (.one (.foreign "Builder")) ∧
    received.lookup "count" = some (.one (.int 2)) ∧ received.lookup "rest" = some (.many []) ∧
    received.lookup "sep" = some (.one (.text ",")) := by
  have hseen : Experiment.mixed.seen? Prepared.mixed.main.parameters =
      some Prepared.mixed.main.parameters.tail := rfl
  have htaker : Signature.taker? Prepared.mixed.main.parameters.tail = some ⟨"s", .positional, none⟩ := rfl
  obtain ⟨received, hbind, hperform, hnames, haccount, hpromised⟩ :=
    builder_handed_over (e := .mixed) (p := .mixed) (s := {}) rfl rfl (by decide) hseen (by decide)
  have hkept := hpromised.mpr (by decide)
  exact ⟨received, hbind, hperform, hnames, haccount.taker _ htaker,
    hkept.kept ⟨"count", .positional, some (.int 2)⟩ (.tail _ (.head _)) _ rfl,
    haccount.others ⟨"rest", .variadic, none⟩ (.tail _ (.tail _ (.head _))) (by rw [htaker]; simp),
    hkept.kept ⟨"sep", .namedOnly, some (.text ",")⟩ (.tail _ (.tail _ (.tail _ (.head _)))) _ rfl⟩

/-- A function that has a default and gathers arguments. -/
def Experiment.displaced : Experiment where
  mode := .layered
  main := { name := "main", parameters := [⟨"s", .positional, some (.int 1)⟩, ⟨"rest", .variadic, none⟩],
            body := [.parameter "s", .parameter "rest"] }
  helpers := []
  globals := []
  verbs := []
  args := []
  self := none
  builder := some (.foreign "Builder")
  moduleName := none
  rebindAfter := []
  verbsAfter := []

/-- The builder takes the place of a default, and nothing is gathered. -/
theorem default_displaced :
    Experiment.displaced.main.parameters.WellFormed ∧ Experiment.displaced.main.parameters.Suits ∧
    (Experiment.displaced.play {}).2.trace =
      [.parameter "rest" (.value (.object 0)), .parameter "s" (.value (.foreign "Builder"))] ∧
    (Experiment.displaced.play {}).2.session.heap.cell? (.object 0) = some (.tuple false []) :=
  ⟨by decide, by decide, rfl, rfl⟩

end Scope

end Exemplar
