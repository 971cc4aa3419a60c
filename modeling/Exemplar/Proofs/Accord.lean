import Exemplar.Proofs.Comparisons
import Exemplar.Proofs.Evaluation
import Exemplar.Proofs.Layers

/-! Programs go alike wherever their parts do.

An `Accord` is a family of relations between the sessions of two runs, indexed by worlds, with
what it takes to carry it through a program: memory may change, groups open and close, builds
and runs begin and end, and each of these may lead into a world of its own and back. The main
statement, `callWithin_alike`, is that then every call goes alike on both sides, and with it
every step (`Step.run_alike`), whatever the program is.

An invariant of single runs is an accord of a run with itself. -/
namespace Exemplar

open Act

/-! ### Moves of a session -/

/-- What a verb adds to the open group. -/
inductive Declaration
  | setup (hook : Value)
  | teardown (hook : Value)
  | spec (s : Spec)

/-- Hooks are taken as they come, the body of a spec must be callable. -/
def Declaration.Allowed (h : Heap) : Declaration → Prop
  | spec s => s.body.isCallable h = true
  | _ => True

def Forest.declare (f : Forest) (n : NodeId) : Declaration → Forest
  | .setup hook => f.setSetup n hook
  | .teardown hook => f.setTeardown n hook
  | .spec s => f.addSpec n s

/-- A change of the scoping that leaves the modules below `floor` as they are. -/
structure Scoping.Regular (floor : ModuleId) (change : Scoping → Scoping) : Prop where
  size : ∀ x y, x.modules.size = y.modules.size → (change x).modules.size = (change y).modules.size
  grows : ∀ x, x.modules.size ≤ (change x).modules.size
  below : ∀ x m, m < floor → (change x).modules.names m = x.modules.names m

namespace Scoping

def withModule (x : Scoping) : Scoping := { x with modules := x.modules.add }

def withMode (mode : Bool) (x : Scoping) : Scoping := { x with globalMode := mode }

/-- In global mode the verbs of `b` are merged into the module. -/
def merging (module : ModuleId) (b : BuildId) (x : Scoping) : Scoping :=
  if x.globalMode then { x with modules := x.modules.merging module b } else x

theorem size_merging (module : ModuleId) (b : BuildId) (x : Scoping) :
    (x.merging module b).modules.size = x.modules.size := by
  unfold merging
  split <;> rfl

theorem regular_withModule (floor : ModuleId) : Regular floor withModule where
  size _ _ h := congrArg (· + 1) h
  grows _ := Nat.le_succ _
  below _ _ _ := rfl

theorem regular_withMode (floor : ModuleId) (mode : Bool) : Regular floor (withMode mode) :=
  ⟨fun _ _ h => h, fun _ => Nat.le_refl _, fun _ _ _ => rfl⟩

theorem regular_merging {floor module : ModuleId} (h : floor ≤ module) (b : BuildId) :
    Regular floor (merging module b) where
  size x y hxy := by rw [size_merging, size_merging, hxy]
  grows x := Nat.le_of_eq (size_merging module b x).symm
  below x m hm := by
    unfold merging
    split
    · exact if_neg (Nat.ne_of_lt (Nat.lt_of_lt_of_le hm h))
    · rfl

end Scoping

namespace Session

def build (s : Session) (b : BuildId) : Build := s.builds.getD b {}

/-- The node that the next group of a build becomes. -/
def nextNode (s : Session) (b : BuildId) (name : Value) : NodeId :=
  ((s.build b).forest.add name (s.build b).cursor).2

/-- A group is opened below the cursor. -/
def opened (s : Session) (b : BuildId) (name : Value) : Session :=
  { s with builds := s.builds.modify b fun _ =>
      { forest := ((s.build b).forest.add name (s.build b).cursor).1, cursor := some (s.nextNode b name) } }

def withCursor (s : Session) (b : BuildId) (cursor : Option NodeId) : Session :=
  { s with builds := s.builds.modify b fun build => { build with cursor } }

def declaring (s : Session) (b : BuildId) (n : NodeId) (d : Declaration) : Session :=
  { s with builds := s.builds.modify b fun build => { build with forest := build.forest.declare n d } }

/-- A new build is current. -/
def entering (s : Session) : Session :=
  { s with builds := s.builds.push {}, building := some s.builds.size }

def withBuilding (s : Session) (b : Option BuildId) : Session := { s with building := b }

def withRunning (s : Session) (e : Option EngineId) : Session := { s with running := e }

/-- There is a new engine. -/
def adding (s : Session) (kind : EngineKind) : Session :=
  { s with engines := s.engines.push (.fresh kind) }

def withEngine (s : Session) (e : EngineId) (x : Engine) : Session :=
  { s with engines := s.engines.setIfInBounds e x }

theorem getD_modify (builds : Array Build) (i j : BuildId) (change : Build → Build) :
    (builds.modify i change).getD j {} =
      if i = j ∧ j < builds.size then change (builds.getD j {}) else builds.getD j {} := by
  by_cases hj : j < builds.size
  · simp only [Array.getD, Array.size_modify, hj, dif_pos, and_true, Array.getInternal_eq_getElem,
      Array.getElem_modify]
  · simp [Array.getD, hj]

theorem cursor_declaring (s : Session) (b : BuildId) (n : NodeId) (d : Declaration) :
    ((s.declaring b n d).build b).cursor = (s.build b).cursor := by
  simp only [declaring, build, getD_modify]
  split <;> rfl

namespace Matches

variable {loose : Prop} {s s' : Session} (h : s.Matches loose s')
include h

theorem opened (b : BuildId) (name : Value) : (s.opened b name).Matches loose (s'.opened b name) :=
  ⟨h.memory, by simp only [Session.opened, Session.nextNode, build, h.builds], h.building⟩

theorem withCursor (b : BuildId) (cursor : Option NodeId) :
    (s.withCursor b cursor).Matches loose (s'.withCursor b cursor) :=
  ⟨h.memory, by simp only [Session.withCursor, h.builds], h.building⟩

theorem declaring (b : BuildId) (n : NodeId) (d : Declaration) :
    (s.declaring b n d).Matches loose (s'.declaring b n d) :=
  ⟨h.memory, by simp only [Session.declaring, h.builds], h.building⟩

theorem entering : s.entering.Matches loose s'.entering :=
  ⟨h.memory, by simp only [Session.entering, h.builds], by simp only [Session.entering, h.builds]⟩

theorem withBuilding (b : Option BuildId) : (s.withBuilding b).Matches loose (s'.withBuilding b) :=
  ⟨h.memory, h.builds, rfl⟩

theorem withEngine (e : EngineId) (x : Engine) : s.Matches loose (s'.withEngine e x) :=
  ⟨h.memory, h.builds, h.building⟩

theorem configuring {change : Scoping → Scoping} {floor : ModuleId} (hc : Scoping.Regular floor change) :
    (s.configuring change).Matches loose (s'.configuring change) :=
  ⟨{ h.memory with
      modules := hc.size _ _ h.memory.modules
      scoping := fun hl => congrArg change (h.memory.scoping hl) }, h.builds, h.building⟩

end Matches

end Session

theorem Act.get_apply (s : Session) : (get : Act Session) s = (.ok s, s) := rfl

theorem Act.reading_apply {α : Type} (f : Heap → Except Failure α) (s : Session) :
    reading f s = (f s.heap, s) := by
  show (Act.ofExcept (f s.heap) : Act α) s = _
  cases f s.heap <;> rfl

theorem Act.requireBuilding_apply (b : BuildId) (verb : String) (s : Session) :
    requireBuilding b verb s =
      (if s.building = some b then .ok () else .error (.misuse (.notBuilding verb) none), s) := by
  show (if s.building = some b then pure () else misuse (.notBuilding verb) : Act Unit) s = _
  split <;> rfl

theorem Act.requireCursor_none {b : BuildId} {s : Session} (h : (s.build b).cursor = none) (verb : String) :
    requireCursor b verb s = (.error (.misuse (.outsideGroup verb) none), s) := by
  have hbuild : Act.build b s = (.ok (s.build b), s) := rfl
  rw [requireCursor, bind_ok hbuild, h]
  rfl

theorem Act.requireCursor_some {b : BuildId} {n : NodeId} {s : Session} (h : (s.build b).cursor = some n)
    (verb : String) : requireCursor b verb s = (.ok n, s) := by
  have hbuild : Act.build b s = (.ok (s.build b), s) := rfl
  rw [requireCursor, bind_ok hbuild, h]
  rfl

theorem Act.currentEngine_none {s : Session} (h : s.running = none) :
    currentEngine s = (.error (.misuse .noEngine none), s) := by
  rw [currentEngine, bind_ok (get_apply s), h]
  rfl

theorem Act.currentEngine_some {s : Session} {e : EngineId} (h : s.running = some e) :
    currentEngine s = (.ok e, s) := by
  rw [currentEngine, bind_ok (get_apply s), h]
  rfl

theorem Act.comparing_ask (call : Call) (v : Value) (operation : Operation) (args : List Value) (s : Session) :
    (comparing call).ask v operation args s =
      ((v.method? s.heap operation).mapM (call · (v :: args) [])) s := bind_ok (get_apply s)

/-- A truth value is not asked. -/
theorem Act.holds_bool (call : Call) (b : Bool) : (comparing call).holds (.value (.bool b)) = pure b := rfl

theorem Act.newModule_apply (s : Session) :
    newModule s = (.ok s.modules.size, s.configuring Scoping.withModule) := rfl

theorem Act.mergeVerbs_apply (module : ModuleId) (b : BuildId) (s : Session) :
    mergeVerbs module b s = (.ok (), s.configuring (Scoping.merging module b)) := by
  rw [mergeVerbs, bind_ok (get_apply s)]
  by_cases hmode : s.globalMode = true
  · have hmerged : Scoping.merging module b s.scoping = _ := if_pos hmode
    rw [if_pos hmode, Session.configuring, hmerged]
    rfl
  · have hsame : Scoping.merging module b s.scoping = s.scoping := if_neg hmode
    rw [if_neg hmode, Session.configuring, hsame]
    rfl

/-! ### Builder functions -/

/-- What is left of an invocation once the verbs of `b` were found. -/
def Act.inScope (fn : BuilderFunction) (b : BuildId) : Act Unit := do
  saveBuilder fn.saveAs b
  fn.body { builder := some b }

theorem lookup_verbs (b : BuildId) {names : List String} {name : String} (h : name ∈ names) :
    List.lookup name (names.map (·, b)) = some b := by
  induction names with
  | nil => cases h
  | cons n rest ih =>
    rw [List.map_cons, List.lookup_cons]
    cases hn : name == n with
    | true => rfl
    | false => exact ih ((List.mem_cons.mp h).resolve_left (ne_of_beq_false hn))

namespace verbLayers

variable (module : Bindings BuildId) (b : BuildId) {name : String} (h : name ∈ Act.verbNames)

theorem names_verbs : (verbLayers module b).verbs.names = Act.verbNames := by
  rw [verbLayers, Layers.ofModule, Bindings.names, List.map_map]
  exact List.map_id _

theorem attributes : ∀ n ∈ moduleAttributes, n ∉ (verbLayers module b).verbs.names := by
  rw [names_verbs]
  decide

theorem untouched : (verbLayers module b).Untouched := Layers.untouched_ofModule module _

include h

/-- The verbs are those of the builder, whatever the module has under their names. -/
theorem find?_layered : (verbLayers module b).find? true name = some b := by
  have hverb : (verbLayers module b).verbs.lookup name = some b := lookup_verbs b h
  rw [(untouched module b).find?_eq (attributes module b), hverb, Option.some_or]

/-- They are also found in the module, once they were merged into it. -/
theorem find?_merged : (verbLayers (verbLayers module b).merge.module b).find? false name = some b := by
  have hnodup : (verbLayers module b).verbs.names.Nodup := by
    rw [names_verbs]
    decide
  have hsame := (untouched module b).find?_eq_merge (attributes module b) hnodup name
  rw [find?_layered module b h] at hsame
  rw [hsame]
  rfl

end verbLayers

/-- A builder that is invoked finds its verbs in either mode. -/
theorem Scoping.find?_merging (x : Scoping) (module : ModuleId) (b : BuildId) {name : String}
    (h : name ∈ Act.verbNames) :
    (verbLayers ((x.merging module b).modules.names module) b).find? (!(x.merging module b).globalMode) name =
      some b := by
  unfold merging
  by_cases hmode : x.globalMode = true
  · rw [if_pos hmode]
    show (verbLayers (if module = module then _ else _) b).find? (!x.globalMode) name = _
    rw [if_pos rfl, hmode]
    exact verbLayers.find?_merged _ b h
  · rw [if_neg hmode, Bool.eq_false_iff.mpr hmode]
    exact verbLayers.find?_layered _ b h

theorem Act.readVerbs_found {layers : Layers BuildId} {layered : Bool} {b : BuildId} {names : List String}
    (h : ∀ n ∈ names, layers.find? layered n = some b) :
    names.mapM (readVerb layers layered) = pure (names.map fun _ => b) := by
  induction names with
  | nil => rfl
  | cons n rest ih =>
    have hread : readVerb layers layered n = pure b := by rw [readVerb, h n List.mem_cons_self]
    rw [List.mapM_cons, hread, ih fun n hn => h n (.tail _ hn)]
    rfl

/-- A builder function that reads the verbs in its own code finds those of its builder, in a layer over its
module or merged into it. -/
theorem Act.visibleBuilder_merging {fn : BuilderFunction} (h : fn.style.source ≠ .moduleNames) (b : BuildId)
    (s : Session) : visibleBuilder fn b (s.configuring (.merging fn.module b)) =
      (.ok b, s.configuring (.merging fn.module b)) := by
  have hfound := readVerbs_found fun _ hn => s.scoping.find?_merging fn.module b hn
  rw [visibleBuilder, bind_ok (get_apply _)]
  cases hsource : fn.style.source with
  | handed => rfl
  | moduleNames => exact absurd hsource h
  | ownNames => exact congrArg (fun found => (return (← found).headD b : Act BuildId) _) hfound

/-- Then the rest of the invocation is that of the builder. -/
theorem Act.invoke_apply {fn : BuilderFunction} (h : fn.style.source ≠ .moduleNames) (b : BuildId)
    (s : Session) : invoke fn b s = inScope fn b (s.configuring (.merging fn.module b)) :=
  (bind_ok (mergeVerbs_apply fn.module b s)).trans (bind_ok (visibleBuilder_merging h b s))

/-! ### Hooks -/

section Hooks

variable {R : Session → Session → Prop} {call call' : Call}
  (hc : ∀ v args named, Alike R (call v args named) (call' v args named))
include hc

theorem Act.runHooks_alike (hooks : List Value) : Alike R (runHooks call hooks) (runHooks call' hooks) := by
  induction hooks with
  | nil => exact .pure _
  | cons hook rest ih => exact (hc hook [] []).bind fun _ => ih

theorem Act.runHook_alike (hook : Hook) : Alike R (runHook call hook) (runHook call' hook) := by
  cases hook with
  | procedure v => exact (hc v [] []).bind fun _ => .pure _
  | rolled hooks => exact runHooks_alike hc hooks

theorem Act.wrapped_alike (setup : Hook) (body : Value) {teardown teardown' : Act Hook}
    (ht : ∀ {k k' : Hook → Act Unit}, (∀ x, Alike R (k x) (k' x)) →
      Alike R (teardown >>= k) (teardown' >>= k')) :
    Alike R (wrapped call setup body teardown) (wrapped call' setup body teardown') := by
  refine (runHook_alike hc setup).bind fun _ s s' h => ?_
  refine AlikeAt.ensuring (((hc body [] []).bind fun _ => .pure _) s s' h) fun t t' h => ?_
  exact ht (fun x => runHook_alike hc x) t t' h

end Hooks

/-! ### Waits -/

/-- What a wait does between its pause and its end. -/
def Act.waited (call : Call) (ms body : Value) : Act Unit := do
  tick call (← quotient ms 1000)
  let _ ← call body [] []

section Waits

variable {loose : Prop} {R : Session → Session → Prop} {call call' : Call}
  (same : ∀ {s s'}, R s s' → s.Matches loose s')
  (memory : ∀ {s s'} {m : Memory}, R s s' → s.heap.Kept m.heap → (loose → m.heap.Helperless) →
    R (s.recalling m) (s'.recalling m))
  (hc : ∀ v args named, Alike R (call v args named) (call' v args named))
include same memory hc

theorem Act.tick_alike (seconds : Value) : Alike R (tick call seconds) (tick call' seconds) := by
  intro s s' h
  refine .get ?_
  rw [← (same h).memory.clock]
  cases s.clock with
  | none => exact (Quiet.record (.clock seconds)).alike same memory s s' h
  | some clock => exact ((hc clock [seconds] []).bind fun _ => .pure _) s s' h

theorem Act.waited_alike (ms body : Value) : Alike R (waited call ms body) (waited call' ms body) :=
  ((quotient_quiet ms 1000).alike same memory).bind fun seconds => (tick_alike same memory hc seconds).bind
    fun _ => (hc body [] []).bind fun _ => .pure _

theorem Act.waitOn_alike {e e' : EngineId} (hpause : Alike R (pause e) (pause e'))
    (hresume : Alike R (resume e) (resume e')) (ms body : Value) :
    Alike R (waitOn call e ms body) (waitOn call' e' ms body) :=
  hpause.bind fun _ s s' h => AlikeAt.ensuring (waited_alike same memory hc ms body s s' h) hresume

end Waits

/-! ### Accords -/

/-- Into a world where `P` holds, and back from wherever that world has led. -/
def Through {W : Type} (rel : W → Session → Session → Prop) (w : W) (t t' : Session) (P : W → Prop)
    (back back' : Session → Session) : Prop :=
  ∃ w', rel w' t t' ∧ P w' ∧ ∀ u u', rel w' u u' → rel w (back u) (back' u')

/-- What carries a relation of two runs through builds: memory may change, groups open and close,
and builds begin and end. -/
structure BuildAccord where
  /-- Whether only programs without helpers go alike. -/
  Helperless : Prop := False
  /-- The modules below this one are not those of builder functions in programs. -/
  floor : ModuleId := 0
  World : Type
  rel : World → Session → Session → Prop
  same : ∀ {w s s'}, rel w s s' → s.Matches Helperless s'
  modules : ∀ {w s s'}, rel w s s' → floor ≤ s.modules.size := by exact fun _ => Nat.zero_le _
  memory : ∀ {w s s' m}, rel w s s' → s.heap.Kept m.heap → (Helperless → m.heap.Helperless) →
    rel w (s.recalling m) (s'.recalling m)
  scoping : ∀ {w s s' change}, rel w s s' → Scoping.Regular floor change →
    rel w (s.configuring change) (s'.configuring change)
  group : ∀ {w s s' b} name, rel w s s' → s.building = some b →
    Through rel w (s.opened b name) (s'.opened b name) (fun _ => True)
      (·.withCursor b (s.build b).cursor) (·.withCursor b (s.build b).cursor)
  declare : ∀ {w s s' b n d}, rel w s s' → s.building = some b → (s.build b).cursor = some n →
    d.Allowed s.heap → rel w (s.declaring b n d) (s'.declaring b n d)
  build : ∀ {w s s'}, rel w s s' → Through rel w s.entering s'.entering (fun _ => True)
    (·.withBuilding s.building) (·.withBuilding s.building)

/-- What carries a relation of two runs through every program. An engine of one side goes with
one of the other: `twin` engines are the same in all they hold, of `odd` ones it is known that
every operation goes alike. -/
structure Accord (barred barred' : Option Bar) extends BuildAccord where
  twin : World → EngineId → EngineId → Prop
  odd : World → EngineId → EngineId → Prop
  thread : ∀ {w s s'}, rel w s s' →
    Through rel w ((s.withBuilding none).withRunning none) ((s'.withBuilding none).withRunning none)
      (fun _ => True) (fun t => (t.withRunning s.running).withBuilding s.building)
      (fun t => (t.withRunning s'.running).withBuilding s'.building)
  current : ∀ {w s s'}, rel w s s' → (s.running = none ∧ s'.running = none) ∨
    ∃ e e', s.running = some e ∧ s'.running = some e' ∧ (twin w e e' ∨ odd w e e')
  run : ∀ {w s s' e e'}, rel w s s' → twin w e e' →
    Through rel w (s.withRunning (some e)) (s'.withRunning (some e')) (twin · e e')
      (·.withRunning s.running) (·.withRunning s'.running)
  fresh : ∀ {w s s'} kind, rel w s s' →
    Through rel w (s.adding kind) (s'.adding kind) (twin · s.engines.size s'.engines.size) id id
  content : ∀ {w s s' e e'}, rel w s s' → twin w e e' →
    s.engines.getD e .recording = s'.engines.getD e' .recording
  setting : ∀ {w s s' e e'} x, rel w s s' → twin w e e' → rel w (s.withEngine e x) (s'.withEngine e' x)
  free : ∀ {w e e'}, twin w e e' →
    barred.map Bar.engine ≠ some e ∧ barred'.map Bar.engine ≠ some e'
  report : ∀ {w e e'} passed message, odd w e e' →
    Alike (rel w) (reportTo e passed message) (reportTo e' passed message)
  pause : ∀ {w e e'}, odd w e e' → Alike (rel w)
    (handling barred e (pause e)) (handling barred' e' (pause e'))
  resume : ∀ {w e e'}, odd w e e' → Alike (rel w)
    (handling barred e (resume e)) (handling barred' e' (resume e'))
  wait : ∀ {w e e' call call'} ms body, odd w e e' →
    (∀ w v args named, Alike (rel w) (call v args named) (call' v args named)) →
    Alike (rel w) (waitOn call e ms body) (waitOn call' e' ms body)
  setTitle : ∀ {w e e'} title, odd w e e' → Alike (rel w)
    (telling barred e .runInsideSpec (setTitle e title))
    (telling barred' e' .runInsideSpec (setTitle e' title))
  declareGroup : ∀ {w e e'} name setup teardown, odd w e e' → Alike (rel w)
    (telling barred e .groupInsideSpec (declareGroup e name setup teardown))
    (telling barred' e' .groupInsideSpec (declareGroup e' name setup teardown))
  runTest : ∀ {w e e' call call'} description body, odd w e e' →
    (∀ w v args named, Alike (rel w) (call v args named) (call' v args named)) → Alike (rel w)
    (driving barred e .testInsideSpec (runTest call e description body))
    (driving barred' e' .testInsideSpec (runTest call' e' description body))
  specify : ∀ {w e e' call call' style saveAs module body body'} name, odd w e e' →
    (∀ w v args named, Alike (rel w) (call v args named) (call' v args named)) →
    (∀ w f, Alike (rel w) (body f) (body' f)) → Alike (rel w)
    (specifyOn barred call e name ⟨style, saveAs, module, body⟩)
    (specifyOn barred' call' e' name ⟨style, saveAs, module, body'⟩)

namespace BuildAccord

variable (A : BuildAccord) {w : A.World} {α β : Type}

/-- All programs go alike. -/
def Total : Prop := ¬A.Helperless ∧ ∀ module, A.floor ≤ module

/-- All calls go alike. -/
def Calls (call call' : Call) : Prop :=
  ∀ w v args named, Alike (A.rel w) (call v args named) (call' v args named)

/-- Where the same session is on both sides, it is enough that the calls are the same from there. -/
theorem calls_of_same {call call' : Call} (heq : ∀ {w s s'}, A.rel w s s' → s = s') (hc : A.Calls call call)
    (hsame : ∀ w s, A.rel w s s → ∀ v args named, call' v args named s = call v args named s) :
    A.Calls call' call := by
  intro w v args named s s' h
  obtain rfl := heq h
  unfold AlikeAt
  rw [hsame w s h]
  exact hc w v args named s s h

theorem quiet {a : Act α} (h : Quiet A.Helperless a) : Alike (A.rel w) a a := h.alike A.same A.memory

/-- Comparisons go alike if the calls that they make do. -/
theorem comparing_related {call call' : Call} (hc : A.Calls call call') :
    Comparing.Related (fun a a' => Alike (A.rel w) a a') (comparing call) (comparing call') where
  pure a := .pure a
  bind ha hk := ha.bind hk
  store := A.quiet (.get (fun s => .pure s.heap) fun s s' hm => by rw [hm.heap])
  fail f := .throw f
  ask v operation args := by
    refine fun s s' h => .get ?_
    rw [← (A.same h).memory.heap]
    cases v.method? s.heap operation with
    | some method => exact (hc w method (v :: args) []).bind (fun _ => .pure _) s s' h
    | none => exact Alike.pure none s s' h

/-! ### Modules -/

/-- New modules are not below the floor. -/
theorem newModule_alike {k k' : ModuleId → Act α}
    (hk : ∀ module, A.floor ≤ module → Alike (A.rel w) (k module) (k' module)) :
    Alike (A.rel w) (newModule >>= k) (newModule >>= k') := by
  intro s s' h
  unfold AlikeAt
  rw [bind_ok (newModule_apply s), bind_ok (newModule_apply s'), ← (A.same h).memory.modules]
  exact hk _ (A.modules h) _ _ (A.scoping h (Scoping.regular_withModule _))

theorem mergeVerbs_alike {module : ModuleId} (hm : A.floor ≤ module) (b : BuildId) :
    Alike (A.rel w) (mergeVerbs module b) (mergeVerbs module b) := by
  intro s s' h
  unfold AlikeAt
  rw [mergeVerbs_apply, mergeVerbs_apply]
  exact ⟨rfl, A.scoping h (Scoping.regular_merging hm b)⟩

theorem withMode_alike (mode : Bool) :
    Alike (A.rel w) (modify (·.configuring (Scoping.withMode mode)) : Act PUnit)
      (modify (·.configuring (Scoping.withMode mode))) :=
  fun _ _ h => ⟨rfl, A.scoping h (Scoping.regular_withMode _ mode)⟩

/-! ### Building -/

theorem build_eq {s s' : Session} (h : A.rel w s s') (b : BuildId) : s'.build b = s.build b := by
  simp only [Session.build, (A.same h).builds]

/-- Into a world and back on every way out. -/
theorem within_alike {t t' : Session} {P : A.World → Prop} {back back' : Session → Session}
    (h : Through A.rel w t t' P back back') {a a' : Act α} (ha : ∀ w, P w → Alike (A.rel w) a a') :
    AlikeAt (A.rel w) (ensuring a (modify back)) (ensuring a' (modify back')) t t' := by
  obtain ⟨w', hw, hP, hback⟩ := h
  exact (ha w' hP t t' hw).ensuring fun u u' hu => ⟨rfl, hback u u' hu⟩

theorem insideGroup_alike {b : BuildId} (name : Value) {a a' : NodeId → Act α}
    (ha : ∀ w node, Alike (A.rel w) (a node) (a' node)) {s s' : Session} (h : A.rel w s s')
    (hb : s.building = some b) : AlikeAt (A.rel w) (insideGroup b name a) (insideGroup b name a') s s' := by
  have hbuild := A.build_eq h b
  show AlikeAt (A.rel w)
    (fun s => ensuring (a (s.nextNode b name)) (setCursor b (s.build b).cursor) (s.opened b name))
    (fun s => ensuring (a' (s.nextNode b name)) (setCursor b (s.build b).cursor) (s.opened b name)) s s'
  unfold AlikeAt
  simp only [Session.nextNode, hbuild]
  exact A.within_alike (A.group name h hb) fun w _ => ha w _

/-- A verb that asks for its own build goes alike if what follows does while the build is current. -/
theorem requireBuilding_alike {b : BuildId} {verb : String} {k k' : Act α}
    (hk : ∀ s s', A.rel w s s' → s.building = some b → AlikeAt (A.rel w) k k' s s') :
    Alike (A.rel w) (requireBuilding b verb >>= fun _ => k) (requireBuilding b verb >>= fun _ => k') := by
  intro s s' h
  by_cases hb : s.building = some b
  · have hb' : s'.building = some b := (A.same h).building ▸ hb
    unfold AlikeAt
    rw [bind_ok ((requireBuilding_apply b verb s).trans (by rw [if_pos hb])),
      bind_ok ((requireBuilding_apply b verb s').trans (by rw [if_pos hb']))]
    exact hk s s' h hb
  · have hb' : s'.building ≠ some b := (A.same h).building ▸ hb
    unfold AlikeAt
    rw [bind_error ((requireBuilding_apply b verb s).trans (by rw [if_neg hb])),
      bind_error ((requireBuilding_apply b verb s').trans (by rw [if_neg hb']))]
    exact ⟨rfl, h⟩

theorem describe_alike {call call' : Call} (hc : A.Calls call call') (b : BuildId) (name body : Value) :
    Alike (A.rel w) (describe call b name body) (describe call' b name body) := by
  unfold describe
  split
  · exact A.quiet ((Quiet.alloc rfl).bind fun _ => .pure _)
  · exact A.requireBuilding_alike fun s s' h hb =>
      A.insideGroup_alike name (fun w node => (hc w body [] []).bind fun _ => .pure _) h hb

/-- The build `b` is current, and the group `n` is open in it. -/
def Open (w : A.World) (b : BuildId) (n : NodeId) (s s' : Session) : Prop :=
  A.rel w s s' ∧ s.building = some b ∧ (s.build b).cursor = some n

theorem quiet_open {a : Act α} (h : Quiet A.Helperless a) (b : BuildId) (n : NodeId) :
    Alike (A.Open w b n) a a := by
  intro s s' ⟨hs, hb, hn⟩
  obtain ⟨hr, m, hk, hl, ht, ht'⟩ := h.at (A.same hs)
  refine ⟨hr, ?_, ?_⟩
  · rw [ht, ht']
    exact A.memory hs hk hl
  · rw [ht]
    exact ⟨hb, hn⟩

theorem Open.declare {A : BuildAccord} {w : A.World} {b : BuildId} {n : NodeId} {s s' : Session}
    (h : A.Open w b n s s') {d : Declaration} (hd : d.Allowed s.heap) :
    A.Open w b n (s.declaring b n d) (s'.declaring b n d) := by
  obtain ⟨hs, hb, hn⟩ := h
  exact ⟨A.declare hs hb hn hd, hb, (s.cursor_declaring b n d).trans hn⟩

/-- A verb that changes the open group goes alike if what follows does while the group is open. -/
theorem openGroup_alike {b : BuildId} {verb : String} {k k' : NodeId → Act α}
    (hk : ∀ n s s', A.Open w b n s s' → AlikeAt (A.rel w) (k n) (k' n) s s') :
    Alike (A.rel w) (openGroup b verb >>= k) (openGroup b verb >>= k') := by
  unfold openGroup
  simp only [bind_assoc]
  refine A.requireBuilding_alike fun s s' h hb => ?_
  have hbuild := A.build_eq h b
  cases hn : (s.build b).cursor with
  | none =>
    unfold AlikeAt
    rw [bind_error (requireCursor_none hn verb), bind_error (requireCursor_none (hbuild ▸ hn) verb)]
    exact ⟨rfl, h⟩
  | some n =>
    unfold AlikeAt
    rw [bind_ok (requireCursor_some hn verb), bind_ok (requireCursor_some (hbuild ▸ hn) verb)]
    exact hk n s s' ⟨h, hb, hn⟩

theorem before_alike (b : BuildId) (hook : Value) : Alike (A.rel w) (before b hook) (before b hook) :=
  A.openGroup_alike fun _ _ _ h => ⟨rfl, (h.declare (d := .setup hook) trivial).1⟩

theorem after_alike (b : BuildId) (hook : Value) : Alike (A.rel w) (after b hook) (after b hook) :=
  A.openGroup_alike fun _ _ _ h => ⟨rfl, (h.declare (d := .teardown hook) trivial).1⟩

theorem addSpec_alike {b : BuildId} {n : NodeId} (description body : Value) {s s' : Session}
    (h : A.Open w b n s s') :
    AlikeAt (A.rel w) (addSpec b n description body) (addSpec b n description body) s s' := by
  refine .get ?_
  rw [← (A.same h.1).heap]
  dsimp only
  split
  · rename_i hcall
    split
    · rename_i text _
      exact ⟨rfl, (h.declare (d := .spec ⟨text, body⟩) hcall).1⟩
    · exact ⟨rfl, h.1⟩
  · exact A.quiet (misuseAt_quiet _ _ _ _) s s' h.1

theorem it_alike (b : BuildId) (description body : Value) :
    Alike (A.rel w) (it b description body) (it b description body) := by
  refine A.openGroup_alike fun n s s' h => ?_
  have hbody := A.quiet_open (givenOr_quiet stub_quiet body) b n s s' h
  exact hbody.bind_into (fun _ _ ht => ht.1) fun body t t' ht => A.addSpec_alike description body ht

theorem givenSpec_alike (b : BuildId) (description body arg : Value) :
    Alike (A.rel w) (givenSpec b description body arg) (givenSpec b description body arg) :=
  (A.quiet (.reading _)).bind fun text => (A.quiet (givenBody_quiet arg body)).bind fun body =>
    A.it_alike b (.text text) body

theorem givenIt_alike (b : BuildId) (description body : Value) (args : List Value) :
    Alike (A.rel w) (givenIt b description body args) (givenIt b description body args) := by
  induction args with
  | nil => exact .pure _
  | cons arg args ih => exact (A.givenSpec_alike b description body arg).bind fun _ => ih.bind fun _ => .pure _

theorem givenIts_alike (f : Frame) (b : BuildId) (args : List Value) (logged : Bool)
    {its : List (Term × Body)} (hi : A.Helperless → Step.ItsHelperless its) :
    Alike (A.rel w) (givenIts f b args logged its) (givenIts f b args logged its) := by
  induction its with
  | nil => exact .pure _
  | cons entry rest ih =>
    exact (A.quiet (Term.eval_quiet f _ (hi · |>.1))).bind fun description =>
      (A.quiet (Body.eval_quiet f _ (hi · |>.2.1))).bind fun body =>
        (A.givenIt_alike b description body args).bind fun declared =>
          (A.quiet (recordIf_quiet logged _)).bind fun _ => ih (hi · |>.2.2)

/-! ### Builds -/

variable {style : Style} {saveAs : Option String} {module : ModuleId} {body body' : Frame → Act Unit}

section Builders

variable (hs : A.Helperless → style.source ≠ .moduleNames) (hm : A.floor ≤ module)
  (hb : ∀ w f, Alike (A.rel w) (body f) (body' f))
include hb

theorem inScope_alike (b : BuildId) :
    Alike (A.rel w) (inScope ⟨style, saveAs, module, body⟩ b) (inScope ⟨style, saveAs, module, body'⟩ b) :=
  (A.quiet (saveBuilder_quiet saveAs b)).bind fun _ => hb w _

include hs hm

/-- A builder function finds the same verbs on both sides: its own, or those that its module has where this
is the same. -/
theorem invoke_alike (b : BuildId) :
    Alike (A.rel w) (invoke ⟨style, saveAs, module, body⟩ b) (invoke ⟨style, saveAs, module, body'⟩ b) := by
  by_cases hsource : style.source = .moduleNames
  · have hvisible := visibleBuilder_quiet ⟨style, saveAs, module, body⟩ b
    rw [← eq_false fun hA => hs hA hsource] at hvisible
    exact (A.mergeVerbs_alike hm b).bind fun _ => (A.quiet hvisible).bind fun visible =>
      A.inScope_alike hb visible
  · intro s s' h
    have hscope : Alike (A.rel w) (inScope ⟨style, saveAs, module, body⟩ b)
        (inScope ⟨style, saveAs, module, body'⟩ b) := A.inScope_alike hb b
    unfold AlikeAt
    rw [invoke_apply hsource, invoke_apply hsource]
    exact hscope _ _ (A.scoping h (Scoping.regular_merging hm b))

theorem buildForest_alike : Alike (A.rel w) (buildForest ⟨style, saveAs, module, body⟩)
    (buildForest ⟨style, saveAs, module, body'⟩) := by
  intro s s' h
  have he : ∀ (fn : BuilderFunction) (t : Session), buildForest fn t =
      (ensuring (invoke fn t.builds.size) (modify (·.withBuilding t.building)) >>=
        fun _ => pure t.builds.size : Act BuildId) t.entering := fun _ _ => rfl
  unfold AlikeAt
  rw [he, he, ← (A.same h).builds]
  refine AlikeAt.bind (R := A.rel w) ?_ fun _ => .pure _
  have hin := A.build h
  rw [(A.same h).building] at hin ⊢
  exact A.within_alike hin fun w _ => A.invoke_alike hs hm hb _

end Builders

end BuildAccord

namespace Accord

variable {barred barred' : Option Bar} (A : Accord barred barred') {w : A.World} {α : Type}

/-! ### Engines -/

variable {e e' : EngineId}

/-- What is done with the current engine goes alike if it does for twins and for odd engines. -/
theorem currentEngine_alike {k k' : EngineId → Act α}
    (hk : ∀ e e', A.twin w e e' ∨ A.odd w e e' → Alike (A.rel w) (k e) (k' e')) :
    Alike (A.rel w) (currentEngine >>= k) (currentEngine >>= k') := by
  intro s s' h
  unfold AlikeAt
  rcases A.current h with ⟨hn, hn'⟩ | ⟨e, e', he, he', hpair⟩
  · rw [bind_error (currentEngine_none hn), bind_error (currentEngine_none hn')]
    exact ⟨rfl, h⟩
  · rw [bind_ok (currentEngine_some he), bind_ok (currentEngine_some he')]
    exact hk e e' hpair s s' h

/-- Twins hold the same. -/
theorem engine_alike (ht : A.twin w e e') {k k' : Engine → Act α}
    (hk : ∀ x, Alike (A.rel w) (k x) (k' x)) :
    Alike (A.rel w) (engine e >>= k) (engine e' >>= k') := by
  intro s s' h
  show AlikeAt (A.rel w) (k (s.engines.getD e .recording)) (k' (s'.engines.getD e' .recording)) s s'
  rw [← A.content h ht]
  exact hk _ s s' h

theorem setEngine_alike (ht : A.twin w e e') (x : Engine) :
    Alike (A.rel w) (setEngine e x) (setEngine e' x) := fun _ _ h => ⟨rfl, A.setting x h ht⟩

theorem setTitle_alike (ht : A.twin w e e') (title : Value) :
    Alike (A.rel w) (Act.setTitle e title) (Act.setTitle e' title) := by
  refine A.engine_alike ht fun x => ?_
  cases x with
  | sync s => exact A.setEngine_alike ht _
  | collecting c => exact A.setEngine_alike ht _
  | item i => exact .throw _
  | recording => exact A.quiet (.record _)

theorem declareGroup_alike (ht : A.twin w e e') (name : Value) (setup teardown : Hook) :
    Alike (A.rel w) (Act.declareGroup e name setup teardown) (Act.declareGroup e' name setup teardown) := by
  refine A.engine_alike ht fun x => ?_
  cases x with
  | sync s => exact A.setEngine_alike ht _
  | collecting c =>
    intro s s' h
    refine .get ?_
    rw [← (A.same h).heap]
    dsimp only
    split
    · exact A.setEngine_alike ht _ s s' h
    · exact Alike.throw _ s s' h
  | item i => exact .throw _
  | recording => exact A.quiet (.record _)

theorem changeSync_alike (ht : A.twin w e e') (change : SyncEngine → SyncEngine) :
    Alike (A.rel w) (changeSync e change) (changeSync e' change) := by
  refine A.engine_alike ht fun x => ?_
  split
  · exact A.setEngine_alike ht _
  · exact .pure _

theorem syncEngine_alike (ht : A.twin w e e') {k k' : SyncEngine → Act α}
    (hk : ∀ x, Alike (A.rel w) (k x) (k' x)) :
    Alike (A.rel w) (syncEngine e >>= k) (syncEngine e' >>= k') := by
  unfold syncEngine
  rw [bind_assoc, bind_assoc]
  refine A.engine_alike ht fun x => ?_
  split <;> exact (Alike.pure _).bind hk

theorem reportTo_alike (ht : A.twin w e e') (passed : Bool) (message : Value) :
    Alike (A.rel w) (reportTo e passed message) (reportTo e' passed message) := by
  refine A.engine_alike ht fun x => ?_
  cases x with
  | sync s =>
    dsimp only
    split
    · exact (A.quiet (makeReport_quiet passed message)).bind fun r => A.changeSync_alike ht _
    · exact .throw _
  | collecting c => exact .throw _
  | item i => exact (A.quiet (makeReport_quiet passed message)).bind fun r => A.setEngine_alike ht _
  | recording => exact A.quiet (.record _)

theorem pause_alike (ht : A.twin w e e') : Alike (A.rel w) (Act.pause e) (Act.pause e') := by
  refine A.engine_alike ht fun x => ?_
  cases x with
  | sync s =>
    dsimp only
    split
    · exact .throw _
    · exact A.setEngine_alike ht _
  | collecting c => exact .throw _
  | item i =>
    dsimp only
    split
    · exact .throw _
    · exact A.setEngine_alike ht _
  | recording => exact A.quiet (.record _)

theorem resume_alike (ht : A.twin w e e') : Alike (A.rel w) (Act.resume e) (Act.resume e') := by
  refine A.engine_alike ht fun x => ?_
  cases x with
  | sync s => exact A.setEngine_alike ht _
  | collecting c => exact .pure _
  | item i => exact A.setEngine_alike ht _
  | recording => exact A.quiet (.record _)

theorem driving_alike (ht : A.twin w e e') (refusal : Misuse) {a a' : Act α} (ha : Alike (A.rel w) a a') :
    Alike (A.rel w) (driving barred e refusal a) (driving barred' e' refusal a') := by
  obtain ⟨hf, hf'⟩ := A.free ht
  simp only [driving, if_neg hf, if_neg hf']
  exact ha

theorem telling_alike (ht : A.twin w e e') (refusal : Misuse) {a a' : Act α} (ha : Alike (A.rel w) a a') :
    Alike (A.rel w) (telling barred e refusal a) (telling barred' e' refusal a') := by
  obtain ⟨hf, hf'⟩ := A.free ht
  have hfree : ∀ {b : Option Bar} {e : EngineId}, b.map Bar.engine ≠ some e → b ≠ some (.driving e) := by
    rintro _ e hb rfl
    exact hb rfl
  simp only [telling, if_neg (hfree hf), if_neg (hfree hf')]
  exact ha

theorem handling_alike (ht : A.twin w e e') {a a' : Act α} (ha : Alike (A.rel w) a a') :
    Alike (A.rel w) (handling barred e a) (handling barred' e' a') := by
  obtain ⟨hf, hf'⟩ := A.free ht
  have hfree : ∀ {b : Option Bar} {e : EngineId}, b.map Bar.engine ≠ some e → b ≠ some (.handling e) := by
    rintro _ e hb rfl
    exact hb rfl
  simp only [handling, if_neg (hfree hf), if_neg (hfree hf')]
  exact ha

/-! ### Tests -/

theorem runNow_alike {call call' : Call} (hc : A.Calls call call') (ht : A.twin w e e')
    (description body : Value) :
    Alike (A.rel w) (runNow call e description body) (runNow call' e' description body) := by
  refine (A.changeSync_alike ht _).bind fun _ => ?_
  refine Alike.bind (.attempt ?_) fun outcome s s' h => .get ?_
  · refine A.syncEngine_alike ht fun x => wrapped_alike (hc w) x.setup body fun hk => ?_
    rw [bind_assoc, bind_assoc]
    exact A.syncEngine_alike ht fun x => (Alike.pure _).bind hk
  · rw [← (A.same h).heap]
    refine A.syncEngine_alike ht (fun ended => ?_) s s' h
    refine (A.changeSync_alike ht _).bind fun _ => ?_
    exact (A.quiet (.ofExcept _)).bind fun error => (A.quiet (makeResult_quiet _ _ _ _)).bind fun r =>
      A.changeSync_alike ht _

theorem runTest_alike {call call' : Call} (hc : A.Calls call call') (ht : A.twin w e e')
    (description body : Value) :
    Alike (A.rel w) (Act.runTest call e description body) (Act.runTest call' e' description body) := by
  refine A.engine_alike ht fun x => ?_
  cases x with
  | sync s => exact A.runNow_alike hc ht description body
  | collecting c =>
    dsimp only
    split
    · exact .throw _
    · intro s s' h
      refine .get ?_
      rw [← (A.same h).heap]
      split
      · exact A.setEngine_alike ht _ s s' h
      · exact Alike.throw _ s s' h
  | item i => exact .throw _
  | recording => exact A.quiet (.record _)

/-! ### Runs -/

variable {style : Style} {saveAs : Option String} {module : ModuleId} {body body' : Frame → Act Unit}

theorem perform_alike {call call' : Call} (hc : A.Calls call call') (ht : A.twin w e e') (s : Statement) :
    Alike (A.rel w) (perform call e s) (perform call' e' s) := by
  cases s with
  | group name befores afters => exact A.declareGroup_alike ht _ _ _
  | test description body => exact A.runTest_alike hc ht _ _

theorem performAll_alike {call call' : Call} (hc : A.Calls call call') (ht : A.twin w e e')
    (statements : List Statement) :
    Alike (A.rel w) (performAll call e statements) (performAll call' e' statements) := by
  induction statements with
  | nil => exact .pure _
  | cons s rest ih => exact (A.perform_alike hc ht s).bind fun _ => ih

theorem runSpecification_alike {call call' : Call} (hc : A.Calls call call') (ht : A.twin w e e')
    (title : Value) (hs : A.Helperless → style.source ≠ .moduleNames) (hm : A.floor ≤ module)
    (hb : ∀ w f, Alike (A.rel w) (body f) (body' f)) :
    Alike (A.rel w) (runSpecification call title ⟨style, saveAs, module, body⟩ e)
      (runSpecification call' title ⟨style, saveAs, module, body'⟩ e') := by
  refine (A.setTitle_alike ht title).bind fun _ => (A.buildForest_alike hs hm hb).bind fun b =>
    (A.quiet (compile_quiet b)).bind fun statements s s' h => ?_
  exact A.within_alike (A.run h ht) fun w ht => A.performAll_alike hc ht statements

theorem specifyOn_alike {call call' : Call} (hc : A.Calls call call') (hp : A.twin w e e' ∨ A.odd w e e')
    (name : Value) (hs : A.Helperless → style.source ≠ .moduleNames) (hm : A.floor ≤ module)
    (hb : ∀ w f, Alike (A.rel w) (body f) (body' f)) :
    Alike (A.rel w) (specifyOn barred call e name ⟨style, saveAs, module, body⟩)
      (specifyOn barred' call' e' name ⟨style, saveAs, module, body'⟩) := by
  rcases hp with ht | ho
  · exact (A.driving_alike ht _ (A.runSpecification_alike hc ht name hs hm hb)).bind fun _ =>
      A.engine_alike ht fun x => A.quiet (.record _)
  · exact A.specify name ho hc hb

/-- A new engine may be used as long as its world lasts. -/
theorem chooseEngine_alike (choice : EngineChoice) {k k' : EngineId → Act α}
    (hk : ∀ w e e', A.twin w e e' ∨ A.odd w e e' → Alike (A.rel w) (k e) (k' e')) :
    Alike (A.rel w) (chooseEngine choice >>= k) (chooseEngine choice >>= k') := by
  cases choice with
  | fresh kind =>
    intro s s' h
    obtain ⟨w', hw, ht, back⟩ := A.fresh kind h
    obtain ⟨hr, hR⟩ := hk w' _ _ (.inl ht) _ _ hw
    exact ⟨hr, back _ _ hR⟩
  | current => exact A.currentEngine_alike (hk w)

theorem thread_alike {a a' : Act α} (ha : ∀ w, Alike (A.rel w) a a') :
    Alike (A.rel w) (duringBuild none (duringRun none a)) (duringBuild none (duringRun none a')) := by
  intro s s' h
  obtain ⟨w', hw, -, back⟩ := A.thread h
  have he : ∀ (a : Act α) (t : Session), duringBuild none (duringRun none a) t =
      ensuring (ensuring a (modify (·.withRunning t.running))) (modify (·.withBuilding t.building))
        ((t.withBuilding none).withRunning none) := fun _ _ => rfl
  unfold AlikeAt
  rw [he, he]
  have hrun := ha w' _ _ hw
  refine AlikeAt.ensuring (R := fun t t' =>
    A.rel w (t.withBuilding s.building) (t'.withBuilding s'.building)) ?_ fun t t' ht => ⟨rfl, ht⟩
  exact hrun.ensuring fun u u' hu => ⟨rfl, back u u' hu⟩

/-! ### Assertions and waits -/

theorem report_alike {call call' : Call} (hc : A.Calls call call') (passed : Answer) (message : Value) :
    Alike (A.rel w) (Act.report call passed message) (Act.report call' passed message) :=
  A.currentEngine_alike fun _ _ hp => ((A.comparing_related hc).holds passed).bind fun passed =>
    hp.elim (A.reportTo_alike · passed message) (A.report passed message)

theorem raises_alike {call call' : Call} (hc : A.Calls call call') (subject : Value) :
    Alike (A.rel w) (raises call subject) (raises call' subject) := by
  refine (hc w subject [] []).attempt.bind fun result => ?_
  split
  · exact .pure _
  · split
    · exact .throw _
    · exact .pure _

theorem find_alike {call call' : Call} (hc : A.Calls call call') (v : BuiltinVerb)
    (filled : List (String × Received Value)) : Alike (A.rel w) (find call v filled) (find call' v filled) := by
  unfold find
  split
  · exact (A.raises_alike hc _).bind fun _ => .pure _
  · exact (A.comparing_related hc).outcome v _ _

theorem runVerb_alike {call call' : Call} (hc : A.Calls call call') (v : BuiltinVerb) (args : List Value)
    (named : List (String × Value)) :
    Alike (A.rel w) (runVerb call v args named) (runVerb call' v args named) :=
  (A.quiet (bindCall_quiet _ _ _ _)).bind fun filled => (A.find_alike hc v filled).bind fun passed =>
    (A.report_alike hc passed _).bind fun _ => .pure _

theorem wait_alike {call call' : Call} (hc : A.Calls call call') (ms body : Value) :
    Alike (A.rel w) (Act.wait call ms body) (Act.wait call' ms body) :=
  A.currentEngine_alike fun _ _ hp => hp.elim
    (fun ht => waitOn_alike A.same A.memory (hc w) (A.pause_alike ht) (A.resume_alike ht) ms body)
    (A.wait ms body · hc)

end Accord

end Exemplar
