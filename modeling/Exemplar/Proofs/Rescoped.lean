import Exemplar.Proofs.Collected
import Exemplar.Proofs.Later

/-! A build in scoped mode beside the same build in global mode.

In global mode the verbs are merged into the module of the builder function, and those of every
builder function that is built meanwhile into a module of its own. A program that has its verbs from
builders, and no helpers, goes the same way in either mode, and but for the mode and the modules
leaves the same session (`Rescoped.built`). -/
namespace Exemplar

open Act

/-- The sessions are the same but for the scoping of verbs, and the modules below `floor` have the names
`kept` here and `kept'` there. -/
structure Rescoped (floor : ModuleId) (kept kept' : ModuleId → Bindings BuildId) (s s' : Session) : Prop where
  same : s.Matches True s'
  log : s.log = s'.log
  engines : s.engines = s'.engines
  running : s.running = s'.running
  size : floor ≤ s.modules.size
  below : ∀ m, m < floor → s.modules.names m = kept m
  below' : ∀ m, m < floor → s'.modules.names m = kept' m

namespace Rescoped

variable {floor : ModuleId} {kept kept' : ModuleId → Bindings BuildId} {s s' : Session}

/-- The modules stay as they are. -/
theorem moved (h : Rescoped floor kept kept' s s') {t t' : Session} (hm : t.Matches True t')
    (hlog : t.log = t'.log) (hengines : t.engines = t'.engines) (hrunning : t.running = t'.running)
    (ht : t.modules = s.modules) (ht' : t'.modules = s'.modules) : Rescoped floor kept kept' t t' :=
  ⟨hm, hlog, hengines, hrunning, ht ▸ h.size, ht ▸ h.below, ht' ▸ h.below'⟩

theorem configuring (h : Rescoped floor kept kept' s s') {change : Scoping → Scoping}
    (hc : Scoping.Regular floor change) :
    Rescoped floor kept kept' (s.configuring change) (s'.configuring change) where
  same := h.same.configuring hc
  log := h.log
  engines := h.engines
  running := h.running
  size := Nat.le_trans h.size (hc.grows s.scoping)
  below m hm := (hc.below s.scoping m hm).trans (h.below m hm)
  below' m hm := (hc.below s'.scoping m hm).trans (h.below' m hm)

/-- Programs without helpers go alike, wherever the verbs were merged. -/
def accord (floor : ModuleId) (kept kept' : ModuleId → Bindings BuildId) : Accord none none where
  Helperless := True
  floor := floor
  World := Unit
  rel _ := Rescoped floor kept kept'
  twin _ a b := a = b
  odd _ _ _ := False
  same h := h.same
  modules h := h.size
  memory {w s s' m} h _ hl :=
    h.moved (h.same.recalling hl) (congrArg (m.log ++ ·) h.log) h.engines h.running rfl rfl
  scoping h hc := h.configuring hc
  group {w s s' b} name h _ :=
    ⟨(), h.moved (h.same.opened b name) h.log h.engines h.running rfl rfl, trivial,
      fun u u' hu => hu.moved (hu.same.withCursor b _) hu.log hu.engines hu.running rfl rfl⟩
  declare {w s s' b n d} h _ _ _ :=
    h.moved (h.same.declaring b n d) h.log h.engines h.running rfl rfl
  build {w s s'} h :=
    ⟨(), h.moved h.same.entering h.log h.engines h.running rfl rfl, trivial,
      fun u u' hu => hu.moved (hu.same.withBuilding _) hu.log hu.engines hu.running rfl rfl⟩
  thread {w s s'} h := by
    refine ⟨(), h.moved ⟨h.same.memory, h.same.builds, rfl⟩ h.log h.engines rfl rfl rfl, trivial,
      fun u u' hu => hu.moved ⟨hu.same.memory, hu.same.builds, h.same.building⟩ hu.log hu.engines h.running
        rfl rfl⟩
  current {w s s'} h := by
    rw [← h.running]
    cases s.running with
    | none => exact .inl ⟨rfl, rfl⟩
    | some a => exact .inr ⟨a, a, rfl, rfl, .inl rfl⟩
  run {w s s' a b} h ht := by
    obtain rfl := ht
    exact ⟨(), h.moved ⟨h.same.memory, h.same.builds, h.same.building⟩ h.log h.engines rfl rfl rfl, rfl,
      fun u u' hu => hu.moved ⟨hu.same.memory, hu.same.builds, hu.same.building⟩ hu.log hu.engines h.running
        rfl rfl⟩
  fresh {w s s'} kind h :=
    ⟨(), h.moved ⟨h.same.memory, h.same.builds, h.same.building⟩ h.log
      (congrArg (·.push (.fresh kind)) h.engines) h.running rfl rfl, congrArg Array.size h.engines,
      fun u u' hu => hu⟩
  content h ht := by rw [h.engines, ht]
  setting {w s s' a b} x h ht := by
    obtain rfl := ht
    exact h.moved ⟨h.same.memory, h.same.builds, h.same.building⟩ h.log
      (congrArg (·.setIfInBounds a x) h.engines) h.running rfl rfl
  free _ := ⟨nofun, nofun⟩
  report _ _ h := h.elim
  pause h := h.elim
  resume h := h.elim
  wait _ _ h := h.elim
  setTitle _ h := h.elim
  declareGroup _ _ _ h := h.elim
  runTest _ _ h _ := h.elim
  specify _ h _ _ := h.elim

/-- In whichever mode. -/
theorem start (s : Session) (hs : s.heap.Helperless) (mode mode' : Bool) :
    Rescoped s.modules.size s.modules.names s.modules.names (s.configuring (.withMode mode))
      (s.configuring (.withMode mode')) where
  same := ⟨⟨rfl, rfl, rfl, rfl, rfl, rfl, rfl, rfl, fun h => absurd trivial h, fun _ => hs⟩, rfl, rfl⟩
  log := rfl
  engines := rfl
  running := rfl
  size := Nat.le_refl _
  below _ _ := rfl
  below' _ _ := rfl

end Rescoped

/-- The builder functions of programs that have the verbs from a builder or as names in their own
code, and in which all builder functions do. -/
inductive BuilderFunction.Unaided : BuilderFunction → Prop
  | script {style : Style} (saveAs : Option String) (module : ModuleId) (depth : Nat)
      (frame : Frame → Frame) {steps : List Step} :
      style.source ≠ .moduleNames → Step.AllHelperless steps →
      Unaided ⟨style, saveAs, module, fun f => Step.runAll none (callWithin none depth) (frame f) steps⟩
  | value {style : Style} (saveAs : Option String) (module : ModuleId) (depth : Nat) (v : Value)
      (args : List Value) : style.source ≠ .moduleNames →
      Unaided ⟨style, saveAs, module, fun _ => do let _ ← callWithin none depth v args []⟩

namespace BuilderFunction.Unaided

variable {fn : BuilderFunction} (h : fn.Unaided)
include h

theorem source : fn.style.source ≠ .moduleNames := by
  cases h with
  | script _ _ _ _ hstyle _ => exact hstyle
  | value _ _ _ _ _ hstyle => exact hstyle

theorem body_alike (A : Accord none none) (w : A.World) (f : Frame) :
    Alike (A.rel w) (fn.body f) (fn.body f) := by
  cases h with
  | script saveAs module depth frame _ hsteps =>
    exact A.steps_alike (A.callWithin_alike depth) (frame f) _ fun _ => hsteps
  | value saveAs module depth v args _ =>
    exact (A.callWithin_alike depth w v args []).bind fun _ => Alike.pure ()

theorem inScope_alike (A : Accord none none) (w : A.World) (b : BuildId) :
    Alike (A.rel w) (inScope fn b) (inScope fn b) := A.inScope_alike (h.body_alike A) b

end BuilderFunction.Unaided

namespace Rescoped

variable {s : Session} {fn : BuilderFunction}

/-- The verbs of a builder are merged into its module in global mode only. -/
theorem merged (s : Session) (hs : s.heap.Helperless) (module : ModuleId) (b : BuildId) :
    Rescoped s.modules.size s.modules.names (s.modules.merging module b).names
      ((s.configuring (.withMode false)).entering.configuring (.merging module b))
      ((s.configuring (.withMode true)).entering.configuring (.merging module b)) := by
  have h := start s hs false true
  have hregular := Scoping.regular_merging (Nat.zero_le module) b
  exact { h with
    same := h.same.entering.configuring hregular
    size := Nat.le_of_eq (Scoping.size_merging module b ⟨false, s.modules⟩).symm
    below' := fun _ _ => rfl }

/-- A builder function finds its verbs in a layer over its module in scoped mode, and in the module in
global mode, and goes on in the same way. -/
theorem buildForest (hs : s.heap.Helperless) (hfn : fn.Unaided) :
    AlikeAt (Rescoped s.modules.size s.modules.names (s.modules.merging fn.module s.builds.size).names)
      (buildForest fn) (buildForest fn)
      (s.configuring (.withMode false)) (s.configuring (.withMode true)) := by
  have hinvoke := Act.invoke_apply hfn.source s.builds.size
  obtain ⟨hended, hscope⟩ := hfn.inScope_alike (accord _ _ _) () s.builds.size _ _
    (merged s hs fn.module s.builds.size)
  unfold AlikeAt
  rw [buildForest_apply, buildForest_apply]
  show (invoke fn s.builds.size _).1.map _ = (invoke fn s.builds.size _).1.map _ ∧
    Rescoped _ _ _ ((invoke fn s.builds.size _).2.withBuilding _)
      ((invoke fn s.builds.size _).2.withBuilding _)
  rw [hinvoke, hinvoke, hended]
  exact ⟨rfl, hscope.moved (hscope.same.withBuilding _) hscope.log hscope.engines hscope.running rfl rfl⟩

end Rescoped

/-- Builds a specification, and answers with its outlines and its statements. -/
def Act.built (fn : BuilderFunction) : Act (List Outline × List Statement) := do
  let b ← buildForest fn
  let statements ← compile b
  return ((← Act.build b).forest.outlines, statements)

/-- What is built and compiled, the effects and the errors are the same in both modes. -/
theorem Rescoped.built {s : Session} (hs : s.heap.Helperless) {fn : BuilderFunction} (hfn : fn.Unaided) :
    AlikeAt (Rescoped s.modules.size s.modules.names (s.modules.merging fn.module s.builds.size).names)
      (Act.built fn) (Act.built fn) (s.configuring (.withMode false)) (s.configuring (.withMode true)) := by
  have hquiet : ∀ {α : Type} {a : Act α}, Quiet True a → Alike _ a a :=
    (accord s.modules.size s.modules.names (s.modules.merging fn.module s.builds.size).names).quiet (w := ())
  exact (Rescoped.buildForest hs hfn).bind fun b =>
    (hquiet (compile_quiet b)).bind fun statements => (hquiet (.build b)).bind fun _ => .pure _

end Exemplar
