import Exemplar.Proofs.Accord
import Exemplar.Program.Outcome

/-! Programs go alike.

The fundamental property of accords: whatever the steps are, they go alike if the calls they
make do. The proof goes by the structure of the program, one case for each step. From it, by
induction on how deep calls nest, every call goes alike. -/
namespace Exemplar.Accord

open Act

variable {barred barred' : Option Bar} (A : Accord barred barred') {call call' : Call}

theorem callWith_alike {w : A.World} (hc : A.Calls call call') (f : Frame) {verb : Act Value}
    (hv : Quiet A.Helperless verb) {args : List Term} {named : List (String × Term)}
    (ha : A.Helperless → Term.AllHelperless args ∧ Term.FieldsHelperless named) (logged : Bool) :
    Alike (A.rel w) (callWith call f verb args named logged) (callWith call' f verb args named logged) :=
  (A.quiet hv).bind fun verb => (A.quiet (Term.evalAll_quiet f args (ha · |>.1))).bind fun args =>
    (A.quiet (Term.evalFields_quiet f named (ha · |>.2))).bind fun named =>
      (hc w verb args named).bind fun _ => A.quiet (recordIf_quiet logged _)

mutual

theorem step_alike (hc : A.Calls call call') {w : A.World} (f : Frame) (p : Step)
    (hp : A.Helperless → p.Helperless) :
    Alike (A.rel w) (Step.run barred call f p) (Step.run barred' call' f p) := by
  cases p with
  | describe via name body logged =>
    unfold Step.run
    refine (A.quiet (savedBuilder_quiet f via)).bind fun b =>
      (A.quiet (name.eval_quiet f (hp · |>.1))).bind fun name =>
        (A.quiet (body.eval_quiet f (hp · |>.2))).bind fun body =>
          (A.describe_alike hc b name body).bind fun made => ?_
    split
    · exact (A.quiet (shownGroup_quiet _)).bind fun _ => A.quiet (.record _)
    · exact .pure _
  | before via body logged =>
    unfold Step.run
    exact (A.quiet (savedBuilder_quiet f via)).bind fun b => (A.quiet (body.eval_quiet f hp)).bind
      fun hook => (A.before_alike b hook).bind fun _ => A.quiet (recordIf_quiet logged _)
  | after via body logged =>
    unfold Step.run
    exact (A.quiet (savedBuilder_quiet f via)).bind fun b => (A.quiet (body.eval_quiet f hp)).bind
      fun hook => (A.after_alike b hook).bind fun _ => A.quiet (recordIf_quiet logged _)
  | it via description body logged =>
    unfold Step.run
    exact (A.quiet (savedBuilder_quiet f via)).bind fun b =>
      (A.quiet (description.eval_quiet f (hp · |>.1))).bind fun description =>
        (A.quiet (body.eval_quiet f (hp · |>.2))).bind fun body =>
          (A.it_alike b description body).bind fun _ => A.quiet (recordIf_quiet logged _)
  | given via args its logged =>
    unfold Step.run
    exact (A.quiet (savedBuilder_quiet f via)).bind fun b =>
      (A.quiet (Term.evalAll_quiet f args (hp · |>.1))).bind fun args =>
        (A.quiet (requireArguments_quiet b args)).bind fun _ =>
          A.givenIts_alike f b args logged (hp · |>.2)
  | assert via subject verb args named logged =>
    unfold Step.run
    exact (A.quiet (savedBuilder_quiet f via)).bind fun _ =>
      (A.quiet (evalOptional_quiet f _ subject (hp · |>.1))).bind fun subject =>
        A.callWith_alike hc f (handlerAttribute_quiet subject verb) (hp · |>.2) logged
  | shortcut via verb args named logged =>
    unfold Step.run
    exact (A.quiet (savedBuilder_quiet f via)).bind fun _ =>
      A.callWith_alike hc f (shortcut_quiet verb) hp logged
  | bind via name subject =>
    unfold Step.run
    refine A.quiet ((savedBuilder_quiet f via).bind fun _ =>
      (evalOptional_quiet f _ subject hp).bind fun subject => Quiet.bind ?_ fun _ =>
        (Quiet.reading _).bind fun _ => .record _)
    exact .modify (fun m => { m with handlers := Bindings.set m.handlers name subject }) fun _ => .refl _
  | call name verb args named logged =>
    unfold Step.run
    exact (A.quiet (handler_quiet name)).bind fun subject =>
      A.callWith_alike hc f (handlerAttribute_quiet subject verb) hp logged
  | take name verb target =>
    unfold Step.run
    exact A.quiet ((handler_quiet name).bind fun subject =>
      (handlerAttribute_quiet subject verb).bind fun v => setVariable_quiet target v)
  | invoke name args named logged =>
    unfold Step.run
    exact A.callWith_alike hc f (readVariable_quiet name) hp logged
  | wait via ms body =>
    unfold Step.run
    exact (A.quiet (savedBuilder_quiet f via)).bind fun _ =>
      (A.quiet (ms.eval_quiet f (hp · |>.1))).bind fun ms =>
        (A.quiet (body.eval_quiet f (hp · |>.2))).bind fun body => A.wait_alike hc ms body
  | report passed message =>
    unfold Step.run
    exact (A.quiet (passed.eval_quiet f (hp · |>.1))).bind fun passed =>
      (A.quiet (evalOptional_quiet f _ message (hp · |>.2))).bind fun message =>
        A.report_alike hc (.value passed) message
  | extend entries definitions =>
    unfold Step.run
    exact A.quiet ((verbData_quiet f definitions entries hp).bind fun data =>
      extendRegistry_quiet definitions data)
  | raise kind args =>
    unfold Step.run
    exact A.quiet ((Term.evalAll_quiet f args hp).bind fun args => (checkArguments_quiet kind args).bind
      fun _ => .throw _)
  | attempt steps =>
    unfold Step.run
    exact (steps_alike hc f steps hp).attempt.bind fun result =>
      (A.quiet (described_quiet result)).bind fun _ => A.quiet (.record _)
  | thread steps =>
    unfold Step.run
    exact (A.thread_alike fun w => steps_alike hc f steps hp).attempt.bind fun result =>
      (A.quiet (described_quiet result)).bind fun _ => A.quiet (.record _)
  | log value =>
    unfold Step.run
    exact A.quiet ((value.eval_quiet f hp).bind fun _ => .record _)
  | set name value =>
    unfold Step.run
    exact A.quiet ((value.eval_quiet f hp).bind fun v => setVariable_quiet name v)
  | add name value =>
    unfold Step.run
    exact A.quiet ((readVariable_quiet name).bind fun old => (value.eval_quiet f hp).bind fun v =>
      (sum_quiet old v).bind fun v => setVariable_quiet name v)
  | push name value =>
    unfold Step.run
    exact A.quiet ((readVariable_quiet name).bind fun list =>
      (value.eval_quiet f hp).bind fun v => append_quiet list v)
  | cursor =>
    unfold Step.run
    exact A.quiet recordCursor_quiet
  | forest =>
    unfold Step.run
    exact A.quiet recordForest_quiet
  | verbs via =>
    unfold Step.run
    exact A.quiet ((savedBuilder_quiet f via).bind fun _ => .record _)
  | globalMode value =>
    unfold Step.run
    exact (A.quiet (value.eval_quiet f hp)).bind fun v => ((A.comparing_related hc).truth v).bind
      fun mode => A.withMode_alike mode
  | build builder style saveAs =>
    unfold Step.run
    exact A.newModule_alike fun module hm =>
      (A.buildForest_alike (hp · |>.1) hm fun w inner => steps_alike hc _ builder (hp · |>.2)).bind
        fun b => A.quiet ((Quiet.build b).bind fun build => (Quiet.outlines _).bind fun _ => .record _)
  | specify name builder style saveAs engine =>
    unfold Step.run
    exact (A.quiet (name.eval_quiet f (hp · |>.1))).bind fun name => A.newModule_alike fun module hm =>
      A.chooseEngine_alike engine fun w e e' hpair =>
        A.specifyOn_alike hc hpair name (hp · |>.2.1) hm fun w inner =>
          steps_alike hc _ builder (hp · |>.2.2)
  | setTitle title =>
    unfold Step.run
    refine A.currentEngine_alike fun e e' hpair =>
      (A.quiet (title.eval_quiet f hp)).bind fun title => ?_
    exact hpair.elim (fun ht => A.telling_alike ht _ (A.setTitle_alike ht title)) (A.setTitle title)
  | declareGroup name setup teardown =>
    unfold Step.run
    refine A.currentEngine_alike fun e e' hpair =>
      (A.quiet (name.eval_quiet f (hp · |>.1))).bind fun name =>
        (A.quiet (setup.eval_quiet f (hp · |>.2.1))).bind fun setup =>
          (A.quiet (teardown.eval_quiet f (hp · |>.2.2))).bind fun teardown => ?_
    exact hpair.elim (fun ht => A.telling_alike ht _ (A.declareGroup_alike ht name _ _))
      (A.declareGroup name _ _)
  | runTest description body =>
    unfold Step.run
    refine A.currentEngine_alike fun e e' hpair =>
      (A.quiet (description.eval_quiet f (hp · |>.1))).bind fun description =>
        (A.quiet (body.eval_quiet f (hp · |>.2))).bind fun body => ?_
    exact hpair.elim (fun ht => A.driving_alike ht _ (A.runTest_alike hc ht description body))
      fun ho => A.runTest description body ho hc
  | pause =>
    unfold Step.run
    exact A.currentEngine_alike fun e e' hpair =>
      hpair.elim (fun ht => A.handling_alike ht (A.pause_alike ht)) A.pause
  | resume =>
    unfold Step.run
    exact A.currentEngine_alike fun e e' hpair =>
      hpair.elim (fun ht => A.handling_alike ht (A.resume_alike ht)) A.resume
termination_by structural p

theorem steps_alike (hc : A.Calls call call') {w : A.World} (f : Frame) (steps : List Step)
    (hp : A.Helperless → Step.AllHelperless steps) :
    Alike (A.rel w) (Step.runAll barred call f steps) (Step.runAll barred' call' f steps) := by
  cases steps with
  | nil =>
    unfold Step.runAll
    exact .pure _
  | cons s rest =>
    unfold Step.runAll
    exact (step_alike hc f s (hp · |>.1)).bind fun _ => steps_alike hc f rest (hp · |>.2)
termination_by structural steps

end

/-! ### Calls -/

theorem applyProcedure_alike (hc : A.Calls call call') {w : A.World} {c : Callable}
    (hs : A.Helperless → ∀ steps, (Cell.procedure c).script? = some steps → Step.AllHelperless steps)
    (args : List Value) (named : List (String × Value)) :
    Alike (A.rel w) (applyProcedure barred call c args named)
      (applyProcedure barred' call' c args named) := by
  cases c with
  | script arity steps home =>
    have hsteps : A.Helperless → Step.AllHelperless steps := fun hl => hs hl steps rfl
    unfold applyProcedure
    dsimp only
    split
    · split
      · exact (Alike.throw _).bind fun _ => (A.steps_alike hc _ steps hsteps).bind fun _ => .pure _
      · exact (A.steps_alike hc _ steps hsteps).bind fun _ => .pure _
    · exact (A.steps_alike hc _ steps hsteps).bind fun _ => .pure _
  | applied target first => exact hc w target (first ++ args) named
  | answering target answer => exact (hc w target args named).bind fun _ => A.quiet (readVariable_quiet answer)
  | shortcut verb =>
    exact (A.quiet (bindCall_quiet _ _ _ _)).bind fun filled =>
      (A.quiet (handlerAttribute_quiet .undefined verb)).bind fun verb =>
        (hc w verb _ []).bind fun _ => .pure _
  | group b name =>
    refine (A.quiet (bindCall_quiet _ _ _ _)).bind fun filled =>
      (A.describe_alike hc b _ _).bind fun made => ?_
    split <;> exact .pure _

theorem apply_alike (hc : A.Calls call call') : A.Calls (apply barred call) (apply barred' call') := by
  intro w v args named s s' h
  refine .get ?_
  have hscripts := (A.same h).memory.helperless
  rw [← (A.same h).heap]
  suffices Alike (A.rel w) _ _ from this s s' h
  dsimp only
  split
  · split
    · exact A.quiet (.alloc rfl)
    · exact .throw _
  · exact (A.quiet (bindCall_quiet _ _ _ _)).bind fun _ => .pure _
  · exact A.runVerb_alike hc _ args named
  · exact (A.quiet (.record _)).bind fun _ => .pure _
  · split
    · exact .throw _
    · exact .pure _
  · exact .pure _
  · split
    · rename_i r _ _ _ _ _ _ _ c hcell
      exact A.applyProcedure_alike hc (fun hl => (hscripts hl).cell? hcell) args named
    · exact (A.quiet (bindCall_quiet _ _ _ _)).bind fun _ => .pure _
    · exact .throw _

/-- Every call goes alike, whatever is called. -/
theorem callWithin_alike (depth : Nat) : A.Calls (callWithin barred depth) (callWithin barred' depth) := by
  induction depth with
  | zero => exact fun w v args named => .throw _
  | succ depth ih => exact A.apply_alike ih

/-- Builder functions go alike. -/
theorem builderIn_alike (w : A.World) (module : ModuleId) (source : Source)
    (hs : A.Helperless → Step.AllHelperless source.steps) (f : Frame) :
    Alike (A.rel w) ((builderIn barred module source).body f) ((builderIn barred' module source).body f) :=
  A.steps_alike (A.callWithin_alike callDepth) f source.steps hs

end Exemplar.Accord

namespace Exemplar

open Act

/-- The builder functions that programs have: written out, or a value that is called. -/
inductive BuilderFunction.Written : BuilderFunction → Prop
  | source (module : ModuleId) (source : Source) : Written (builderIn none module source)
  | value (module : ModuleId) (v : Value) (args : List Value) :
      Written ⟨.param, none, module, fun _ => do let _ ← call v args []⟩

/-- A build goes alike in every accord of all programs. -/
theorem BuilderFunction.Written.alike {fn : BuilderFunction} (h : fn.Written) (A : Accord none none)
    (hA : A.Total) (w : A.World) : Alike (A.rel w) (buildForest fn) (buildForest fn) := by
  cases h with
  | source module source =>
    exact A.buildForest_alike (absurd · hA.1) (hA.2 module) fun w f =>
      A.builderIn_alike w module source (absurd · hA.1) f
  | value module v args =>
    exact A.buildForest_alike (absurd · hA.1) (hA.2 module) fun w f =>
      (A.callWithin_alike callDepth w v args []).bind fun _ => .pure _

end Exemplar
