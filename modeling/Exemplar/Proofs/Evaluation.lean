import Exemplar.Program.Run
import Exemplar.Proofs.Definitions
import Exemplar.Proofs.Quiet

/-! Evaluation is quiet.

What a term denotes depends on the memory alone, and finding it out only adds objects and names.
The same holds of everything a step does before and after it touches a build or an engine:
looking names up, making errors, registering verbs, describing places. -/
namespace Exemplar

open Act

variable {loose : Prop}

namespace Act

theorem remember_quiet (name : Option String) (v : Value) : Quiet loose (remember name v) := by
  cases name with
  | none => exact .pure _
  | some n => exact .modify (fun m => { m with names := Bindings.set m.names n v }) fun _ => .refl _

theorem readVariable_quiet (name : String) : Quiet loose (readVariable name) := by
  refine .get (fun s => ?_) fun s s' hm => by rw [hm.memory.stored]
  split
  · exact .pure _
  · exact .fault _

theorem setVariable_quiet (name : String) (v : Value) : Quiet loose (setVariable name v) :=
  .modify (fun m => { m with stored := Bindings.set m.stored name v }) fun _ => .refl _

theorem requireHashable_quiet (v : Value) : Quiet loose (requireHashable v) := by
  refine .get (fun s => ?_) fun s s' hm => by rw [hm.heap]
  dsimp only
  split
  · exact .fault _
  · exact .pure _

theorem putEntry_quiet (entries : List (Value × Value)) (k v : Value) : Quiet loose (putEntry entries k v) := by
  refine (requireHashable_quiet k).bind fun _ => (Quiet.reading _).bind fun known => ?_
  split <;> exact .pure _

theorem putItem_quiet (items : List Value) (v : Value) : Quiet loose (putItem items v) := by
  refine (requireHashable_quiet v).bind fun _ => (Quiet.reading _).bind fun known => ?_
  split <;> exact .pure _

theorem checkArguments_quiet (kind : ErrorKind) (args : List Value) :
    Quiet loose (makeError.checkArguments kind args) := by
  unfold makeError.checkArguments
  split
  · rcases args with _ | ⟨a, _ | ⟨b, rest⟩⟩
    · exact .fault _
    · exact .pure _
    · exact .fault _
  · exact .pure _

theorem makeError_quiet (kind : ErrorKind) (args : List Value) : Quiet loose (makeError kind args) :=
  (checkArguments_quiet kind args).bind fun _ => .alloc rfl

theorem shortcut_quiet (verb : String) : Quiet loose (shortcut verb) := by
  unfold shortcut
  split
  · exact .alloc rfl
  · exact .fault _

theorem makeElement_quiet (model : String) (fields : List (String × Value)) :
    Quiet loose (makeElement model fields) := by
  unfold makeElement
  split
  · exact .alloc rfl
  · rename_i m hm
    have hmade := Schema.Model.make_grown (Schema.model?_assertion hm)
    exact (Quiet.making fun h => (hmade h fields).inert).bind fun made => .ofExcept made

end Act

/-! ### Terms -/

theorem Term.keep_quiet (name : Option String) (v : Value) : Quiet loose (Term.evalAs.keep name v) :=
  (remember_quiet name v).bind fun _ => .pure v

theorem Term.make_quiet (name : Option String) {c : Cell} (hc : c.script? = none) :
    Quiet loose (Term.evalAs.make name c) := (Quiet.alloc hc).bind fun v => Term.keep_quiet name v

theorem setCell_alike {s₀ s₀' : Session} {r : Ref} {c d : Cell} (hd : d.shape = c.shape) :
    Alike (Holding loose s₀ s₀' r c) (setCell (.object r) d) (setCell (.object r) d) := by
  rintro s s' ⟨⟨m, hk, hl, rfl, rfl⟩, e, he, hs⟩
  have hset := Heap.inert_set (h := m.heap) he (hd.trans hs.symm)
  obtain ⟨e', he', hs'⟩ := hset.kept r e he
  refine ⟨rfl, ⟨{ m with heap := m.heap.set r d }, hk.trans hset.kept, ?_, rfl, rfl⟩, e', he', hs'.trans hs⟩
  exact fun hloose => hset.helperless (hl hloose)

/-- An object that is made empty, known by its name, and filled when its parts are there. -/
theorem filled_quiet {β : Type} (name : Option String) {c : Cell} (hc : c.script? = none)
    {parts : Act β} (hp : Quiet loose parts) (cell : β → Cell) (hs : ∀ x, (cell x).shape = c.shape) :
    Quiet loose (do
      let v ← Term.evalAs.make name c
      setCell v (cell (← parts))
      return v) := by
  refine Quiet.of_at fun s s' hm => ?_
  -- the new object is the same place on both sides, and it keeps its shape from here on
  have hsize : s'.heap.size = s.heap.size := by rw [hm.heap]
  have hmade : (alloc c s').1 = .ok (.object s.heap.size) := congrArg (Except.ok ∘ Value.object) hsize
  have hrel : Holding loose s s' s.heap.size c (alloc c s).2 (alloc c s').2 :=
    ⟨((Quiet.alloc hc).at hm).2, c, s.heap.get?_alloc_self c, rfl⟩
  have hrest : Alike (Holding loose s s' s.heap.size c)
      (Term.evalAs.keep name (.object s.heap.size) >>= fun v => parts >>= fun x =>
        setCell v (cell x) >>= fun _ => pure v)
      (Term.evalAs.keep name (.object s.heap.size) >>= fun v => parts >>= fun x =>
        setCell v (cell x) >>= fun _ => pure v) := by
    simp only [Term.evalAs.keep, bind_assoc, pure_bind]
    exact ((remember_quiet name _).holding hm _ _).bind fun _ => (hp.holding hm _ _).bind fun x =>
      (setCell_alike (hs x)).bind fun _ => .pure _
  obtain ⟨hr, hQ⟩ := hrest _ _ hrel
  simp only [Term.evalAs.make, bind_assoc]
  unfold AlikeAt
  rw [bind_ok (show alloc c s = (.ok (.object s.heap.size), (alloc c s).2) from rfl),
    bind_ok (show alloc c s' = (.ok (.object s.heap.size), (alloc c s').2) from
      Prod.ext hmade rfl)]
  exact ⟨hr, hQ.1⟩

mutual

theorem Term.evalAs_quiet (f : Frame) (name : Option String) :
    (t : Term) → (loose → t.Helperless) → Quiet loose (t.evalAs f name)
  | .null, _ | .bool _, _ | .int _, _ | .text _, _ | .bytes _, _ | .undefined, _ | .classOf _, _ =>
    Term.keep_quiet name _
  | .float _, _ | .fraction _, _ | .decimal _, _ | .complex _, _ | .ownText _, _ | .ownInt _, _ =>
    Term.make_quiet name rfl
  | .list own items, ht => by
    unfold Term.evalAs
    exact filled_quiet name rfl (Term.evalAll_quiet f items ht) (.list own) fun _ => rfl
  | .tuple own items, ht => by
    unfold Term.evalAs
    exact (Term.evalAll_quiet f items ht).bind fun vs => Term.make_quiet name rfl
  | .mapping true entries, ht => by
    unfold Term.evalAs
    exact (Term.evalEntries_quiet f [] entries ht).bind fun vs => Term.make_quiet name rfl
  | .mapping false entries, ht => by
    unfold Term.evalAs
    exact filled_quiet name rfl (Term.evalEntries_quiet f [] entries ht) (.mapping false) fun _ => rfl
  | .set frozen items, ht => by
    unfold Term.evalAs
    exact (Term.evalSet_quiet f [] items ht).bind fun vs => Term.make_quiet name rfl
  | .object cls attributes, ht => by
    unfold Term.evalAs
    exact filled_quiet name rfl (Term.evalFields_quiet f attributes ht)
      (fun fields => .record cls (Bindings.setAll [] fields)) fun _ => rfl
  | .error kind args, ht => by
    unfold Term.evalAs
    exact (Term.evalAll_quiet f args ht).bind fun vs => (makeError_quiet kind vs).bind fun v =>
      Term.keep_quiet name v
  | .procedure body, ht => by
    unfold Term.evalAs
    exact (Body.eval_quiet f body ht).bind fun v => Term.keep_quiet name v
  | .answering body answer, ht => by
    unfold Term.evalAs
    exact (Body.eval_quiet f body ht).bind fun v => Term.make_quiet name rfl
  | .define inner term, ht => by
    unfold Term.evalAs
    exact (Term.evalAs_quiet f (some inner) term ht).bind fun v => Term.keep_quiet name v
  | .reference n, _ => by
    unfold Term.evalAs
    refine Quiet.get (fun s => ?_) fun s s' hm => by rw [hm.memory.names]
    split
    · exact Term.keep_quiet name _
    · exact .fault _
  | .variable n, _ => by
    unfold Term.evalAs
    exact (readVariable_quiet n).bind fun v => Term.keep_quiet name v
  | .argument i, _ => by
    unfold Term.evalAs
    split
    · exact Term.keep_quiet name _
    · exact .fault _
  | .arguments, _ => Term.make_quiet name rfl
  | .shortcut verb, _ => by
    unfold Term.evalAs
    exact (shortcut_quiet verb).bind fun v => Term.keep_quiet name v
  | .element model fields, ht => by
    unfold Term.evalAs
    exact (Term.evalFields_quiet f fields ht).bind fun vs => (makeElement_quiet model vs).bind fun v =>
      Term.keep_quiet name v

theorem Term.evalAll_quiet (f : Frame) :
    (ts : List Term) → (loose → Term.AllHelperless ts) → Quiet loose (Term.evalAll f ts)
  | [], _ => .pure _
  | t :: ts, ht => by
    unfold Term.evalAll
    exact (Term.evalAs_quiet f none t (ht · |>.1)).bind fun v =>
      (Term.evalAll_quiet f ts (ht · |>.2)).bind fun _ => .pure _

theorem Term.evalEntries_quiet (f : Frame) (known : List (Value × Value)) :
    (entries : List (Term × Term)) → (loose → Term.EntriesHelperless entries) →
      Quiet loose (Term.evalEntries f known entries)
  | [], _ => .pure _
  | (k, t) :: rest, ht => by
    unfold Term.evalEntries
    exact (Term.evalAs_quiet f none k (ht · |>.1)).bind fun k =>
      (Term.evalAs_quiet f none t (ht · |>.2.1)).bind fun v =>
        (putEntry_quiet known k v).bind fun known => Term.evalEntries_quiet f known rest (ht · |>.2.2)

theorem Term.evalSet_quiet (f : Frame) (known : List Value) :
    (ts : List Term) → (loose → Term.AllHelperless ts) → Quiet loose (Term.evalSet f known ts)
  | [], _ => .pure _
  | t :: ts, ht => by
    unfold Term.evalSet
    exact (Term.evalAs_quiet f none t (ht · |>.1)).bind fun v =>
      (putItem_quiet known v).bind fun known => Term.evalSet_quiet f known ts (ht · |>.2)

theorem Term.evalFields_quiet (f : Frame) : (fields : List (String × Term)) →
    (loose → Term.FieldsHelperless fields) → Quiet loose (Term.evalFields f fields)
  | [], _ => .pure _
  | (n, t) :: rest, ht => by
    unfold Term.evalFields
    exact (Term.evalAs_quiet f none t (ht · |>.1)).bind fun v =>
      (Term.evalFields_quiet f rest (ht · |>.2)).bind fun _ => .pure _

theorem Body.eval_quiet (f : Frame) :
    (b : Body) → (loose → b.Helperless) → Quiet loose (b.eval f)
  | .absent, _ => .pure _
  | .script arity _, hb => .alloc_script arity f.builder hb
  | .value term, hb => by
    unfold Body.eval
    exact Term.evalAs_quiet f none term hb

end

theorem Term.eval_quiet (f : Frame) (t : Term) (ht : loose → t.Helperless) : Quiet loose (t.eval f) :=
  t.evalAs_quiet f none ht

/-! ### What steps do besides building and running -/

namespace Act

theorem made_at {s s' : Session} (hm : s.Matches loose s') {made : Heap × Value}
    (hk : s.heap.Inert made.1) :
    AlikeAt (Still loose s s') (making fun _ => made) (making fun _ => made) s s' :=
  making_at hm hk.kept fun hl => hk.helperless (hm.memory.helperless hl)

theorem sum_quiet (a b : Value) : Quiet loose (sum a b) := by
  refine Quiet.of_at fun s s' hm => AlikeAt.get ?_
  rw [← hm.heap]
  split
  · rename_i made he
    exact made_at hm (Value.add_inert he)
  · exact (Quiet.fault _).at hm

theorem quotient_quiet (v : Value) (n : Nat) : Quiet loose (quotient v n) := by
  refine Quiet.of_at fun s s' hm => AlikeAt.get ?_
  rw [← hm.heap]
  split
  · rename_i made he
    exact made_at hm (Value.divNat_inert he)
  · exact (Quiet.fault _).at hm

theorem append_quiet (list v : Value) : Quiet loose (append list v) := by
  refine Quiet.of_at fun s s' hm => AlikeAt.get ?_
  rw [← hm.heap]
  dsimp only
  split
  · rename_i own items hc
    cases list with
    | object r =>
      have hset : s.heap.Inert (s.heap.set r (.list own (items ++ [v]))) := Heap.inert_set hc rfl
      have hmade : s'.heap.set r (.list own (items ++ [v])) = s.heap.set r (.list own (items ++ [v])) := by
        rw [hm.heap]
      refine ⟨rfl, ?_⟩
      show Still loose s s' { s with heap := _ } { s' with heap := s'.heap.set r _ }
      rw [hmade]
      exact (@made_at loose s s' hm (s.heap.set r (.list own (items ++ [v])), .null) hset).2
    | _ => cases hc
  · exact (Quiet.fault _).at hm

theorem savedBuilder_quiet (f : Frame) (via : Option String) : Quiet loose (savedBuilder f via) := by
  unfold savedBuilder
  split
  · refine .get (fun s => ?_) fun s s' hm => by
      rw [hm.memory.builders]
    split
    · exact .pure _
    · exact .fault _
  · exact .pure _
  · exact .fault _

theorem handler_quiet (name : String) : Quiet loose (handler name) := by
  refine .get (fun s => ?_) fun s s' hm => by
    rw [hm.memory.handlers]
  split
  · exact .pure _
  · exact .fault _

theorem recordIf_quiet (log : Bool) (e : Event) : Quiet loose (recordIf log e) := by
  unfold recordIf
  split
  · exact .record e
  · exact .pure _

theorem evalOptional_quiet (f : Frame) (default : Value) (t : Option Term)
    (ht : loose → Term.OptionHelperless t) : Quiet loose (evalOptional f default t) := by
  cases t with
  | none => exact .pure _
  | some t => exact t.eval_quiet f ht

theorem verbData_quiet (f : Frame) (definitions : Bool) (entries : List (Term × Body × Option Term))
    (he : loose → Step.VerbsHelperless entries) : Quiet loose (verbData f definitions entries) := by
  induction entries with
  | nil => exact .pure _
  | cons entry rest ih =>
    obtain ⟨name, body, aliases⟩ := entry
    have hrest := ih (he · |>.2.2.2)
    refine (name.eval_quiet f (he · |>.1)).bind fun name =>
      (body.eval_quiet f (he · |>.2.1)).bind fun verb => ?_
    dsimp only
    split
    · exact (Term.eval_quiet f _ (he · |>.2.2.1)).bind fun _ => (Quiet.pure _).bind fun _ =>
        hrest.bind fun _ => .pure _
    · exact (Quiet.pure _).bind fun _ => hrest.bind fun _ => .pure _

theorem verbEntries_quiet (data : List (List (String × Value))) (known : List (Value × Value)) :
    Quiet loose (verbEntries data known) := by
  induction data generalizing known with
  | nil => exact .pure _
  | cons d rest ih => exact (putEntry_quiet known _ _).bind fun known => ih known

theorem extendRegistry_quiet (definitions : Bool) (data : List (List (String × Value))) :
    Quiet loose (extendRegistry definitions data) := by
  refine .get (fun s => ?_) fun s s' hm => by
    rw [hm.memory.registry]
  have hset : ∀ r, Quiet loose (modify fun s => { s with registry := r }) := fun r =>
    .modify (fun m => { m with registry := r }) fun _ => .refl _
  dsimp only
  split
  · exact (Quiet.making fun h => (Registry.makeAll_grown h data).inert).bind fun made =>
      (Quiet.ofExcept made).bind fun _ => (Quiet.pure _).bind fun r => hset r
  · exact (verbEntries_quiet data []).bind fun verbs =>
      (Quiet.making fun h => (Registry.extendVerbs_grown _ h verbs).inert).bind fun made =>
        (Quiet.ofExcept made).bind fun r => hset r

theorem described_quiet (result : Except Failure Unit) : Quiet loose (described result) := by
  refine .get (fun s => ?_) fun s s' hm => by rw [hm.heap]
  dsimp only
  split <;> exact .pure _

theorem bindCall_quiet (function : String) (signature : Signature Value) (args : List Value)
    (named : List (String × Value)) : Quiet loose (bindCall function signature args named) := by
  unfold bindCall
  split
  · exact .pure _
  · exact .fault _

theorem handlerAttribute_quiet (subject : Value) (name : String) :
    Quiet loose (handlerAttribute subject name) := by
  refine .get (fun s => ?_) fun s s' hm => by
    rw [hm.memory.registry]
  refine (Quiet.ofExcept _).bind fun found => ?_
  split
  · exact .pure _
  · exact .alloc rfl

theorem makeReport_quiet (passed : Bool) (message : Value) : Quiet loose (makeReport passed message) := by
  refine .get (fun s => ?_) fun s s' hm => by rw [hm.heap]
  split
  · exact .pure _
  · exact .throw _

theorem makeResult_quiet (group description : Value) (reports : List Report) (error : Option String) :
    Quiet loose (makeResult group description reports error) := by
  refine .get (fun s => ?_) fun s s' hm => by rw [hm.heap]
  dsimp only
  split
  · exact .pure _
  · exact .throw _

/-! ### Reading builds -/

theorem cursorName_quiet (b : BuildId) : Quiet loose (cursorName b) := by
  refine (Quiet.build b).bind fun build => ?_
  split
  · exact .pure _
  · exact (Quiet.reading _).bind fun _ => .pure _

theorem recordCursor_quiet : Quiet loose recordCursor := by
  refine .get (fun s => ?_) fun s s' hm => by rw [hm.building]
  split
  · exact .record _
  · exact (cursorName_quiet _).bind fun _ => .record _

theorem recordForest_quiet : Quiet loose recordForest := by
  refine .get (fun s => ?_) fun s s' hm => by rw [hm.building]
  split
  · exact .record _
  · exact (Quiet.build _).bind fun _ => (Quiet.outlines _).bind fun _ => .record _

theorem shownGroup_quiet (made : BuildId × Sum Value NodeId) : Quiet loose (shownGroup made) := by
  obtain ⟨b, v | node⟩ := made
  · exact .reading _
  · exact (Quiet.build b).bind fun _ => .reading _

theorem misuseAt_quiet {α : Type} (b : BuildId) (m : Misuse) (node : Option NodeId) (spec : Value) :
    Quiet loose (misuseAt b m node spec : Act α) := by
  cases node with
  | none => exact .throw _
  | some n =>
    exact (Quiet.build b).bind fun _ => (Quiet.reading _).bind fun _ =>
      (Quiet.making fun h => Outline.toValue_inert h _).bind fun _ => .throw _

theorem requireArguments_quiet (b : BuildId) (args : List Value) : Quiet loose (requireArguments b args) := by
  unfold requireArguments
  split
  · exact (Quiet.build b).bind fun _ => misuseAt_quiet b _ _ _
  · exact .pure _

theorem stub_quiet : Quiet loose stub := (shortcut_quiet "fail").bind fun _ => .alloc rfl

theorem givenOr_quiet {default : Act Value} (h : Quiet loose default) (v : Value) :
    Quiet loose (givenOr default v) := by
  unfold givenOr
  split
  · exact h
  · exact .pure _

theorem givenBody_quiet (arg body : Value) : Quiet loose (givenBody arg body) := by
  unfold givenBody
  split
  · exact .pure _
  · refine .get (fun s => ?_) fun s s' hm => by rw [hm.heap]
    dsimp only
    split
    · exact .alloc rfl
    · exact .fault _

theorem readVerbs_quiet (layers : Layers BuildId) (layered : Bool) (names : List String) :
    Quiet loose (names.mapM (readVerb layers layered)) := by
  induction names with
  | nil => exact .pure _
  | cons name rest ih =>
    rw [List.mapM_cons]
    refine .bind ?_ fun _ => ih.bind fun _ => .pure _
    unfold readVerb
    split
    · exact .pure _
    · exact .fault _

/-- How verbs are found depends on the scoping, and on nothing that engines do. -/
theorem visibleBuilder_quiet (fn : BuilderFunction) (b : BuildId) : Quiet False (visibleBuilder fn b) := by
  refine .get (fun s => ?_) fun s s' hm => ?_
  · cases fn.style.source with
    | handed => exact .pure _
    | ownNames | moduleNames => exact (readVerbs_quiet _ _ _).bind fun _ => .pure _
  · have hscoping := hm.memory.scoping id
    rw [show s.modules = s'.modules from congrArg Scoping.modules hscoping,
      show s.globalMode = s'.globalMode from congrArg Scoping.globalMode hscoping]

theorem saveBuilder_quiet (name : Option String) (b : BuildId) : Quiet loose (saveBuilder name b) := by
  cases name with
  | none => exact .pure _
  | some name =>
    exact .modify (fun m => { m with builders := Bindings.set m.builders name b }) fun _ => .refl _

theorem compile_quiet (b : BuildId) : Quiet loose (compile b) := (Quiet.build b).bind fun _ => .reading _

end Act

end Exemplar
