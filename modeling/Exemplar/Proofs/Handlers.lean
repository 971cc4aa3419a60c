import Exemplar.Proofs.History

/-! Verbs as handlers have them.

Plugins may be loaded strictly here, so that a registration can end after some of its names. All the
same, every name of a registry is one that verbs may have (`Registering.named`), and a handler has
the verb under it, bound to its subject. Only under the name of the subject, which verbs may have
too, it has its subject instead (`registered_verbs_bound`). -/
namespace Exemplar

open Act

/-! ### Names in order -/

/-- Every name is one that verbs may have, and one of its definition. -/
def Registry.Named (r : Registry) : Prop :=
  ∀ name d, r.get? name = some d → name ∈ d.names ∧ d.WellNamed

/-- Definitions are registered in order, each under one name. -/
def Registry.putEach (r : Registry) (written : List (String × Definition)) : Registry :=
  written.foldl (fun r p => r.put p.1 p.2) r

namespace Registry

variable {r : Registry} {written : List (String × Definition)}

theorem putEach_append (r : Registry) (written written' : List (String × Definition)) :
    r.putEach (written ++ written') = (r.putEach written).putEach written' := List.foldl_append

theorem putEach_names (r : Registry) (d : Definition) (names : List String) :
    r.putEach (names.map (·, d)) = names.foldl (·.put · d) r := List.foldl_map

theorem addAll_eq_putEach (r : Registry) (ds : List Definition) :
    r.addAll ds = r.putEach (ds.flatMap fun d => d.names.map (·, d)) := by
  induction ds generalizing r with
  | nil => rfl
  | cons d rest ih =>
    rw [List.flatMap_cons, putEach_append, putEach_names]
    exact ih (r.add d)

theorem get?_putEach_of_ne {name : String} (h : ∀ p ∈ written, p.1 ≠ name) :
    (r.putEach written).get? name = r.get? name := by
  induction written generalizing r with
  | nil => rfl
  | cons p rest ih =>
    obtain ⟨hp, hrest⟩ := List.forall_mem_cons.mp h
    show ((r.put p.1 p.2).putEach rest).get? name = _
    rw [ih hrest, get?_put, if_neg hp.symm]

theorem isSome_get?_putEach {name : String} (h : (r.get? name).isSome) :
    ((r.putEach written).get? name).isSome := by
  induction written generalizing r with
  | nil => exact h
  | cons p rest ih =>
    refine ih (r := r.put p.1 p.2) ?_
    rw [get?_put]
    split
    · rfl
    · exact h

end Registry

namespace Registry.Named

variable {r : Registry} {d : Definition}

theorem empty : Registry.Named [] := nofun

theorem put (h : r.Named) (hd : d.WellNamed) {name : String} (hname : name ∈ d.names) :
    Registry.Named (r.put name d) := by
  intro n e hn
  rw [get?_put] at hn
  split at hn
  · rename_i heq
    obtain rfl := Option.some.inj hn
    exact ⟨heq ▸ hname, hd⟩
  · exact h n e hn

theorem putEach (h : r.Named) {written : List (String × Definition)}
    (hw : ∀ p ∈ written, p.2.WellNamed ∧ p.1 ∈ p.2.names) : Registry.Named (r.putEach written) := by
  induction written generalizing r with
  | nil => exact h
  | cons p rest ih =>
    obtain ⟨⟨hd, hname⟩, hrest⟩ := List.forall_mem_cons.mp hw
    exact ih (h.put hd hname) hrest

end Registry.Named

/-! ### Registering in either mode -/

/-- How definitions are registered: each under names of its own, also if one is complained of on the
way, and all of them under all names if it ends. -/
structure Loader.Accepts (l : Loader) (ds : List Definition) (done : Except Failure Unit × Loader) :
    Prop where
  written : ∃ written, done.2.registry = l.registry.putEach written ∧
    ∀ p ∈ written, p.2 ∈ ds ∧ p.1 ∈ p.2.names
  ended : done.1 = .ok () → done.2.registry = l.registry.addAll ds

namespace Loader.Accepts

variable {l k : Loader} {ds ds' : List Definition} {a b : Load Unit} {done : Except Failure Unit × Loader}

theorem skip (h : done.2.registry = l.registry) : l.Accepts [] done where
  written := ⟨[], h, fun _ hp => absurd hp List.not_mem_nil⟩
  ended _ := h

/-- Names stay in order. -/
theorem named (h : l.Accepts ds done) (hds : ∀ d ∈ ds, d.WellNamed) (hl : l.registry.Named) :
    done.2.registry.Named := by
  obtain ⟨written, hregistry, hwritten⟩ := h.written
  rw [hregistry]
  exact hl.putEach fun p hp => ⟨hds _ (hwritten p hp).1, (hwritten p hp).2⟩

/-- A name keeps its definition if none of these has it. -/
theorem get?_eq (h : l.Accepts ds done) {name : String} (hname : ∀ d ∈ ds, name ∉ d.names) :
    done.2.registry.get? name = l.registry.get? name := by
  obtain ⟨written, hregistry, hwritten⟩ := h.written
  rw [hregistry]
  refine Registry.get?_putEach_of_ne fun p hp => ?_
  obtain ⟨hd, hnames⟩ := hwritten p hp
  rintro rfl
  exact hname _ hd hnames

/-- Names stay registered. -/
theorem mem_names (h : l.Accepts ds done) {name : String} (hname : name ∈ l.registry.names) :
    name ∈ done.2.registry.names := by
  obtain ⟨written, hregistry, -⟩ := h.written
  rw [Registry.mem_names_iff] at hname ⊢
  rw [hregistry]
  exact Registry.isSome_get?_putEach hname

theorem andThen (ha : l.Accepts ds (a l)) (hb : (a l).1 = .ok () → (a l).2.Accepts ds' (b (a l).2)) :
    l.Accepts (ds ++ ds') ((do a; b : Load Unit) l) := by
  cases hresult : (a l).1 with
  | error f =>
    have hstops : (do a; b : Load Unit) l = (.error f, (a l).2) := bind_error (Prod.ext hresult rfl)
    obtain ⟨written, hregistry, hwritten⟩ := ha.written
    rw [hstops]
    exact ⟨⟨written, hregistry, fun p hp => ⟨List.mem_append_left _ (hwritten p hp).1, (hwritten p hp).2⟩⟩, nofun⟩
  | ok u =>
    have hgoes : (do a; b : Load Unit) l = b (a l).2 := bind_ok (Prod.ext hresult rfl)
    have hb := hb hresult
    obtain ⟨written, hregistry, hwritten⟩ := ha.written
    obtain ⟨written', hregistry', hwritten'⟩ := hb.written
    rw [hgoes]
    refine ⟨⟨written ++ written', ?_, fun p hp => ?_⟩, fun hok => ?_⟩
    · rw [hregistry', hregistry, Registry.putEach_append]
    · rcases List.mem_append.mp hp with hp | hp
      · exact ⟨List.mem_append_left _ (hwritten p hp).1, (hwritten p hp).2⟩
      · exact ⟨List.mem_append_right _ (hwritten' p hp).1, (hwritten' p hp).2⟩
    · rw [hb.ended hok, ha.ended hresult, Registry.addAll_append]

/-- Only the registry from which it starts counts. -/
theorem of_same (h : k.registry = l.registry) (hd : k.Accepts ds done) : l.Accepts ds done :=
  ⟨h ▸ hd.written, h ▸ hd.ended⟩

end Loader.Accepts

namespace Load

variable {l : Loader} {e : Option EntryPoint}

/-- A complaint changes nothing that counts, whether it is an error or not. -/
theorem complain_still (issue : PluginIssue) (entrypoint : Option String) (cause : Option ErrorKind) :
    ∃ result warnings, complain issue entrypoint cause l = (result, { l with warnings }) := by
  rcases Bool.eq_false_or_eq_true l.strict with hl | hl
  · have hissue : issue? issue entrypoint cause l = (.ok (some { issue, entrypoint, cause }), l) := by
      unfold issue?
      rw [bind_ok (get_apply l), if_pos hl]
      rfl
    exact ⟨_, l.warnings, bind_ok hissue⟩
  · exact ⟨_, _, complain_apply hl issue entrypoint cause⟩

/-- A definition is registered under its names up to one that is complained of strictly. -/
theorem addNames_reaches (d : Definition) (names : List String) : ∃ result before warnings,
    addNames e d names l =
      (result, { l with registry := before.foldl (·.put · d) l.registry, warnings }) ∧
    before <+: names ∧ (result = .ok () → before = names) := by
  induction names generalizing l with
  | nil => exact ⟨.ok (), [], l.warnings, rfl, List.prefix_refl _, fun _ => rfl⟩
  | cons name rest ih =>
    have hrest : ∀ ws, ∃ result before warnings, (do
        modify fun l => { l with registry := l.registry.put name d }
        addNames e d rest : Load Unit) { l with warnings := ws } =
          (result, { l with registry := before.foldl (·.put · d) l.registry, warnings }) ∧
        before <+: name :: rest ∧ (result = .ok () → before = name :: rest) := by
      intro ws
      obtain ⟨result, before, warnings, hadd, hbefore, hall⟩ :=
        ih (l := { l with registry := l.registry.put name d, warnings := ws })
      exact ⟨result, name :: before, warnings, hadd, List.cons_prefix_cons.mpr ⟨rfl, hbefore⟩,
        fun hok => congrArg _ (hall hok)⟩
    unfold addNames
    rw [bind_ok (get_apply l)]
    rcases e with _ | p
    · exact hrest l.warnings
    · cases l.registry.get? name with
      | none => exact hrest l.warnings
      | some old =>
        dsimp only
        obtain ⟨result, warnings, hcomplain⟩ :=
          complain_still (l := l) (.shadowing name p.place) (some p.name) none
        cases result with
        | error f =>
          rw [bind_error hcomplain]
          exact ⟨.error f, [], warnings, rfl, List.nil_prefix, fun hok => by cases hok⟩
        | ok u =>
          rw [bind_ok hcomplain]
          exact hrest warnings

theorem add_accepts (d : Definition) :
    l.Accepts [d] (add e d l) ∧ (add e d l).2.heap = l.heap := by
  obtain ⟨result, before, warnings, hadd, hbefore, hall⟩ := addNames_reaches (l := l) (e := e) d d.names
  rw [add, hadd]
  refine ⟨⟨⟨before.map (·, d), (l.registry.putEach_names d before).symm, fun p hp => ?_⟩, fun hok => ?_⟩, rfl⟩
  · obtain ⟨name, hname, rfl⟩ := List.mem_map.mp hp
    exact ⟨List.mem_singleton_self d, hbefore.subset hname⟩
  · rw [hall hok]
    rfl

theorem addAll_accepts (ds : List Definition) :
    l.Accepts ds (addAll e ds l) ∧ (addAll e ds l).2.heap = l.heap := by
  induction ds generalizing l with
  | nil => exact ⟨.skip rfl, rfl⟩
  | cons d rest ih =>
    obtain ⟨hadd, hheap⟩ := add_accepts (l := l) (e := e) d
    refine ⟨hadd.andThen fun _ => ih.1, ?_⟩
    rw [addAll]
    cases hresult : (add e d l).1 with
    | error f => rw [bind_error (Prod.ext hresult rfl), hheap]
    | ok u => rw [bind_ok (Prod.ext hresult rfl), ih.2, hheap]

theorem loadPlugin_accepts {p : EntryPoint} {h : Heap} {made : Except Failure Value}
    (hc : content p.content l = (.ok made, { l with heap := h })) :
    l.Accepts ((made.toOption.bind (definitions? h)).getD []) (loadPlugin p l) ∧
      (loadPlugin p l).2.heap = h := by
  have hcomplain : ∀ issue cause,
      l.Accepts [] (complain issue (some p.name) cause { l with heap := h }) ∧
        (complain issue (some p.name) cause { l with heap := h }).2.heap = h := by
    intro issue cause
    obtain ⟨result, warnings, hcomplain⟩ :=
      complain_still (l := { l with heap := h }) issue (some p.name) cause
    rw [hcomplain]
    exact ⟨.skip rfl, rfl⟩
  unfold loadPlugin
  rw [bind_ok hc]
  cases made with
  | error f =>
    dsimp only
    split
    · exact ⟨.skip rfl, rfl⟩
    · split <;> exact hcomplain _ _
  | ok v =>
    dsimp only
    rw [bind_ok (get_apply _)]
    simp only [Except.toOption, Option.bind_some]
    cases definitions? h v with
    | some ds =>
      obtain ⟨hadd, hheap⟩ := addAll_accepts (l := { l with heap := h }) (e := some p) ds
      exact ⟨.of_same (k := { l with heap := h }) rfl hadd, hheap⟩
    | none => exact hcomplain _ _

/-- Plugins are loaded one after the other, up to one that interrupts or is complained of strictly. -/
theorem loadEach_accepts (es : List EntryPoint) :
    l.Accepts (Registration.brought l.heap es) (loadEach es l) := by
  induction es generalizing l with
  | nil => exact .skip rfl
  | cons p rest ih =>
    obtain ⟨h, made, hc, -, ⟨f, rfl, hf, hnone⟩ | ⟨-, hbrings⟩⟩ := content_cases p l rest
    · rw [hnone, loadEach, bind_error (loadPlugin_interrupted hf hc)]
      exact .skip rfl
    · obtain ⟨hplugin, hheap⟩ := loadPlugin_accepts hc
      rw [hbrings]
      refine hplugin.andThen fun _ => ?_
      rw [← hheap]
      exact ih

end Load

namespace Registration

variable {l : Loader} {r : Registration}

/-- The definitions and values that are given exist. -/
def Supplied (h : Heap) : Registration → Prop
  | given ds => ∀ d ∈ ds, d.WellNamed
  | mapping entries => ∀ e ∈ entries, h.Knows e.1 ∧ h.Knows e.2
  | plugins _ => h.WellNamed
  | _ => True

theorem Supplied.allowed {h : Heap} (hr : r.Supplied h) : r.Allowed false h := by
  cases r with
  | one e data => exact .inr rfl
  | plugins es => exact ⟨rfl, hr⟩
  | _ => exact hr

theorem Supplied.wellNamed (hr : r.Supplied l.heap) (hl : l.registry.Named) :
    ∀ d ∈ r.registered l, d.WellNamed := by
  have hloose : r.registered { l with strict := false } = r.registered l := by
    cases r <;> rfl
  rw [← hloose]
  exact registered_wellNamed (l := { l with strict := false }) hr.allowed fun name d hd => (hl name d hd).2

theorem Registers.accepts (h : r.Registers l) : l.Accepts (r.registered l) (r.run l) where
  written := by
    refine ⟨_, h.registry.trans (Registry.addAll_eq_putEach ..), fun p hp => ?_⟩
    obtain ⟨d, hd, hnames⟩ := List.mem_flatMap.mp hp
    obtain ⟨name, hname, rfl⟩ := List.mem_map.mp hnames
    exact ⟨hd, hname⟩
  ended _ := h.registry

/-- Whether it is strict or not, a registration registers its definitions in order, and all of them
if it ends. -/
theorem run_accepts (hr : r.Supplied l.heap) : l.Accepts (r.registered l) (r.run l) := by
  cases r with
  | plugins es => exact Load.loadEach_accepts _
  | one e data =>
    have hmaking := Load.making_apply (Definition.make · data) l
    cases hmade : (Definition.make l.heap data).2 with
    | error f =>
      rw [hmade] at hmaking
      have hstops : (one e data).run l = (.error f, _) := bind_error hmaking
      rw [registered, hmade, hstops]
      exact .skip rfl
    | ok d =>
      rw [hmade] at hmaking
      have hgoes : (one e data).run l = Load.add e d _ := bind_ok hmaking
      rw [registered, hmade, hgoes]
      exact .of_same (k := { l with heap := (Definition.make l.heap data).1 }) rfl (Load.add_accepts d).1
  | given ds => exact (run_registers (r := .given ds) hr).accepts
  | mapping entries => exact (run_registers (r := .mapping entries) hr).accepts
  | definitions data => exact (run_registers (r := .definitions data) hr).accepts
  | again names => exact (run_registers (r := .again names) hr).accepts

end Registration

/-! ### Calls of verbs -/

theorem Heap.Kept.procedure {h h' : Heap} (k : h.Kept h') {v : Value} {c : Callable}
    (hc : h.cell? v = some (.procedure c)) : h'.cell? v = some (.procedure c) := by
  obtain ⟨c', hc', hshape⟩ := k.cell? hc
  rw [hc', (Cell.callable_of_shape hshape).1 c rfl]

namespace Act

variable {s : Session}

/-- A procedure that has its first arguments is called with them before the others. -/
theorem callWithin_applied (barred : Option Bar) (depth : Nat) {v target : Value} {first : List Value}
    (hv : s.heap.cell? v = some (.procedure (.applied target first))) (args : List Value)
    (named : List (String × Value)) :
    callWithin barred (depth + 1) v args named s =
      callWithin barred depth target (first ++ args) named s := by
  cases v with
  | object r =>
    show apply barred (callWithin barred depth) (.object r) args named s = _
    unfold apply
    rw [bind_ok (get_apply s)]
    simp only [hv, applyProcedure]
  | _ => cases hv

/-- It has them whatever the evaluation of the others does. -/
theorem call_applied (barred : Option Bar) (depth : Nat) {v target : Value} {first : List Value}
    (hv : s.heap.cell? v = some (.procedure (.applied target first))) (f : Frame) (args : List Term)
    (named : List (String × Term)) (log : Bool) :
    callWith (callWithin barred (depth + 1)) f (pure v) args named log s = (do
      let args ← Term.evalAll f args
      let named ← Term.evalFields f named
      let v ← callWithin barred depth target (first ++ args) named
      recordIf log (.returned v) : Act Unit) s := by
  have hpure : (pure v : Act Value) s = (.ok v, s) := rfl
  rw [callWith, bind_ok hpure]
  rcases hargs : Term.evalAll f args s with ⟨f₁ | vs, s₁⟩
  · rw [bind_error hargs, bind_error hargs]
  · rw [bind_ok hargs, bind_ok hargs]
    obtain ⟨m₁, hkept₁, rfl⟩ := (Term.evalAll_quiet f args False.elim).still hargs
    rcases hnamed : Term.evalFields f named (s.recalling m₁) with ⟨f₂ | ns, s₂⟩
    · rw [bind_error hnamed, bind_error hnamed]
    · rw [bind_ok hnamed, bind_ok hnamed]
      obtain ⟨m₂, hkept₂, rfl⟩ := (Term.evalFields_quiet f named False.elim).still hnamed
      have hcall := callWithin_applied (s := (s.recalling m₁).recalling m₂) barred depth
        (hkept₂.procedure (hkept₁.procedure hv)) vs ns
      rcases hresult : callWithin barred depth target (first ++ vs) ns ((s.recalling m₁).recalling m₂)
        with ⟨f₃ | w, s₃⟩
      · rw [bind_error (hcall.trans hresult), bind_error hresult]
      · rw [bind_ok (hcall.trans hresult), bind_ok hresult]

/-- A verb of a handler is called with the subject before the arguments. -/
theorem callWith_verb {subject verb : Value} {name : String}
    (h : s.registry.lookUp subject name = .ok (.verb verb)) (barred : Option Bar) (depth : Nat)
    (f : Frame) (args : List Term) (named : List (String × Term)) (log : Bool) :
    callWith (callWithin barred (depth + 1)) f (handlerAttribute subject name) args named log s = (do
      let args ← Term.evalAll f args
      let named ← Term.evalFields f named
      let v ← callWithin barred depth verb (subject :: args) named
      recordIf log (.returned v) : Act Unit)
        { s with heap := (s.heap.alloc (.procedure (.applied verb [subject]))).1 } := by
  have hcell : (s.heap.alloc (.procedure (.applied verb [subject]))).1.cell? (.object s.heap.size) =
      some (.procedure (.applied verb [subject])) := Heap.get?_alloc_self ..
  rw [callWith, bind_ok (handlerAttribute_apply h)]
  exact call_applied (s := { s with heap := _ }) barred depth hcell f args named log

end Act

/-! ### Handlers -/

/-- What a session comes to by registrations, strict or not, and anything else in between. -/
inductive Registering (s₀ : Session) : Session → Prop
  | start : Registering s₀ s₀
  | register {s} (r : Registration) (strict : Bool) : Registering s₀ s → r.Supplied s.heap →
      Registering s₀ (s.registering strict r).2
  | elsewhere {s t} : Registering s₀ s → t.registry = s.registry → Registering s₀ t

namespace Registering

variable {s₀ s : Session}

theorem named (h₀ : s₀.registry = []) (h : Registering s₀ s) : s.registry.Named := by
  induction h with
  | start => exact h₀ ▸ .empty
  | @register s r strict _ hr ih =>
    have hrun := Registration.run_accepts (l := s.loader strict) hr
    exact hrun.named (hr.wellNamed (l := s.loader strict) ih) ih
  | elsewhere _ hregistry ih => exact hregistry ▸ ih

/-- Names stay registered. -/
theorem mem_names (h : Registering s₀ s) {name : String} (hname : name ∈ s₀.registry.names) :
    name ∈ s.registry.names := by
  induction h with
  | start => exact hname
  | @register s r strict _ hr ih => exact (Registration.run_accepts (l := s.loader strict) hr).mem_names ih
  | elsewhere _ hregistry ih => exact hregistry ▸ ih

/-- A registered name is one that verbs may have, and has the verb of its definition. -/
theorem registered (h₀ : s₀.registry = []) (h : Registering s₀ s) {name : String}
    (hname : name ∈ s.registry.names) : ∃ d, s.registry.get? name = some d ∧ Schema.isName name = true := by
  obtain ⟨d, hd⟩ := Option.isSome_iff_exists.mp ((s.registry.mem_names_iff name).mp hname)
  obtain ⟨hnames, hwell⟩ := h.named h₀ name d hd
  exact ⟨d, hd, hwell name hnames⟩

end Registering

/-- Under the name of the subject a handler has its subject, whatever is registered. -/
theorem Act.handlerAttribute_subject (subject : Value) (s : Session) :
    handlerAttribute subject Registry.subjectName s = (.ok subject, s) := rfl

/-- A verb is registered under a name on its own if the name is one that verbs may have and the verb
can be called, and otherwise it is refused. -/
theorem Session.registering_verb (s : Session) (strict : Bool) (name : String) {verb : Value}
    (hverb : s.heap.Knows verb) :
    (((s.registering strict (.mapping [(.text name, verb)])).1 = .ok ()) ↔
      Schema.isName name = true ∧ verb.isCallable s.heap = true) := by
  have hknows : ∀ e ∈ [(Value.text name, verb)], s.heap.Knows e.1 ∧ s.heap.Knows e.2 :=
    List.forall_mem_singleton.mpr ⟨nofun, hverb⟩
  have hentry : (Definition.ofEntry? s.heap (.text name, verb)).isSome = true ↔
      Schema.isName name = true ∧ verb.isCallable s.heap = true := by
    by_cases hname : Schema.isName name = true <;> by_cases hcallable : verb.isCallable s.heap = true <;>
      simp [Definition.ofEntry?, Schema.name, Schema.text, Value.asText?, hname, hcallable, bind, Except.bind,
        pure, Except.pure, throw, throwThe, MonadExceptOf.throw]
  rw [← hentry]
  cases hof : Definition.ofEntry? s.heap (.text name, verb) with
  | none =>
    obtain ⟨issues, hrefused⟩ := Registration.run_mapping_invalid (l := s.loader strict) hknows
      (List.mem_singleton_self _) hof
    simp [Session.registering, hrefused]
  | some d =>
    have hrun := Registration.run_mapping_ok (l := s.loader strict) hknows
      (List.forall_mem_singleton.mpr (by rw [Session.loader, hof]; rfl))
    simp [Session.registering, hrun]

/-- After a registration that ends, a name has the verb of the last definition registered with it. -/
theorem Session.registering_resolves {s : Session} {strict : Bool} {r : Registration} (hr : r.Supplied s.heap)
    (hok : (s.registering strict r).1 = .ok ()) {name : String} {d : Definition}
    (hd : Registry.latest (r.registered (s.loader strict)) name = some d) :
    (s.registering strict r).2.registry.resolve name = .ok d.verb := by
  have hregistry := (Registration.run_accepts (l := s.loader strict) hr).ended hok
  refine Registry.resolve_some ?_
  show (r.run (s.loader strict)).2.registry.get? name = some d
  rw [hregistry, Registry.get?_addAll, hd]
  rfl

/-- A verb that can be called is accepted under every name that verbs may have, and under no other;
a registration that ends gives each of its names the verb of the last definition with it. A handler
of any subject has a registered verb under its name, and calls it with the subject before the
arguments, but for the name of the subject: under this it has the subject. -/
theorem registered_verbs_bound {s₀ s : Session} (h₀ : s₀.registry = []) (h : Registering s₀ s)
    (name : String) (subject : Value) :
    (∀ strict verb, s.heap.Knows verb → ((s.registering strict (.mapping [(.text name, verb)])).1 = .ok () ↔
      Schema.isName name = true ∧ verb.isCallable s.heap = true)) ∧
    (∀ strict r d, r.Supplied s.heap → (s.registering strict r).1 = .ok () →
      Registry.latest (r.registered (s.loader strict)) name = some d →
      (s.registering strict r).2.registry.resolve name = .ok d.verb) ∧
    (name ∈ s.registry.names → ∃ verb, s.registry.resolve name = .ok verb ∧
      (name ≠ Registry.subjectName →
        handlerAttribute subject name s = (.ok (.object s.heap.size),
          { s with heap := (s.heap.alloc (.procedure (.applied verb [subject]))).1 }) ∧
        ∀ barred depth f args named log,
          callWith (callWithin barred (depth + 1)) f (handlerAttribute subject name) args named log s = (do
            let args ← Term.evalAll f args
            let named ← Term.evalFields f named
            let v ← callWithin barred depth verb (subject :: args) named
            recordIf log (.returned v) : Act Unit)
              { s with heap := (s.heap.alloc (.procedure (.applied verb [subject]))).1 }) ∧
      (name = Registry.subjectName → handlerAttribute subject name s = (.ok subject, s))) := by
  refine ⟨fun strict verb hverb => s.registering_verb strict name hverb,
    fun strict r d hr hok hd => Session.registering_resolves hr hok hd, fun hname => ?_⟩
  obtain ⟨d, hd, hisName⟩ := h.registered h₀ hname
  refine ⟨d.verb, Registry.resolve_some hd, fun hne => ?_, ?_⟩
  · have hverb := Registry.lookUp_verb hd hisName hne subject
    exact ⟨handlerAttribute_apply hverb, fun _ _ _ _ _ _ => callWith_verb hverb ..⟩
  · rintro rfl
    exact handlerAttribute_subject subject s

theorem Registering.initial : Registering { registry := [] } {} := by
  have hstart : Registering { registry := [] } { registry := [] } := .start
  have hgiven := hstart.register (.given Registry.builtins) false Registry.builtins_wellNamed
  obtain ⟨warnings, hadd⟩ := Load.addAll_apply (e := none) (l := Session.loader { registry := [] } false)
    (.inl rfl) Registry.builtins
  rw [Session.registering, Registration.run, hadd] at hgiven
  exact hgiven.elsewhere rfl

/-- Two verbs by name, one of them under the name of the subject. -/
def Registration.naming : Registration :=
  .mapping [(.text "isPositive", .labelled "p"), (.text Registry.subjectName, .labelled "q")]

theorem Registration.naming_supplied (h : Heap) : Registration.naming.Supplied h := by
  intro e he
  simp only [List.mem_cons, List.not_mem_nil, or_false] at he
  rcases he with rfl | rfl <;> exact ⟨nofun, nofun⟩

/-- The session after they are registered. -/
def Session.withNaming : Session := (({} : Session).registering false .naming).2

theorem Session.withNaming_registering : Registering { registry := [] } Session.withNaming :=
  Registering.initial.register _ false (Registration.naming_supplied _)

theorem Session.withNaming_resolve :
    Session.withNaming.registry.resolve "isPositive" = .ok (.labelled "p") ∧
      Session.withNaming.registry.resolve Registry.subjectName = .ok (.labelled "q") := by
  have hrun := Registration.run_mapping_ok (l := Session.loader {} false)
    (Registration.naming_supplied _) (by decide)
  have hok : (({} : Session).registering false .naming).1 = .ok () := congrArg Prod.fst hrun
  have hresolve : ∀ {name d}, Registry.latest (Registration.naming.registered (Session.loader {} false)) name =
      some d → Session.withNaming.registry.resolve name = .ok d.verb :=
    Session.registering_resolves (Registration.naming_supplied _) hok
  exact ⟨hresolve (d := { name := "isPositive", verb := .labelled "p" }) rfl,
    hresolve (d := { name := Registry.subjectName, verb := .labelled "q" }) rfl⟩

/-- The verb of one name is called with the subject; in place of that of the other the handler has its
subject. -/
theorem registered_verbs_bound_naming :
    let s := Session.withNaming
    s.registry.resolve Registry.subjectName = .ok (.labelled "q") ∧
    handlerAttribute (.int 5) Registry.subjectName s = (.ok (.int 5), s) ∧
    handlerAttribute (.int 5) "isPositive" s = (.ok (.object s.heap.size),
      { s with heap := (s.heap.alloc (.procedure (.applied (.labelled "p") [.int 5]))).1 }) := by
  obtain ⟨hpositive, hsubject⟩ := Session.withNaming_resolve
  have hbound := registered_verbs_bound rfl Session.withNaming_registering
  obtain ⟨verb, hverb, hother, -⟩ := (hbound "isPositive" (.int 5)).2.2 (by decide)
  obtain rfl := Except.ok.inj (hpositive.symm.trans hverb)
  obtain ⟨verb', -, -, hown⟩ := (hbound Registry.subjectName (.int 5)).2.2 (by decide)
  exact ⟨hsubject, hown rfl, (hother (by decide)).1⟩

/-- Not every registered verb is the attribute of its name, bound to the subject. -/
theorem subject_hides_verb : ¬ ∀ (s₀ s : Session), s₀.registry = [] → Registering s₀ s →
    ∀ name ∈ s.registry.names, ∀ subject, ∃ verb v t, s.registry.resolve name = .ok verb ∧
      handlerAttribute subject name s = (.ok v, t) ∧
      t.heap.cell? v = some (.procedure (.applied verb [subject])) := by
  intro hall
  obtain ⟨verb, v, t, -, hattribute, hcell⟩ := hall _ _ rfl Session.withNaming_registering
    Registry.subjectName (by decide) (.int 5)
  rw [handlerAttribute_subject] at hattribute
  obtain rfl : Value.int 5 = v := Except.ok.inj (congrArg Prod.fst hattribute)
  cases hcell

end Exemplar
