import Exemplar.Proofs.Accord
import Exemplar.Proofs.Registration

/-! Histories of a registry.

A `History` is any sequence of registrations with anything else in between, failing ones and
lookups included. After it the verb of a name is the one of the last definition registered that has
the name, a name that was registered once stays registered, and handlers look verbs up when they
are asked (`registry_follows`). -/
namespace Exemplar

open Act

/-! ### Histories -/

/-- The specifier of a session, while it loads strictly or not. -/
def Session.loader (s : Session) (strict : Bool) : Loader :=
  { heap := s.heap, registry := s.registry, globalMode := s.globalMode, strict }

/-- Registers with the specifier of the session. -/
def Session.registering (s : Session) (strict : Bool) (r : Registration) : Except Failure Unit × Session :=
  let (result, l) := r.run (s.loader strict)
  (result, { s with heap := l.heap, registry := l.registry })

/-- What a session comes to by registrations and anything else in between, with the definitions
that were registered, in order. -/
inductive History (s₀ : Session) : List Definition → Session → Prop
  | start : History s₀ [] s₀
  | register {ds s} (r : Registration) (strict : Bool) : History s₀ ds s → r.Allowed strict s.heap →
      History s₀ (ds ++ r.registered (s.loader strict)) (s.registering strict r).2
  | elsewhere {ds s t} : History s₀ ds s → s.heap.Kept t.heap → t.registry = s.registry → History s₀ ds t

namespace Registry

theorem resolve_some {r : Registry} {name : String} {d : Definition} (h : r.get? name = some d) :
    r.resolve name = .ok d.verb := by
  rw [resolve, h]

theorem resolve_none {r : Registry} {name : String} (h : r.get? name = none) :
    r.resolve name = .error (.fault (.unknownVerb name)) := by
  rw [resolve, h]

/-- Handlers have nothing under a name of a verb that hides it, but for their subject. -/
theorem lookUp_verb {r : Registry} {name : String} {d : Definition} (h : r.get? name = some d)
    (hok : Schema.isName name = true) (hne : name ≠ subjectName) (subject : Value) :
    r.lookUp subject name = .ok (.verb d.verb) := by
  have hhead : name.toList.head? ≠ some '_' := by
    intro hc
    unfold Schema.isName at hok
    cases hchars : name.toList with
    | nil => simp [hchars] at hok
    | cons c cs =>
      rw [hchars] at hok hc
      obtain rfl := Option.some.inj hc
      simp [Schema.isLetter] at hok
  have hregistry : name ≠ registryName := by
    rintro rfl
    exact hhead (by decide)
  rw [lookUp, if_neg hne, if_neg hregistry, if_neg hhead, resolve_some h]
  rfl

end Registry

namespace History

variable {s₀ s : Session} {ds : List Definition}

theorem registry_eq (h : History s₀ ds s) : s.registry = s₀.registry.addAll ds := by
  induction h with
  | start => rfl
  | @register ds s r strict _ hr ih =>
    have hrun := (Registration.run_registers (l := s.loader strict) hr).registry
    show (r.run (s.loader strict)).2.registry = _
    rw [hrun, Registry.addAll_append, ← ih]
    rfl
  | elsewhere _ _ hregistry ih => exact hregistry.trans ih

theorem heap_kept (h : History s₀ ds s) : s₀.heap.Kept s.heap := by
  induction h with
  | start => exact .refl _
  | @register ds s r strict _ hr ih =>
    have hrun := (Registration.run_registers (l := s.loader strict) hr).objects
    exact ih.trans hrun.objects.kept
  | elsewhere _ hk _ ih => exact ih.trans hk

theorem get?_eq (h₀ : s₀.registry = []) (h : History s₀ ds s) (name : String) :
    s.registry.get? name = Registry.latest ds name := by
  rw [h.registry_eq, Registry.get?_addAll, h₀]
  exact Option.or_none

theorem wellNamed (h₀ : s₀.registry = []) (h : History s₀ ds s) : ∀ d ∈ ds, d.WellNamed := by
  induction h with
  | start => exact fun _ hd => absurd hd List.not_mem_nil
  | @register ds s r strict hs hr ih =>
    refine List.forall_mem_append.mpr ⟨ih, Registration.registered_wellNamed hr fun name d hd => ?_⟩
    have hget := (hs.get?_eq h₀ name).symm.trans hd
    exact ih d (Registry.latest_eq_some hget).1
  | elsewhere _ _ _ ih => exact ih

end History

/-- A verb that a handler looks up is a new procedure, bound to the subject. -/
theorem Act.handlerAttribute_apply {s : Session} {subject verb : Value} {name : String}
    (h : s.registry.lookUp subject name = .ok (.verb verb)) :
    handlerAttribute subject name s = (.ok (.object s.heap.size),
      { s with heap := (s.heap.alloc (.procedure (.applied verb [subject]))).1 }) := by
  rw [handlerAttribute, bind_ok (get_apply s), h]
  rfl

/-- After any history the verb of a name is that of the last definition registered that has the
name, and there is none if no definition has it. Names stay registered; a mapping with an entry
that is refused, wherever it stands, registers nothing; and a handler finds the verb that is
registered when it is asked, which keeps its procedure and its subject ever after. -/
theorem registry_follows {s₀ s : Session} {ds : List Definition} (h₀ : s₀.registry = [])
    (h : History s₀ ds s) (name : String) :
    (∀ before d after, ds = before ++ d :: after → name ∈ d.names → (∀ d' ∈ after, name ∉ d'.names) →
      s.registry.resolve name = .ok d.verb) ∧
    ((∃ f, s.registry.resolve name = .error f) ↔ ∀ d ∈ ds, name ∉ d.names) ∧
    (∀ f, s.registry.resolve name = .error f → f = .fault (.unknownVerb name) ∧ f.kind = .attributeError) ∧
    (∀ ds' t, History s ds' t → name ∈ s.registry.names → name ∈ t.registry.names) ∧
    (∀ strict r f, r.Allowed strict s.heap → (∀ es, r ≠ .plugins es) →
      (s.registering strict r).1 = .error f → r.registered (s.loader strict) = []) ∧
    (∀ strict entries entry, (∀ e ∈ entries, s.heap.Knows e.1 ∧ s.heap.Knows e.2) → entry ∈ entries →
      Definition.ofEntry? s.heap entry = none → ∃ issues,
        (s.registering strict (.mapping entries)).1 = .error (.invalid "Assertion" issues) ∧
        (s.registering strict (.mapping entries)).2.registry = s.registry) ∧
    (name ∈ s.registry.names → name ≠ Registry.subjectName → ∀ subject, ∃ verb v t,
      s.registry.resolve name = .ok verb ∧ handlerAttribute subject name s = (.ok v, t) ∧
      t.registry = s.registry ∧ ∀ ds' u, History t ds' u →
        u.heap.cell? v = some (.procedure (.applied verb [subject]))) := by
  have hget := h.get?_eq h₀ name
  refine ⟨fun before d after hds hd hafter => ?_, ?_, fun f hf => ?_, fun ds' t ht hname => ?_,
    fun strict r f hr hplugins hf => ?_, fun strict entries entry hk he hnone => ?_,
    fun hname hne subject => ?_⟩
  · rw [hds, Registry.latest_last hd hafter] at hget
    exact Registry.resolve_some hget
  · rw [← Registry.latest_eq_none, ← hget]
    cases hd : s.registry.get? name with
    | none => simp [Registry.resolve_none hd]
    | some d => simp [Registry.resolve_some hd]
  · cases hd : s.registry.get? name with
    | none =>
      rw [Registry.resolve_none hd] at hf
      obtain rfl := Except.error.inj hf
      exact ⟨rfl, rfl⟩
    | some d =>
      rw [Registry.resolve_some hd] at hf
      cases hf
  · rw [Registry.mem_names_iff] at hname ⊢
    rw [ht.registry_eq, Registry.get?_addAll]
    cases Registry.latest ds' name with
    | none => exact hname
    | some d => rfl
  · exact (Registration.run_registers (l := s.loader strict) hr).failed hplugins f hf
  · obtain ⟨issues, hrefused⟩ := Registration.run_mapping_invalid (l := s.loader strict) hk he hnone
    rw [Session.registering, hrefused]
    exact ⟨issues, rfl, rfl⟩
  · rw [Registry.mem_names_iff] at hname
    obtain ⟨d, hd⟩ := Option.isSome_iff_exists.mp hname
    obtain ⟨hmem, hnames⟩ := Registry.latest_eq_some (hget.symm.trans hd)
    have hok := h.wellNamed h₀ d hmem name hnames
    refine ⟨d.verb, _, _, Registry.resolve_some hd,
      handlerAttribute_apply (Registry.lookUp_verb hd hok hne subject), rfl, fun ds' u hu => ?_⟩
    obtain ⟨c, hc, hshape⟩ := hu.heap_kept _ _ (Heap.get?_alloc_self s.heap _)
    rw [(Cell.callable_of_shape hshape).1 _ rfl] at hc
    exact hc

theorem Registry.builtins_wellNamed : ∀ d ∈ Registry.builtins, d.WellNamed := by
  have hnames : (Registry.builtins.all fun d => d.names.all Schema.isName) = true := by decide
  intro d hd name hname
  exact List.all_eq_true.mp (List.all_eq_true.mp hnames d hd) name hname

theorem History.given (s : Session) {ds : List Definition} (hds : ∀ d ∈ ds, d.WellNamed) :
    History s ds { s with registry := s.registry.addAll ds } := by
  have hstart : History s [] s := .start
  have hgiven := hstart.register (.given ds) false hds
  obtain ⟨warnings, hadd⟩ := Load.addAll_apply (l := s.loader false) (.inl rfl) ds
  rw [Session.registering, Registration.run, hadd] at hgiven
  exact hgiven

/-- A verb takes the place of a built-in one under its name, and not under the aliases. A handler
that looked the old one up keeps it. -/
theorem registry_follows_replaced :
    let replaced : Definition := { name := "equals", verb := .labelled "q" }
    ∃ v t s, History { registry := [] } Registry.builtins {} ∧
      handlerAttribute (.int 1) "equals" {} = (.ok v, t) ∧ History t [replaced] s ∧
      s.registry.resolve "equals" = .ok (.labelled "q") ∧
      s.registry.resolve "isEqualTo" = .ok (.verb .equals) ∧
      s.heap.cell? v = some (.procedure (.applied (.verb .equals) [.int 1])) := by
  intro replaced
  have hstart : History { registry := [] } Registry.builtins {} :=
    History.given { registry := [] } Registry.builtins_wellNamed
  obtain ⟨hlast, -, -, -, -, -, hverb⟩ := registry_follows rfl hstart "equals"
  have hequals := hlast [] _ _ rfl (by decide) (by decide)
  obtain ⟨verb, v, t, hresolve, hattribute, hregistry, hstays⟩ := hverb (by decide) (by decide) (.int 1)
  obtain rfl := Except.ok.inj (hequals.symm.trans hresolve)
  -- the mapping is registered later
  let mapping : Registration := .mapping [(.text "equals", .labelled "q")]
  have hknows : mapping.Allowed false t.heap := List.forall_mem_singleton.mpr ⟨nofun, nofun⟩
  have hregistered : mapping.registered (t.loader false) = [replaced] := by rfl
  have hlater : History t [replaced] (t.registering false mapping).2 := by
    rw [← hregistered]
    exact History.start.register mapping false hknows
  have hall : History { registry := [] } (Registry.builtins ++ [replaced]) (t.registering false mapping).2 := by
    rw [← hregistered]
    exact (hstart.elsewhere (fun _ _ hc => by cases hc) hregistry).register mapping false hknows
  refine ⟨v, t, _, hstart, hattribute, hlater, ?_, ?_, hstays _ _ hlater⟩
  · exact (registry_follows rfl hall "equals").1 Registry.builtins replaced [] rfl (by decide) (by decide)
  · exact (registry_follows rfl hall "isEqualTo").1 [] _ _ rfl (by decide) (by decide)

end Exemplar
