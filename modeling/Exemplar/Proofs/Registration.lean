import Exemplar.Proofs.Definitions
import Exemplar.Proofs.Quiet
import Exemplar.Registry.Loader

/-! Registrations, and what they leave in a registry.

A `Registration` is one way to bring definitions into a registry, and `Registration.registered` says
which of them it registers: all, or none if one can not be made. Running it adds these in order and
nothing else (`Registration.run_registers`), and of several definitions with one name the last
counts (`Registry.get?_addAll`). -/
namespace Exemplar

open Act

/-! ### Names of a registry -/

namespace Registry

theorem mem_names_iff (r : Registry) (name : String) : name ∈ r.names ↔ (r.get? name).isSome = true := by
  induction r with
  | nil => simp [names, get?]
  | cons p rest ih =>
    obtain ⟨m, d⟩ := p
    simp only [names, get?, List.map_cons, List.mem_cons] at ih ⊢
    by_cases hm : name = m
    · simp [hm]
    · rw [List.lookup_cons, beq_eq_false_iff_ne.mpr hm, ← ih]
      simp [hm]

/-- A name that is known is given the other definition, and keeps its place. -/
theorem lookup_replace (r : Registry) (name : String) (d : Definition) (n : String) :
    (r.map fun (m, old) => if m = name then (m, d) else (m, old)).lookup n =
      if n = name then (r.lookup n).map fun _ => d else r.lookup n := by
  induction r with
  | nil => simp
  | cons p rest ih =>
    obtain ⟨m, old⟩ := p
    by_cases hn : n = m
    · subst hn
      by_cases hname : n = name <;> simp [hname]
    · have hskip : ∀ (a : Definition) (es : Registry), List.lookup n ((m, a) :: es) = es.lookup n := by
        intro a es
        rw [List.lookup_cons, beq_eq_false_iff_ne.mpr hn]
      rw [List.map_cons, hskip, ← ih]
      dsimp only
      split <;> exact hskip _ _

theorem get?_put (r : Registry) (name : String) (d : Definition) (n : String) :
    (r.put name d).get? n = if n = name then some d else r.get? n := by
  unfold put get?
  split
  · rename_i hany
    have hknown : (r.lookup name).isSome = true :=
      (r.mem_names_iff name).mp (by simpa [names, List.any_eq_true] using hany)
    rw [lookup_replace]
    by_cases hn : n = name
    · obtain ⟨old, hold⟩ := Option.isSome_iff_exists.mp hknown
      rw [if_pos hn, if_pos hn, hn, hold]
      rfl
    · rw [if_neg hn, if_neg hn]
  · rename_i hany
    have hnew : r.lookup name = none := by
      refine Option.not_isSome_iff_eq_none.mp fun h => hany ?_
      simpa [names, List.any_eq_true] using (r.mem_names_iff name).mpr h
    rw [List.lookup_append]
    by_cases hn : n = name
    · simp [hn, hnew]
    · simp [hn, List.lookup_cons, beq_eq_false_iff_ne.mpr hn]

theorem get?_add (r : Registry) (d : Definition) (n : String) :
    (r.add d).get? n = if n ∈ d.names then some d else r.get? n := by
  have hput : ∀ (ns : List String) (r : Registry), (ns.foldl (·.put · d) r).get? n =
      if n ∈ ns then some d else r.get? n := by
    intro ns
    induction ns with
    | nil => simp
    | cons m rest ih =>
      intro r
      rw [List.foldl_cons, ih, get?_put]
      by_cases hrest : n ∈ rest
      · simp [hrest]
      · simp [hrest, List.mem_cons]
  exact hput d.names r

/-- The last of the definitions that has the name. -/
def latest (ds : List Definition) (name : String) : Option Definition :=
  ds.reverse.find? fun d => name ∈ d.names

theorem latest_append (ds ds' : List Definition) (name : String) :
    latest (ds ++ ds') name = (latest ds' name).or (latest ds name) := by
  simp only [latest, List.reverse_append, List.find?_append]

theorem get?_addAll (r : Registry) (ds : List Definition) (n : String) :
    (r.addAll ds).get? n = (latest ds n).or (r.get? n) := by
  induction ds generalizing r with
  | nil => rfl
  | cons d rest ih =>
    show (addAll (r.add d) rest).get? n = _
    rw [ih, get?_add, ← List.singleton_append, latest_append]
    cases latest rest n with
    | some d' => rfl
    | none => by_cases hn : n ∈ d.names <;> simp [latest, hn]

theorem addAll_append (r : Registry) (ds ds' : List Definition) :
    r.addAll (ds ++ ds') = (r.addAll ds).addAll ds' := List.foldl_append

theorem latest_eq_some {ds : List Definition} {name : String} {d : Definition} (h : latest ds name = some d) :
    d ∈ ds ∧ name ∈ d.names := by
  refine ⟨List.mem_reverse.mp (List.mem_of_find?_eq_some h), ?_⟩
  simpa using List.find?_some h

theorem latest_eq_none {ds : List Definition} {name : String} :
    latest ds name = none ↔ ∀ d ∈ ds, name ∉ d.names := by
  simp [latest]

/-- The definition after which none has the name. -/
theorem latest_last {before after : List Definition} {d : Definition} {name : String} (hd : name ∈ d.names)
    (hafter : ∀ d' ∈ after, name ∉ d'.names) : latest (before ++ d :: after) name = some d := by
  rw [latest_append, ← List.singleton_append, latest_append, latest_eq_none.mpr hafter]
  simp [latest, hd]

end Registry

/-! ### Loading -/

namespace Load

theorem get_apply (l : Loader) : (get : Load Loader) l = (.ok l, l) := rfl

theorem complain_apply {l : Loader} (hl : l.strict = false) (issue : PluginIssue)
    (entrypoint : Option String) (cause : Option ErrorKind) :
    complain issue entrypoint cause l = (.ok (), { l with warnings := issue.message :: l.warnings }) := by
  have hissue : issue? issue entrypoint cause l =
      (.ok none, { l with warnings := issue.message :: l.warnings }) := by
    unfold issue?
    rw [bind_ok (get_apply l), if_neg (Bool.eq_false_iff.mp hl)]
    rfl
  exact bind_ok hissue

/-- Definitions are registered under their names in order; from a plugin, with warnings. -/
theorem addNames_apply {e : Option EntryPoint} {l : Loader} (he : e = none ∨ l.strict = false)
    (d : Definition) (names : List String) : ∃ warnings, addNames e d names l =
      (.ok (), { l with registry := names.foldl (·.put · d) l.registry, warnings }) := by
  induction names generalizing l with
  | nil => exact ⟨l.warnings, rfl⟩
  | cons name rest ih =>
    -- the warning, if there is one, changes nothing that counts
    have hrest : ∀ ws, ∃ warnings, (do
        modify fun l => { l with registry := l.registry.put name d }
        addNames e d rest : Load Unit) { l with warnings := ws } = (.ok (),
          { l with registry := (name :: rest).foldl (·.put · d) l.registry, warnings }) := by
      intro ws
      exact ih (l := { l with registry := l.registry.put name d, warnings := ws }) he
    unfold addNames
    rw [bind_ok (get_apply l)]
    rcases e with _ | p
    · exact hrest l.warnings
    · cases l.registry.get? name with
      | none => exact hrest l.warnings
      | some old =>
        dsimp only
        rw [bind_ok (complain_apply (he.resolve_left nofun) _ _ _)]
        exact hrest _

theorem addAll_apply {e : Option EntryPoint} {l : Loader} (he : e = none ∨ l.strict = false)
    (ds : List Definition) : ∃ warnings, addAll e ds l =
      (.ok (), { l with registry := l.registry.addAll ds, warnings }) := by
  induction ds generalizing l with
  | nil => exact ⟨l.warnings, rfl⟩
  | cons d rest ih =>
    obtain ⟨ws, hadd⟩ := addNames_apply he d d.names
    unfold addAll add
    rw [bind_ok hadd]
    exact ih (l := { l with registry := l.registry.add d, warnings := ws }) he

theorem making_apply {α : Type} (f : Heap → Heap × Except Failure α) (l : Loader) :
    making f l = ((f l.heap).2, { l with heap := (f l.heap).1 }) := by
  unfold making
  rw [bind_ok (get_apply l)]
  rcases f l.heap with ⟨h, _ | _⟩ <;> rfl

end Load

/-! ### Registrations -/

/-- A way to bring definitions into a registry. -/
inductive Registration
  /-- Definitions that there are, as the built-in ones. -/
  | given (ds : List Definition)
  /-- A mapping of names to verbs. -/
  | mapping (entries : List (Value × Value))
  /-- Definitions that are made from their fields. -/
  | definitions (data : List (List (String × Value)))
  /-- What is registered under the names, once more. -/
  | again (names : List String)
  /-- One definition, as if from a plugin or not. -/
  | one (e : Option EntryPoint) (data : List (String × Value))
  /-- The plugins at the entry points. -/
  | plugins (es : List EntryPoint)

namespace Registration

def run : Registration → Load Unit
  | given ds => Load.addAll none ds
  | mapping entries => do
    let r := (← get).registry
    let registry ← Load.making fun h => r.extendVerbs h entries
    modify fun l => { l with registry }
  | definitions data => Load.extendDefinitions data
  | again names => Load.extendSame names
  | one e data => Load.addMade e data
  | plugins es => Load.loadPlugins es

/-- What plugins bring, up to the first entry point that is interrupted. -/
def brought : Heap → List EntryPoint → List Definition
  | _, [] => []
  | h, e :: rest =>
    match e.content with
    | .failing kind => if kind.isInterruption then [] else brought h rest
    | .value v => (Load.definitions? h v).getD [] ++ brought h rest
    | .plugin fields =>
      let (h', made) := Schema.plugin.make h fields
      (made.toOption.bind (Load.definitions? h')).getD [] ++ brought h' rest

/-- The definitions that are registered, in order. If one can not be made, none is. -/
def registered (l : Loader) : Registration → List Definition
  | given ds => ds
  | mapping entries =>
    if entries.all fun e => (Definition.ofEntry? l.heap e).isSome then
      entries.filterMap (Definition.ofEntry? l.heap)
    else []
  | definitions data => (Registry.makeAll l.heap data).2.toOption.getD []
  | again names =>
    if names.all fun name => (l.registry.get? name).isSome then names.filterMap l.registry.get? else []
  | one _ data => (Definition.make l.heap data).2.toOption.toList
  | plugins es => brought l.heap (es.filter (·.group = pluginGroup))

/-- The definitions and values that are given exist, and plugins are not loaded strictly. -/
def Allowed (strict : Bool) (h : Heap) : Registration → Prop
  | given ds => ∀ d ∈ ds, d.WellNamed
  | mapping entries => ∀ e ∈ entries, h.Knows e.1 ∧ h.Knows e.2
  | one e _ => e = none ∨ strict = false
  | plugins _ => strict = false ∧ h.WellNamed
  | _ => True

end Registration

/-! ### What registrations do -/

namespace Load

variable {l : Loader} {h : Heap} {e : EntryPoint}

section Finding

variable {find : String → Load Definition}
  (hfind : ∀ name, find name l = match l.registry.get? name with
    | some d => (.ok d, l)
    | none => (.error (.fault (.unsetName name)), l))
include hfind

theorem findAll_known (names : List String) (hall : ∀ name ∈ names, (l.registry.get? name).isSome = true) :
    names.mapM find l = (.ok (names.filterMap l.registry.get?), l) := by
  induction names with
  | nil => rfl
  | cons name rest ih =>
    obtain ⟨hname, hrest⟩ := List.forall_mem_cons.mp hall
    obtain ⟨d, hd⟩ := Option.isSome_iff_exists.mp hname
    have hfound : find name l = (.ok d, l) := by rw [hfind, hd]
    rw [List.mapM_cons, bind_ok hfound, bind_ok (ih hrest), List.filterMap_cons_some hd]
    rfl

theorem findAll_unset (names : List String) {name : String} (hmem : name ∈ names)
    (hnone : l.registry.get? name = none) : ∃ f, names.mapM find l = (.error f, l) := by
  induction names with
  | nil => exact absurd hmem List.not_mem_nil
  | cons n rest ih =>
    rw [List.mapM_cons]
    cases hd : l.registry.get? n with
    | none =>
      have hunset : find n l = (.error (.fault (.unsetName n)), l) := by rw [hfind, hd]
      exact ⟨_, bind_error hunset⟩
    | some d =>
      have hfound : find n l = (.ok d, l) := by rw [hfind, hd]
      rcases List.mem_cons.mp hmem with rfl | hrest
      · rw [hnone] at hd
        cases hd
      · obtain ⟨f, hf⟩ := ih hrest
        rw [bind_ok hfound, bind_error hf]
        exact ⟨f, rfl⟩

end Finding

theorem extendSame_known (names : List String) (hall : ∀ name ∈ names, (l.registry.get? name).isSome = true) :
    ∃ warnings, extendSame names l =
      (.ok (), { l with registry := l.registry.addAll (names.filterMap l.registry.get?), warnings }) := by
  obtain ⟨warnings, hadd⟩ := addAll_apply (l := l) (.inl rfl) (names.filterMap l.registry.get?)
  refine ⟨warnings, (bind_ok (findAll_known (fun name => ?_) names hall)).trans hadd⟩
  rw [bind_ok (get_apply l)]
  cases l.registry.get? name <;> rfl

theorem extendSame_unset (names : List String) {name : String} (hmem : name ∈ names)
    (hnone : l.registry.get? name = none) : ∃ f, extendSame names l = (.error f, l) := by
  refine (findAll_unset (fun name => ?_) names hmem hnone).imp fun f hf => bind_error hf
  rw [bind_ok (get_apply l)]
  cases l.registry.get? name <;> rfl

/-- What an entry point has is an interruption, after which nothing is brought, or it brings its
definitions before those of the entry points after it. -/
theorem content_cases (e : EntryPoint) (l : Loader) (rest : List EntryPoint) :
    ∃ h made, content e.content l = (.ok made, { l with heap := h }) ∧ l.heap.Grown h ∧
      ((∃ f, made = .error f ∧ f.isInterruption = true ∧ Registration.brought l.heap (e :: rest) = []) ∨
      (∀ f, made = .error f → f.isInterruption = false) ∧ Registration.brought l.heap (e :: rest) =
        (made.toOption.bind (definitions? h)).getD [] ++ Registration.brought h rest) := by
  rw [Registration.brought]
  cases e.content with
  | failing kind =>
    refine ⟨l.heap, .error (.raised kind [.text "broken"]), rfl, .refl _, ?_⟩
    dsimp only
    cases hkind : kind.isInterruption with
    | true => exact .inl ⟨_, rfl, hkind, if_pos rfl⟩
    | false => exact .inr ⟨fun f hf => Except.error.inj hf ▸ hkind, rfl⟩
  | value v => exact ⟨l.heap, .ok v, rfl, .refl _, .inr ⟨fun _ hf => (by cases hf), rfl⟩⟩
  | plugin fields =>
    have hgrown := Schema.Model.make_grown (m := Schema.plugin) (by simp [Schema.plugin]) l.heap fields
    refine ⟨_, (Schema.plugin.make l.heap fields).2, rfl, hgrown, .inr ⟨fun f hf => ?_, rfl⟩⟩
    obtain ⟨issues, rfl⟩ := Schema.Model.make_invalid hf
    rfl

theorem loadPlugin_interrupted {f : Failure} (hf : f.isInterruption = true)
    (hc : content e.content l = (.ok (.error f), { l with heap := h })) :
    loadPlugin e l = (.error f, { l with heap := h }) := by
  unfold loadPlugin
  rw [bind_ok hc]
  dsimp only
  rw [if_pos hf]
  rfl

/-- A plugin that is not interrupted brings what it has, or a warning. -/
theorem loadPlugin_brings (hl : l.strict = false) {made : Except Failure Value}
    (hmade : ∀ f, made = .error f → f.isInterruption = false)
    (hc : content e.content l = (.ok made, { l with heap := h })) : ∃ warnings, loadPlugin e l =
      (.ok (), { l with
        heap := h
        registry := l.registry.addAll ((made.toOption.bind (definitions? h)).getD [])
        warnings }) := by
  unfold loadPlugin
  rw [bind_ok hc]
  cases made with
  | error f =>
    dsimp only
    rw [if_neg (Bool.eq_false_iff.mp (hmade f rfl))]
    split <;> exact ⟨_, complain_apply (l := { l with heap := h }) hl _ _ _⟩
  | ok v =>
    dsimp only
    rw [bind_ok (get_apply _)]
    simp only [Except.toOption, Option.bind_some]
    cases definitions? h v with
    | some ds => exact addAll_apply (l := { l with heap := h }) (.inr hl) ds
    | none => exact ⟨_, complain_apply (l := { l with heap := h }) hl _ _ _⟩

/-- Plugins are loaded one after the other; whatever is wrong with one is a warning. -/
theorem loadEach_registers (hl : l.strict = false) (es : List EntryPoint) :
    (loadEach es l).2.registry = l.registry.addAll (Registration.brought l.heap es) ∧
      l.heap.Grown (loadEach es l).2.heap := by
  induction es generalizing l with
  | nil => exact ⟨rfl, .refl _⟩
  | cons e rest ih =>
    obtain ⟨h, made, hc, hgrown, ⟨f, rfl, hf, hnone⟩ | ⟨hmade, hbrings⟩⟩ := content_cases e l rest
    · rw [hnone, loadEach, bind_error (loadPlugin_interrupted hf hc)]
      exact ⟨rfl, hgrown⟩
    · obtain ⟨warnings, hload⟩ := loadPlugin_brings hl hmade hc
      generalize (made.toOption.bind (definitions? h)).getD [] = ds at hbrings hload
      obtain ⟨hregistry, hheap⟩ :=
        ih (l := { l with heap := h, registry := l.registry.addAll ds, warnings }) hl
      rw [hbrings, loadEach, bind_ok hload, Registry.addAll_append]
      exact ⟨hregistry, hgrown.trans hheap⟩

end Load

namespace Registration

variable {l : Loader} {r : Registration}

theorem brought_wellNamed {h : Heap} (hn : h.WellNamed) (es : List EntryPoint) :
    ∀ d ∈ brought h es, d.WellNamed := by
  have hplugin : ∀ {h : Heap}, h.WellNamed → ∀ v, ∀ d ∈ (Load.definitions? h v).getD [], d.WellNamed := by
    intro h hn v d hd
    unfold Load.definitions? at hd
    split at hd
    · obtain ⟨w, -, hof⟩ := List.mem_filterMap.mp hd
      exact hn.ofElement hof
    · exact absurd hd List.not_mem_nil
  induction es generalizing h with
  | nil => exact fun _ hd => absurd hd List.not_mem_nil
  | cons e rest ih =>
    unfold brought
    cases e.content with
    | failing kind =>
      dsimp only
      split
      · exact fun _ hd => absurd hd List.not_mem_nil
      · exact ih hn
    | value v => exact List.forall_mem_append.mpr ⟨hplugin hn v, ih hn⟩
    | plugin fields =>
      have hgrown := Schema.Model.make_grown (m := Schema.plugin) (by simp [Schema.plugin]) h fields
      dsimp only
      rcases hmade : Schema.plugin.make h fields with ⟨h', f | v⟩ <;> rw [hmade] at hgrown
      · exact ih (hgrown.names hn)
      · exact List.forall_mem_append.mpr ⟨hplugin (hgrown.names hn) v, ih (hgrown.names hn)⟩

theorem run_mapping_ok {entries : List (Value × Value)}
    (hk : ∀ e ∈ entries, l.heap.Knows e.1 ∧ l.heap.Knows e.2)
    (hall : ∀ e ∈ entries, (Definition.ofEntry? l.heap e).isSome = true) : (mapping entries).run l =
      (.ok (), { l with
        heap := (l.registry.extendVerbs l.heap entries).1
        registry := l.registry.addAll (entries.filterMap (Definition.ofEntry? l.heap)) }) := by
  have hmaking := Load.making_apply (l.registry.extendVerbs · entries) l
  rw [Registry.extendVerbs_ok l.registry hk hall] at hmaking
  rw [run, bind_ok (Load.get_apply l), bind_ok hmaking]
  rfl

theorem run_mapping_invalid {entries : List (Value × Value)}
    (hk : ∀ e ∈ entries, l.heap.Knows e.1 ∧ l.heap.Knows e.2) {e : Value × Value} (he : e ∈ entries)
    (hnone : Definition.ofEntry? l.heap e = none) : ∃ issues, (mapping entries).run l =
      (.error (.invalid "Assertion" issues), { l with heap := (l.registry.extendVerbs l.heap entries).1 }) := by
  obtain ⟨issues, hrefused⟩ := Registry.extendVerbs_invalid l.registry hk he hnone
  have hmaking := Load.making_apply (l.registry.extendVerbs · entries) l
  rw [hrefused] at hmaking
  rw [run, bind_ok (Load.get_apply l), bind_error hmaking]
  exact ⟨issues, rfl⟩

/-- What a registration does: it adds what it registers, and objects to the store. One that fails
registers nothing, unless it loads plugins. -/
structure Registers (r : Registration) (l : Loader) : Prop where
  registry : (r.run l).2.registry = l.registry.addAll (r.registered l)
  objects : l.heap.Grown (r.run l).2.heap
  failed : (∀ es, r ≠ .plugins es) → ∀ f, (r.run l).1 = .error f → r.registered l = []

theorem Registers.of_ok {h : Heap} (warnings : List String) (hgrown : l.heap.Grown h)
    (hrun : r.run l =
      (.ok (), { l with heap := h, registry := l.registry.addAll (r.registered l), warnings })) :
    r.Registers l where
  registry := by rw [hrun]
  objects := by rw [hrun]; exact hgrown
  failed _ f hf := by rw [hrun] at hf; cases hf

theorem Registers.of_error {h : Heap} {f : Failure} (hgrown : l.heap.Grown h)
    (hnone : r.registered l = []) (hrun : r.run l = (.error f, { l with heap := h })) : r.Registers l where
  registry := by rw [hrun, hnone]; rfl
  objects := by rw [hrun]; exact hgrown
  failed _ _ _ := hnone

theorem run_registers (hr : r.Allowed l.strict l.heap) : r.Registers l := by
  cases r with
  | given ds =>
    obtain ⟨warnings, hadd⟩ := Load.addAll_apply (l := l) (.inl rfl) ds
    exact .of_ok warnings (.refl _) hadd
  | mapping entries =>
    have hgrown := Registry.extendVerbs_grown l.registry l.heap entries
    by_cases hall : ∀ e ∈ entries, (Definition.ofEntry? l.heap e).isSome = true
    · refine .of_ok l.warnings hgrown ?_
      rw [registered, if_pos (List.all_eq_true.mpr hall)]
      exact run_mapping_ok hr hall
    · obtain ⟨e, he, hnone⟩ : ∃ e ∈ entries, Definition.ofEntry? l.heap e = none := by simpa using hall
      obtain ⟨issues, hrefused⟩ := run_mapping_invalid hr he hnone
      exact .of_error hgrown (if_neg fun h => hall (List.all_eq_true.mp h)) hrefused
  | definitions data =>
    have hgrown := Registry.makeAll_grown l.heap data
    have hmaking := Load.making_apply (Registry.makeAll · data) l
    cases hmade : (Registry.makeAll l.heap data).2 with
    | error f =>
      rw [hmade] at hmaking
      exact .of_error hgrown (by rw [registered, hmade]; rfl) (bind_error hmaking)
    | ok ds =>
      rw [hmade] at hmaking
      obtain ⟨warnings, hadd⟩ := Load.addAll_apply
        (l := { l with heap := (Registry.makeAll l.heap data).1 }) (.inl rfl) ds
      refine .of_ok warnings hgrown ?_
      rw [registered, hmade]
      exact (bind_ok hmaking).trans hadd
  | again names =>
    by_cases hall : ∀ name ∈ names, (l.registry.get? name).isSome = true
    · obtain ⟨warnings, hadd⟩ := Load.extendSame_known names hall
      refine .of_ok warnings (.refl _) ?_
      rw [registered, if_pos (List.all_eq_true.mpr hall)]
      exact hadd
    · obtain ⟨name, hmem, hnone⟩ : ∃ name ∈ names, l.registry.get? name = none := by simpa using hall
      obtain ⟨f, hf⟩ := Load.extendSame_unset names hmem hnone
      exact .of_error (.refl _) (if_neg fun h => hall (List.all_eq_true.mp h)) hf
  | one e data =>
    have hgrown := Definition.make_grown l.heap data
    have hmaking := Load.making_apply (Definition.make · data) l
    cases hmade : (Definition.make l.heap data).2 with
    | error f =>
      rw [hmade] at hmaking
      exact .of_error hgrown (by rw [registered, hmade]; rfl) (bind_error hmaking)
    | ok d =>
      rw [hmade] at hmaking
      obtain ⟨warnings, hadd⟩ := Load.addNames_apply
        (l := { l with heap := (Definition.make l.heap data).1 }) hr d d.names
      refine .of_ok warnings hgrown ?_
      rw [registered, hmade]
      exact (bind_ok hmaking).trans hadd
  | plugins es =>
    obtain ⟨hregistry, hobjects⟩ := Load.loadEach_registers hr.1 (es.filter (·.group = pluginGroup))
    exact ⟨hregistry, hobjects, fun h => absurd rfl (h es)⟩

theorem registered_wellNamed (hr : r.Allowed l.strict l.heap)
    (hreg : ∀ name d, l.registry.get? name = some d → d.WellNamed) : ∀ d ∈ r.registered l, d.WellNamed := by
  cases r with
  | given ds => exact hr
  | mapping entries =>
    intro d hd
    simp only [registered] at hd
    split at hd
    · obtain ⟨e, -, he⟩ := List.mem_filterMap.mp hd
      exact Definition.ofEntry?_wellNamed he
    · exact absurd hd List.not_mem_nil
  | definitions data =>
    intro d hd
    simp only [registered] at hd
    cases hmade : (Registry.makeAll l.heap data).2 with
    | error f => simp [hmade, Except.toOption] at hd
    | ok ds =>
      rw [hmade] at hd
      exact Registry.makeAll_wellNamed hmade d hd
  | again names =>
    intro d hd
    simp only [registered] at hd
    split at hd
    · obtain ⟨name, -, hname⟩ := List.mem_filterMap.mp hd
      exact hreg name d hname
    · exact absurd hd List.not_mem_nil
  | one e data =>
    intro d hd
    simp only [registered] at hd
    cases hmade : (Definition.make l.heap data).2 with
    | error f => simp [hmade, Except.toOption] at hd
    | ok d' =>
      rw [hmade] at hd
      obtain rfl : d = d' := by simpa [Except.toOption] using hd
      exact Definition.make_wellNamed hmade
  | plugins es => exact brought_wellNamed hr.2 _

end Registration

end Exemplar
