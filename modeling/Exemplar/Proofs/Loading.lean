import Exemplar.Proofs.Registration

/-! Plugins loaded loosely and strictly.

Both ways complain of the same at the same places: loosely every complaint is a warning, strictly the
first is an error and the end. `Load.Complains` says so of one computation and has a rule for two in
a row, from which it follows of all entry points (`Load.loadEach_complains`). What is complained of
is told by what the entry points have and which names are known by then (`complaints`); the main
statement is `strict_load_agrees`. -/
namespace Exemplar

open Act

/-! ### What there is to complain of -/

/-- What loading an entry point comes to. -/
inductive Finding
  /-- Nothing but an issue. -/
  | broken (issue : PluginIssue) (cause : Option ErrorKind)
  | plugin (ds : List Definition)

def Entry.Content.found (h : Heap) : Entry.Content → Heap × Except Failure Value
  | .failing kind => (h, .error (.raised kind [.text "broken"]))
  | .value v => (h, .ok v)
  | .plugin fields => Schema.plugin.make h fields

namespace EntryPoint

/-- What is wrong with an entry point that could not be loaded. -/
def refusal (e : EntryPoint) (kind : ErrorKind) : PluginIssue :=
  if kind = .validationError then .notValid e.name else .notLoaded e.name

/-- What is found at an entry point, and the store after it was loaded. -/
def find (e : EntryPoint) (h : Heap) : Heap × Finding :=
  let (h, made) := e.content.found h
  (h, match made with
    | .error f => .broken (e.refusal f.kind) (some f.kind)
    | .ok v => match Load.definitions? h v with
      | some ds => .plugin ds
      | none => .broken (.notPlugin e.name) none)

/-- Whatever loading the entry point raises, it is not an interruption. -/
def Uninterrupted (e : EntryPoint) : Prop :=
  ∀ kind, e.content = .failing kind → kind.isInterruption = false

def shadowing (e : EntryPoint) (name : String) : PluginFailure :=
  { issue := .shadowing name e.place, entrypoint := some e.name, cause := none }

end EntryPoint

/-- The names, in order, that are known when their turn comes. -/
def takenOver : List String → List String → List String
  | _, [] => []
  | known, name :: rest =>
    (if name ∈ known then [name] else []) ++ takenOver (name :: known) rest

namespace Finding

def definitions : Finding → List Definition
  | broken .. => []
  | plugin ds => ds

def names (f : Finding) : List String := f.definitions.flatMap (·.names)

/-- What is complained of at an entry point if these names are known. -/
def complaints (known : List String) (e : EntryPoint) : Finding → List PluginFailure
  | broken issue cause => [{ issue, entrypoint := some e.name, cause }]
  | plugin ds => (takenOver known (ds.flatMap (·.names))).map e.shadowing

theorem complaints_entrypoint {known : List String} {e : EntryPoint} {found : Finding} {f : PluginFailure}
    (hf : f ∈ found.complaints known e) : f.entrypoint = some e.name := by
  cases found with
  | broken issue cause => exact List.mem_singleton.mp hf ▸ rfl
  | plugin ds =>
    obtain ⟨name, -, rfl⟩ := List.mem_map.mp hf
    rfl

end Finding

/-- What is complained of at entry points, in order, if these names are known before. -/
def complaints : List String → Heap → List EntryPoint → List PluginFailure
  | _, _, [] => []
  | known, h, e :: rest =>
    (e.find h).2.complaints known e ++ complaints ((e.find h).2.names ++ known) (e.find h).1 rest

/-! ### Known names -/

section Names

variable {known known' : List String}

theorem takenOver_congr (h : ∀ n, n ∈ known ↔ n ∈ known') (names : List String) :
    takenOver known names = takenOver known' names := by
  induction names generalizing known known' with
  | nil => rfl
  | cons name rest ih =>
    have hrest : ∀ n, n ∈ name :: known ↔ n ∈ name :: known' := fun n => by
      rw [List.mem_cons, List.mem_cons, h]
    simp only [takenOver, h, ih hrest]

theorem takenOver_append (known names names' : List String) :
    takenOver known (names ++ names') = takenOver known names ++ takenOver (names ++ known) names' := by
  induction names generalizing known with
  | nil => rfl
  | cons name rest ih =>
    have hknown : ∀ n, n ∈ rest ++ name :: known ↔ n ∈ name :: rest ++ known := fun n => by
      simp only [List.cons_append, List.mem_append, List.mem_cons]
      exact or_left_comm
    rw [List.cons_append, takenOver, ih, takenOver_congr hknown, takenOver, List.append_assoc]

theorem Finding.complaints_congr (h : ∀ n, n ∈ known ↔ n ∈ known') (e : EntryPoint) (found : Finding) :
    found.complaints known e = found.complaints known' e := by
  cases found with
  | broken issue cause => rfl
  | plugin ds => rw [complaints, takenOver_congr h, complaints]

theorem complaints_congr (h : ∀ n, n ∈ known ↔ n ∈ known') (heap : Heap) (es : List EntryPoint) :
    complaints known heap es = complaints known' heap es := by
  induction es generalizing known known' heap with
  | nil => rfl
  | cons e rest ih =>
    have hrest : ∀ n, n ∈ (e.find heap).2.names ++ known ↔ n ∈ (e.find heap).2.names ++ known' :=
      fun n => by rw [List.mem_append, List.mem_append, h]
    rw [complaints, Finding.complaints_congr h, ih hrest, complaints]

/-- The first complaint is about the first entry point at which there is one. -/
theorem complaints_first {h : Heap} {es : List EntryPoint} {f : PluginFailure} {later : List PluginFailure}
    (hf : complaints known h es = f :: later) : ∃ before e after more, es = before ++ e :: after ∧
      complaints known h before = [] ∧ complaints known h (before ++ [e]) = f :: more ∧
      f.entrypoint = some e.name := by
  induction es generalizing known h with
  | nil => cases hf
  | cons e rest ih =>
    rw [complaints] at hf
    cases hfound : (e.find h).2.complaints known e with
    | cons f' more =>
      rw [hfound] at hf
      obtain ⟨rfl, -⟩ := List.cons_eq_cons.mp hf
      refine ⟨[], e, rest, more, rfl, rfl, ?_, Finding.complaints_entrypoint (hfound ▸ List.mem_cons_self)⟩
      rw [List.nil_append, complaints, hfound]
      exact List.append_nil _
    | nil =>
      rw [hfound, List.nil_append] at hf
      obtain ⟨before, e', after, more, rfl, hquiet, hloud, hname⟩ := ih hf
      refine ⟨e :: before, e', after, more, rfl, ?_, ?_, hname⟩
      · rw [complaints, hfound, hquiet]
        rfl
      · rw [List.cons_append, complaints, hfound, hloud]
        rfl

end Names

namespace Registry

variable {r : Registry} {n : String}

theorem mem_names_put (name : String) (d : Definition) :
    n ∈ (r.put name d).names ↔ n = name ∨ n ∈ r.names := by
  rw [mem_names_iff, mem_names_iff, get?_put]
  split <;> simp_all

theorem mem_names_addAll (ds : List Definition) :
    n ∈ (r.addAll ds).names ↔ n ∈ ds.flatMap (·.names) ++ r.names := by
  have hlatest : (latest ds n).isSome = true ↔ n ∈ ds.flatMap (·.names) := by
    rw [← not_iff_not, Option.not_isSome_iff_eq_none, latest_eq_none]
    simp
  rw [mem_names_iff, get?_addAll, Option.isSome_or, Bool.or_eq_true, hlatest, ← mem_names_iff,
    List.mem_append]

end Registry

/-! ### Complaints in either mode -/

namespace Load

/-- What a computation does in either mode: it leaves this store and this registry, with these
complaints. Strictly it stops at the first. -/
structure Complains (a : Load Unit) (l : Loader) (cs : List PluginFailure) (h : Heap) (r : Registry) :
    Prop where
  loosely : ∀ warnings, a { l with strict := false, warnings } = (.ok (), { l with
    heap := h, registry := r, strict := false
    warnings := (cs.map (·.issue.message)).reverse ++ warnings })
  quietly : cs = [] → ∀ warnings, a { l with strict := true, warnings } =
    (.ok (), { l with heap := h, registry := r, strict := true, warnings })
  strictly : ∀ f later, cs = f :: later → ∀ warnings,
    (a { l with strict := true, warnings }).1 = .error (.plugin f)

variable {l : Loader} {a b : Load Unit} {cs cs' : List PluginFailure} {h h' : Heap} {r r' : Registry}

namespace Complains

theorem nothing : Complains (pure ()) l [] l.heap l.registry := ⟨fun _ => rfl, fun _ _ => rfl, nofun⟩

theorem andThen (ha : Complains a l cs h r) (hb : Complains b { l with heap := h, registry := r } cs' h' r') :
    Complains (do a; b) l (cs ++ cs') h' r' where
  loosely warnings := by
    rw [bind_ok (ha.loosely warnings), List.map_append, List.reverse_append, List.append_assoc]
    exact hb.loosely _
  quietly hnone warnings := by
    obtain ⟨hcs, hcs'⟩ := List.append_eq_nil_iff.mp hnone
    rw [bind_ok (ha.quietly hcs warnings)]
    exact hb.quietly hcs' warnings
  strictly f later hfirst warnings := by
    cases cs with
    | nil =>
      rw [bind_ok (ha.quietly rfl warnings)]
      exact hb.strictly f later hfirst warnings
    | cons f' more =>
      obtain ⟨rfl, -⟩ := List.cons_eq_cons.mp hfirst
      rw [bind_error (Prod.ext (ha.strictly f' more rfl warnings) rfl)]

/-- It is enough to do the same. -/
theorem of_eq (ha : Complains a l cs h r)
    (he : ∀ strict warnings, b { l with strict, warnings } = a { l with strict, warnings }) :
    Complains b l cs h r where
  loosely warnings := (he false warnings).trans (ha.loosely warnings)
  quietly hnone warnings := (he true warnings).trans (ha.quietly hnone warnings)
  strictly f later hfirst warnings := he true warnings ▸ ha.strictly f later hfirst warnings

end Complains

theorem complain_complains (issue : PluginIssue) (entrypoint : Option String) (cause : Option ErrorKind) :
    Complains (complain issue entrypoint cause) l [{ issue, entrypoint, cause }] l.heap l.registry where
  loosely warnings := complain_apply (l := { l with strict := false, warnings }) rfl issue entrypoint cause
  quietly := nofun
  strictly f later hfirst warnings := by
    obtain ⟨rfl, -⟩ := List.cons_eq_cons.mp hfirst
    rfl

/-- Every name that is known by then is complained of. -/
theorem addNames_complains (e : EntryPoint) (d : Definition) (names : List String) :
    Complains (addNames (some e) d names) l ((takenOver l.registry.names names).map e.shadowing) l.heap
      (names.foldl (·.put · d) l.registry) := by
  induction names generalizing l with
  | nil => exact .nothing
  | cons name rest ih =>
    have hput : Complains (modify fun l => { l with registry := l.registry.put name d }) l [] l.heap
        (l.registry.put name d) := ⟨fun _ => rfl, fun _ _ => rfl, nofun⟩
    have hrest := hput.andThen (ih (l := { l with registry := l.registry.put name d }))
    have hknown : ∀ n, n ∈ (l.registry.put name d).names ↔ n ∈ name :: l.registry.names := fun n => by
      rw [Registry.mem_names_put, List.mem_cons]
    rw [List.nil_append, takenOver_congr hknown] at hrest
    rw [takenOver, List.map_append]
    cases hold : l.registry.get? name with
    | none =>
      have hnew : name ∉ l.registry.names := by simp [Registry.mem_names_iff, hold]
      rw [if_neg hnew]
      refine hrest.of_eq fun strict warnings => ?_
      rw [addNames, bind_ok (get_apply _)]
      simp only [hold]
    | some old =>
      have hmem : name ∈ l.registry.names := by simp [Registry.mem_names_iff, hold]
      rw [if_pos hmem]
      refine ((complain_complains (.shadowing name e.place) (some e.name) none).andThen hrest).of_eq
        fun strict warnings => ?_
      rw [addNames, bind_ok (get_apply _)]
      simp only [hold]

theorem addAll_complains (e : EntryPoint) (ds : List Definition) :
    Complains (addAll (some e) ds) l
      ((takenOver l.registry.names (ds.flatMap (·.names))).map e.shadowing) l.heap (l.registry.addAll ds) := by
  induction ds generalizing l with
  | nil => exact .nothing
  | cons d rest ih =>
    have hadd := (addNames_complains (l := l) e d d.names).andThen
      (ih (l := { l with registry := l.registry.add d }))
    have hknown : ∀ n, n ∈ (l.registry.add d).names ↔ n ∈ d.names ++ l.registry.names := fun n => by
      have h := Registry.mem_names_addAll (r := l.registry) (n := n) [d]
      rwa [List.flatMap_singleton] at h
    rw [takenOver_congr hknown, ← List.map_append, ← takenOver_append, ← List.flatMap_cons] at hadd
    exact hadd

/-- What is at an entry point is loaded, and nothing else happens. -/
theorem content_found (c : Entry.Content) (l : Loader) :
    content c l = (.ok (c.found l.heap).2, { l with heap := (c.found l.heap).1 }) := by
  cases c <;> rfl

theorem found_uninterrupted {e : EntryPoint} (he : e.Uninterrupted) {f : Failure}
    (hf : (e.content.found h).2 = .error f) : f.isInterruption = false := by
  cases hc : e.content with
  | failing kind =>
    rw [hc] at hf
    cases hf
    exact he kind hc
  | value v =>
    rw [hc] at hf
    cases hf
  | plugin fields =>
    rw [hc] at hf
    obtain ⟨issues, rfl⟩ := Schema.Model.make_invalid hf
    rfl

/-- An entry point is loaded by what is found there. -/
theorem loadPlugin_find {e : EntryPoint} (he : e.Uninterrupted) (l : Loader) :
    loadPlugin e l =
      (match (e.find l.heap).2 with
        | .broken issue cause => complain issue (some e.name) cause
        | .plugin ds => addAll (some e) ds) { l with heap := (e.find l.heap).1 } := by
  rw [loadPlugin, bind_ok (content_found e.content _), EntryPoint.find]
  rcases hfound : e.content.found l.heap with ⟨h, f | v⟩
  · have hf : f.isInterruption = false := found_uninterrupted he (congrArg Prod.snd hfound)
    simp only [hf, Bool.false_eq_true, if_false, EntryPoint.refusal]
    split <;> rfl
  · dsimp only
    rw [bind_ok (get_apply _)]
    dsimp only
    cases Load.definitions? h v <;> rfl

theorem loadPlugin_complains {e : EntryPoint} (he : e.Uninterrupted) :
    Complains (loadPlugin e) l ((e.find l.heap).2.complaints l.registry.names e) (e.find l.heap).1
      (l.registry.addAll (e.find l.heap).2.definitions) := by
  have hload : ∀ strict warnings, loadPlugin e { l with strict, warnings } =
      (match (e.find l.heap).2 with
        | .broken issue cause => complain issue (some e.name) cause
        | .plugin ds => addAll (some e) ds) { l with heap := (e.find l.heap).1, strict, warnings } :=
    fun strict warnings => loadPlugin_find he { l with strict, warnings }
  have hstart : Complains (modify ({ · with heap := (e.find l.heap).1 })) l [] (e.find l.heap).1
      l.registry := ⟨fun _ => rfl, fun _ _ => rfl, nofun⟩
  cases hfound : (e.find l.heap).2 with
  | broken issue cause =>
    refine (hstart.andThen (complain_complains issue (some e.name) cause)).of_eq fun strict warnings => ?_
    rw [hload, hfound]
    rfl
  | plugin ds =>
    refine (hstart.andThen (addAll_complains e ds)).of_eq fun strict warnings => ?_
    rw [hload, hfound]
    rfl

theorem brought_cons {e : EntryPoint} (he : e.Uninterrupted) (h : Heap) (rest : List EntryPoint) :
    Registration.brought h (e :: rest) =
      (e.find h).2.definitions ++ Registration.brought (e.find h).1 rest := by
  rw [Registration.brought, EntryPoint.find]
  cases hc : e.content with
  | failing kind => exact if_neg (Bool.eq_false_iff.mp (he kind hc))
  | value v =>
    simp only [Entry.Content.found]
    cases Load.definitions? h v <;> rfl
  | plugin fields =>
    simp only [Entry.Content.found]
    rcases Schema.plugin.make h fields with ⟨h', f | v⟩
    · rfl
    · simp only [Except.toOption, Option.bind_some]
      cases Load.definitions? h' v <;> rfl

/-- All entry points, one after the other. -/
theorem loadEach_complains {es : List EntryPoint} (hes : ∀ e ∈ es, e.Uninterrupted) : ∃ h,
    Complains (loadEach es) l (complaints l.registry.names l.heap es) h
      (l.registry.addAll (Registration.brought l.heap es)) := by
  induction es generalizing l with
  | nil => exact ⟨l.heap, .nothing⟩
  | cons e rest ih =>
    obtain ⟨he, hrest⟩ := List.forall_mem_cons.mp hes
    have hplugin := loadPlugin_complains (l := l) he
    obtain ⟨h, hloads⟩ := ih (l := { l with
      heap := (e.find l.heap).1, registry := l.registry.addAll (e.find l.heap).2.definitions }) hrest
    have hknown : ∀ n, n ∈ (l.registry.addAll (e.find l.heap).2.definitions).names ↔
        n ∈ (e.find l.heap).2.names ++ l.registry.names := fun n => Registry.mem_names_addAll _
    have hall := hplugin.andThen hloads
    rw [complaints_congr hknown, ← Registry.addAll_append, ← brought_cons he] at hall
    exact ⟨h, hall⟩

theorem loadEach_append (es es' : List EntryPoint) :
    loadEach (es ++ es') = (do loadEach es; loadEach es') := by
  induction es with
  | nil => rfl
  | cons e rest ih =>
    rw [List.cons_append, loadEach, ih, loadEach, bind_assoc]

/-- Nothing is loaded after an error. -/
theorem loadEach_stops {es : List EntryPoint} {f : Failure} (hf : (loadEach es l).1 = .error f)
    (later : List EntryPoint) : loadEach (es ++ later) l = loadEach es l := by
  rw [loadEach_append, bind_error (Prod.ext hf rfl)]
  exact Prod.ext hf.symm rfl

end Load

/-! ### Loading in either mode -/

/-- Loading the same entry points loosely and strictly, from the same loader. Loosely it never fails:
every definition that plugins bring is registered in order, and the warnings are the complaints, the
latest first; an entry point that is broken leaves one of these and nothing else. Strictly it fails
exactly if there is a warning, with the first of them as a plugin error, and nothing is loaded after
its entry point. If there is none, both do the same. -/
theorem strict_load_agrees (l : Loader) (es : List EntryPoint) (hes : ∀ e ∈ es, e.Uninterrupted) :
    let plugins := es.filter (·.group = pluginGroup)
    let found := complaints l.registry.names l.heap plugins
    let loose := Load.loadPlugins es { l with strict := false }
    let strict := Load.loadPlugins es { l with strict := true }
    (loose.1 = .ok () ∧
      loose.2.registry = l.registry.addAll (Registration.brought l.heap plugins) ∧
      loose.2.warnings = (found.map (·.issue.message)).reverse ++ l.warnings) ∧
    (∀ e ∈ plugins, ∀ m : Loader, m.strict = false → ∀ issue cause,
      (e.find m.heap).2 = .broken issue cause → Load.loadPlugin e m =
        (.ok (), { m with heap := (e.find m.heap).1, warnings := issue.message :: m.warnings })) ∧
    ((∃ f, strict.1 = .error f) ↔ loose.2.warnings ≠ l.warnings) ∧
    (∀ f later, found = f :: later → strict.1 = .error (.plugin f) ∧
      ∃ before e after, plugins = before ++ e :: after ∧ f.entrypoint = some e.name ∧
        complaints l.registry.names l.heap before = [] ∧
        strict = Load.loadEach (before ++ [e]) { l with strict := true }) ∧
    (loose.2.warnings = l.warnings → strict = (.ok (), { loose.2 with strict := true })) := by
  intro plugins found loose strict
  have hplugins : ∀ e ∈ plugins, e.Uninterrupted := fun e he => hes e (List.mem_of_mem_filter he)
  obtain ⟨h, hloads⟩ := Load.loadEach_complains (l := l) hplugins
  have hloose : loose = _ := hloads.loosely l.warnings
  have hwarnings : loose.2.warnings = (found.map (·.issue.message)).reverse ++ l.warnings := by rw [hloose]
  have hsilent : loose.2.warnings = l.warnings ↔ found = [] := by simp [hwarnings]
  have hquiet : found = [] → strict = (.ok (), { loose.2 with strict := true }) := fun hnone => by
    have hstrict : strict = _ := hloads.quietly hnone l.warnings
    rw [hstrict, hloose]
    simp [found, hnone]
  have hfirst : ∀ f later, found = f :: later → strict.1 = .error (.plugin f) :=
    fun f later hf => hloads.strictly f later hf l.warnings
  refine ⟨⟨by rw [hloose], by rw [hloose], hwarnings⟩, ?_, ?_, ?_, fun hnone => hquiet (hsilent.mp hnone)⟩
  · intro e he m hm issue cause hbroken
    have hload := (Load.loadPlugin_complains (l := m) (hplugins e he)).loosely m.warnings
    rw [← hm, hbroken] at hload
    exact hload
  · rw [Ne, hsilent]
    refine ⟨fun ⟨f, hf⟩ hnone => ?_, fun hsome => ?_⟩
    · rw [hquiet hnone] at hf
      cases hf
    · obtain ⟨f, later, hf⟩ := List.exists_cons_of_ne_nil hsome
      exact ⟨_, hfirst f later hf⟩
  · intro f later hf
    refine ⟨hfirst f later hf, ?_⟩
    obtain ⟨before, e, after, more, hsplit, hbefore, hupto, hname⟩ := complaints_first hf
    refine ⟨before, e, after, hsplit, hname, hbefore, ?_⟩
    have hsome : ∀ e' ∈ before ++ [e], e'.Uninterrupted := fun e' he' => hplugins e' (by
      rw [hsplit, List.append_cons]
      exact List.mem_append_left after he')
    obtain ⟨_, hloaded⟩ := Load.loadEach_complains (l := l) hsome
    have hstops := Load.loadEach_stops (hloaded.strictly f more hupto l.warnings) after
    rw [List.append_assoc, List.singleton_append, ← hsplit] at hstops
    exact hstops

/-- A definition of a verb under the name of a built-in one. -/
def Definition.late : Definition := { name := "equals", verb := .labelled "q" }

/-- There is a plugin with this definition. -/
def Loader.withLate : Loader where
  heap := { cells := #[
    .list false [],
    .element "Assertion" [("verb", .labelled "q"), ("name", .text "equals"), ("aliases", .object 0)],
    .list false [.object 1],
    .element "Plugin" [("name", .text "late"), ("assertions", .object 2)]] }

def EntryPoint.broken : EntryPoint := ⟨"broken", "broken:plugin", pluginGroup, .failing .valueError⟩

def EntryPoint.late : EntryPoint := ⟨"late", "late:plugin", pluginGroup, .value (.object 3)⟩

/-- Loosely there are two warnings and the verb is replaced, strictly the first of them is an error. -/
theorem strict_load_agrees_late :
    let loose := Load.loadPlugins [.broken, .late] Loader.withLate
    let strict := Load.loadPlugins [.broken, .late] { Loader.withLate with strict := true }
    loose.1 = .ok () ∧ loose.2.registry = Registry.initial.add .late ∧
    loose.2.warnings = ["Assertion 'equals' from 'late:plugin' is shadowing an existing",
      "Failed to load entrypoint 'broken'"] ∧
    strict.1 = .error (.plugin ⟨.notLoaded "broken", some "broken", some .valueError⟩) ∧
    strict = Load.loadEach [.broken] { Loader.withLate with strict := true } := by
  have hes : ∀ e ∈ [EntryPoint.broken, .late], e.Uninterrupted := by
    refine List.forall_mem_cons.mpr ⟨fun kind hkind => ?_, List.forall_mem_singleton.mpr nofun⟩
    cases hkind
    rfl
  have hfound : complaints Registry.initial.names Loader.withLate.heap [.broken, .late] =
      [⟨.notLoaded "broken", some "broken", some .valueError⟩,
        ⟨.shadowing "equals" "late:plugin", some "late", none⟩] := by decide
  obtain ⟨⟨hok, hregistry, hwarnings⟩, -, -, hstrict, -⟩ := strict_load_agrees Loader.withLate _ hes
  obtain ⟨herror, before, e, after, hsplit, -, hquiet, hstops⟩ := hstrict _ _ hfound
  refine ⟨hok, hregistry, hwarnings.trans ?_, herror, ?_⟩
  · exact congrArg (fun fs => (fs.map (·.issue.message)).reverse ++ []) hfound
  · cases before with
    | nil =>
      obtain ⟨rfl, -⟩ := List.cons_eq_cons.mp hsplit
      exact hstops
    | cons e' rest =>
      obtain ⟨rfl, -⟩ := List.cons_eq_cons.mp hsplit
      cases hquiet

end Exemplar
