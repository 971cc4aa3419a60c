import Exemplar.Proofs.Loading

/-! What is reported as shadowed.

Loading is a course of `Loading.Event`s: an entry point is refused, or a definition is added. The
warnings of a definition are told by the registry just before it was added (`Loading.told`): every name
that was known by then is reported, whatever it stood for, and a name that the definition lists more than
once is reported for the later times too (`count_takenOver`). So no name that is taken from another
definition goes unreported, but names are reported that are taken from nothing (`shadowing_told`). -/
namespace Exemplar

open Act

/-! ### Names that are taken over -/

/-- A name is reported as often as it is listed, but for the first time if it is new. -/
theorem count_takenOver (known names : List String) (n : String) :
    (takenOver known names).count n = names.count n - if n ∈ known then 0 else 1 := by
  induction names generalizing known with
  | nil => simp [takenOver]
  | cons m rest ih =>
    rw [takenOver, List.count_append, ih, List.count_cons]
    by_cases hm : m = n
    · subst hm
      by_cases hknown : m ∈ known <;> simp [hknown]
      omega
    · have hfirst : (if m ∈ known then [m] else []).count n = 0 := by
        split <;> simp [hm]
      have hn : n ∈ m :: known ↔ n ∈ known := by simp [Ne.symm hm]
      simp [hfirst, hn, hm]

theorem mem_takenOver {known names : List String} {n : String} :
    n ∈ takenOver known names ↔ n ∈ names ∧ (n ∈ known ∨ 1 < names.count n) := by
  rw [← List.count_pos_iff, count_takenOver, ← List.count_pos_iff (l := names)]
  by_cases hknown : n ∈ known
  · simp [hknown]
  · simp only [hknown, if_false, false_or]
    omega

/-- Nothing but names of other definitions is reported if and only if the definition was not registered
under any of its names, and lists no new name twice. -/
theorem Registry.takenOver_others {r : Registry} {d : Definition} :
    (∀ name ∈ takenOver r.names d.names, ∃ old, r.get? name = some old ∧ old ≠ d) ↔
      ∀ name ∈ d.names, r.get? name ≠ some d ∧ (r.get? name = none → d.names.count name = 1) := by
  constructor
  · intro hall name hname
    have hpos : 0 < d.names.count name := List.count_pos_iff.mpr hname
    cases hget : r.get? name with
    | none =>
      refine ⟨nofun, fun _ => ?_⟩
      by_contra hcount
      obtain ⟨old, hold, -⟩ := hall name (mem_takenOver.mpr ⟨hname, .inr (by omega)⟩)
      rw [hget] at hold
      cases hold
    | some old =>
      have hknown : name ∈ r.names := by simp [mem_names_iff, hget]
      obtain ⟨old', hold, hne⟩ := hall name (mem_takenOver.mpr ⟨hname, .inl hknown⟩)
      rw [hget] at hold
      obtain rfl := Option.some.inj hold
      exact ⟨fun hsame => hne (Option.some.inj hsame), nofun⟩
  · intro hall name hreported
    obtain ⟨hname, htaken⟩ := mem_takenOver.mp hreported
    obtain ⟨hother, hnew⟩ := hall name hname
    cases hget : r.get? name with
    | none =>
      rw [mem_names_iff, hget] at htaken
      have hcount := hnew hget
      rcases htaken with hknown | htwice
      · cases hknown
      · omega
    | some old => exact ⟨old, rfl, fun hsame => hother (hsame ▸ hget)⟩

/-! ### The course of loading -/

namespace Loading

/-- What is done while plugins are loaded. -/
inductive Event
  | refused (issue : PluginIssue)
  | added (e : EntryPoint) (d : Definition)

/-- The definitions that are added, in order. -/
def definitions (events : List Event) : List Definition :=
  events.filterMap fun
    | .refused _ => none
    | .added _ d => some d

/-- The warning that a name is shadowing an existing one. -/
def shadowed (e : EntryPoint) (name : String) : String := (e.shadowing name).issue.message

/-- The warnings of a course that starts from this registry, in order. -/
def told : Registry → List Event → List String
  | _, [] => []
  | r, .refused issue :: rest => issue.message :: told r rest
  | r, .added e d :: rest => (takenOver r.names d.names).map (shadowed e) ++ told (r.add d) rest

/-- What is done with what was found at an entry point. -/
def eventsOf (e : EntryPoint) : Finding → List Event
  | .broken issue _ => [.refused issue]
  | .plugin ds => ds.map (.added e)

/-- What is done with entry points, up to one that interrupts. -/
def events : Heap → List EntryPoint → List Event
  | _, [] => []
  | h, e :: rest =>
    match e.content with
    | .failing kind =>
      if kind.isInterruption then [] else eventsOf e (e.find h).2 ++ events (e.find h).1 rest
    | _ => eventsOf e (e.find h).2 ++ events (e.find h).1 rest

theorem definitions_append (events events' : List Event) :
    definitions (events ++ events') = definitions events ++ definitions events' := List.filterMap_append

theorem told_append (r : Registry) (events events' : List Event) :
    told r (events ++ events') = told r events ++ told (r.addAll (definitions events)) events' := by
  induction events generalizing r with
  | nil => rfl
  | cons event rest ih =>
    cases event with
    | refused issue => exact congrArg (issue.message :: ·) (ih r)
    | added e d => rw [List.cons_append, told, ih, told, List.append_assoc]; rfl

theorem definitions_eventsOf (e : EntryPoint) (found : Finding) :
    definitions (eventsOf e found) = found.definitions := by
  cases found with
  | broken issue cause => rfl
  | plugin ds => simp [eventsOf, definitions, Finding.definitions, List.filterMap_map]

/-- The warnings of one entry point are what it is complained of. -/
theorem told_eventsOf (r : Registry) (e : EntryPoint) (found : Finding) :
    told r (eventsOf e found) = (found.complaints r.names e).map (·.issue.message) := by
  cases found with
  | broken issue cause => rfl
  | plugin ds =>
    induction ds generalizing r with
    | nil => rfl
    | cons d rest ih =>
      have hknown : ∀ n, n ∈ (r.add d).names ↔ n ∈ d.names ++ r.names := fun n => by
        have h := Registry.mem_names_addAll (r := r) (n := n) [d]
        rwa [List.flatMap_singleton] at h
      rw [Finding.complaints, List.flatMap_cons, takenOver_append, List.map_append, List.map_append,
        ← takenOver_congr hknown]
      rw [List.map_map]
      exact congrArg _ (ih (r.add d))

/-- An entry point that does not interrupt is dealt with before the others. -/
theorem events_cons {e : EntryPoint} (he : e.Uninterrupted) (h : Heap) (rest : List EntryPoint) :
    events h (e :: rest) = eventsOf e (e.find h).2 ++ events (e.find h).1 rest := by
  rw [events]
  cases hc : e.content with
  | failing kind => exact if_neg (Bool.eq_false_iff.mp (he kind hc))
  | value v => rfl
  | plugin fields => rfl

end Loading

namespace Load

open Loading

variable {l : Loader}

/-- Loosely, loading does what the course says. -/
theorem loadEach_events (hl : l.strict = false) (es : List EntryPoint) :
    (loadEach es l).2.registry = l.registry.addAll (definitions (events l.heap es)) ∧
      (loadEach es l).2.warnings = (told l.registry (events l.heap es)).reverse ++ l.warnings := by
  induction es generalizing l with
  | nil => exact ⟨rfl, rfl⟩
  | cons e rest ih =>
    by_cases he : e.Uninterrupted
    · have hload := (loadPlugin_complains (l := l) he).loosely l.warnings
      rw [← told_eventsOf, ← definitions_eventsOf e, ← hl] at hload
      rw [loadEach, bind_ok hload, events_cons he]
      obtain ⟨hregistry, hwarnings⟩ := ih (l := { l with
        heap := (e.find l.heap).1
        registry := l.registry.addAll (definitions (eventsOf e (e.find l.heap).2))
        warnings := (told l.registry (eventsOf e (e.find l.heap).2)).reverse ++ l.warnings }) hl
      refine ⟨hregistry.trans ?_, hwarnings.trans ?_⟩
      · rw [definitions_append, Registry.addAll_append]
      · rw [told_append, List.reverse_append, List.append_assoc]
    · -- the first interruption ends the course
      obtain ⟨kind, hkind⟩ := not_forall.mp he
      obtain ⟨hcontent, hinterruption⟩ := Classical.not_imp.mp hkind
      have hinterruption : kind.isInterruption = true := by simpa using hinterruption
      have hfound : content e.content l = (.ok (.error (.raised kind [.text "broken"])), l) := by
        rw [hcontent]
        rfl
      have hload := loadPlugin_interrupted (f := .raised kind [.text "broken"]) hinterruption hfound
      rw [loadEach, bind_error hload, events, hcontent]
      dsimp only
      rw [if_pos hinterruption]
      exact ⟨rfl, rfl⟩

end Load

/-! ### Reports of shadowing -/

/-- What is reported while plugins are loaded loosely, from any registry. The warnings are those of the
course, and those of a definition stand where it was added. A name is reported as often as the definition
lists it, but for the first time if the name was unknown just before; so it is reported if it stood for
another definition by then. That nothing else is reported is true exactly of a definition that was not
registered under any of its names by then and lists no new name twice. -/
theorem shadowing_told (l : Loader) (es : List EntryPoint) :
    let events := Loading.events l.heap (es.filter (·.group = pluginGroup))
    let after := (Load.loadPlugins es { l with strict := false }).2
    after.registry = l.registry.addAll (Loading.definitions events) ∧
    after.warnings = (Loading.told l.registry events).reverse ++ l.warnings ∧
    ∀ earlier e d later, events = earlier ++ .added e d :: later →
      let before := l.registry.addAll (Loading.definitions earlier)
      ∃ reported : List String,
        Loading.told l.registry events = Loading.told l.registry earlier ++
          reported.map (Loading.shadowed e) ++ Loading.told (before.add d) later ∧
        (∀ m : Loader, m.strict = false → m.registry = before → Load.add (some e) d m = (.ok (), { m with
          registry := before.add d
          warnings := (reported.map (Loading.shadowed e)).reverse ++ m.warnings })) ∧
        (∀ name, reported.count name = d.names.count name - if (before.get? name).isSome then 0 else 1) ∧
        (∀ name ∈ d.names, ∀ old, before.get? name = some old → old ≠ d → name ∈ reported) ∧
        ((∀ name ∈ reported, ∃ old, before.get? name = some old ∧ old ≠ d) ↔ ∀ name ∈ d.names,
          before.get? name ≠ some d ∧ (before.get? name = none → d.names.count name = 1)) := by
  intro events after
  obtain ⟨hregistry, hwarnings⟩ :=
    Load.loadEach_events (l := { l with strict := false }) rfl (es.filter (·.group = pluginGroup))
  refine ⟨hregistry, hwarnings, fun earlier e d later hevents => ?_⟩
  intro before
  refine ⟨takenOver before.names d.names, ?_, fun m hm hbefore => ?_, fun name => ?_,
    fun name hname old hold _ => ?_, Registry.takenOver_others⟩
  · rw [hevents, Loading.told_append, Loading.told, List.append_assoc]
  · have hadd := (Load.addNames_complains (l := m) e d d.names).loosely m.warnings
    rw [← hm, List.map_map] at hadd
    rw [← hbefore]
    exact hadd
  · rw [count_takenOver]
    simp only [Registry.mem_names_iff]
  · have hknown : name ∈ before.names := by simp [Registry.mem_names_iff, hold]
    exact mem_takenOver.mpr ⟨hname, .inl hknown⟩

/-- A plugin that takes a built-in name over is reported once, for that name. -/
theorem shadowing_told_late :
    Loading.events Loader.withLate.heap [.late] = [.added .late .late] ∧
      (Load.loadPlugins [.late] .withLate).2.warnings = [Loading.shadowed .late "equals"] := by
  have hevents : Loading.events Loader.withLate.heap [.late] = [.added .late .late] := rfl
  obtain ⟨-, hwarnings, hadded⟩ := shadowing_told .withLate [.late]
  obtain ⟨reported, htold, -, hcount, -, -⟩ := hadded [] .late .late [] hevents
  have hknown : (Registry.initial.get? "equals").isSome = true := by decide
  have hreported : reported.Perm ["equals"] := by
    refine List.perm_iff_count.mpr fun name => (hcount name).trans ?_
    by_cases hname : name = "equals"
    · subst hname
      exact congrArg (_ - ·) (if_pos hknown)
    · have hzero : Definition.late.names.count name = 0 :=
        List.count_eq_zero.mpr (by simpa [Definition.names, Definition.late] using hname)
      rw [hzero, Nat.zero_sub, List.count_eq_zero.mpr (by simpa using hname)]
  rw [List.perm_singleton.mp hreported] at htold
  exact ⟨hevents, hwarnings.trans (congrArg (·.reverse ++ []) htold)⟩

/-- There is a plugin with a definition that has its own name among its aliases. -/
def Loader.withDoubled : Loader where
  heap := { cells := #[
    .list false [.text "fresh"],
    .element "Assertion" [("verb", .labelled "f"), ("name", .text "fresh"), ("aliases", .object 0)],
    .list false [.object 1],
    .element "Plugin" [("name", .text "late"), ("assertions", .object 2)]] }

/-- A name is reported that was new, since the definition lists it twice; and one that is registered a
second time for the same definition. -/
theorem shadowing_overtold :
    Loader.withDoubled.registry.get? "fresh" = none ∧
      (Load.loadPlugins [.late] .withDoubled).2.warnings = [Loading.shadowed .late "fresh"] ∧
    (Load.loadPlugins [.late] .withLate).2.registry.get? "equals" = some .late ∧
      (Load.loadPlugins [.late, .late] .withLate).2.warnings =
        [Loading.shadowed .late "equals", Loading.shadowed .late "equals"] := by
  have hloads : ∀ (l : Loader) (es : List EntryPoint), l.strict = false → (∀ e ∈ es, e.group = pluginGroup) →
      (Load.loadPlugins es l).2.registry = l.registry.addAll (Loading.definitions (Loading.events l.heap es)) ∧
      (Load.loadPlugins es l).2.warnings =
        (Loading.told l.registry (Loading.events l.heap es)).reverse ++ l.warnings := fun l es hl hes => by
    rw [Load.loadPlugins, List.filter_eq_self.mpr (by simpa using hes)]
    exact Load.loadEach_events hl es
  obtain ⟨-, hdoubled⟩ := hloads .withDoubled [.late] rfl (by decide)
  obtain ⟨honce, -⟩ := hloads .withLate [.late] rfl (by decide)
  obtain ⟨-, htwice⟩ := hloads .withLate [.late, .late] rfl (by decide)
  refine ⟨by decide, hdoubled.trans ?_, ?_, htwice.trans ?_⟩
  · rfl
  · rw [honce]
    rfl
  · rfl

end Exemplar
