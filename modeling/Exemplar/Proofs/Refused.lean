import Exemplar.Proofs.Handlers
import Exemplar.Proofs.Loading

/-! What a refused plugin leaves in the registry.

Strictly, the first name that a plugin takes over is an error. The names of a plugin are registered
one by one, each as soon as it was looked at, so the names before that one stay registered, with the
definitions of the plugin that was refused (`refused_plugin_leaves`). Nothing is left if the entry
point is broken, or if the very first name is known. -/
namespace Exemplar

open Act

/-! ### Entries of a plugin -/

/-- The names with the definitions that they are for, in order. -/
def Finding.entries (f : Finding) : List (String × Definition) :=
  f.definitions.flatMap fun d => d.names.map (·, d)

theorem Finding.entries_names (f : Finding) : f.entries.map (·.1) = f.names := by
  simp [entries, names, List.map_flatMap, Function.comp_def]

/-- The entries before the first whose name is known when its turn comes. -/
def unopposed : List String → List (String × Definition) → List (String × Definition)
  | _, [] => []
  | known, (name, d) :: rest => if name ∈ known then [] else (name, d) :: unopposed (name :: known) rest

section Unopposed

variable {known known' : List String}

theorem unopposed_congr (h : ∀ n, n ∈ known ↔ n ∈ known') (entries : List (String × Definition)) :
    unopposed known entries = unopposed known' entries := by
  induction entries generalizing known known' with
  | nil => rfl
  | cons p rest ih =>
    have hrest : ∀ n, n ∈ p.1 :: known ↔ n ∈ p.1 :: known' := fun n => by
      rw [List.mem_cons, List.mem_cons, h]
    simp only [unopposed, h, ih hrest]

/-- Their names are new. -/
theorem unopposed_new {entries : List (String × Definition)} :
    ∀ p ∈ unopposed known entries, p.1 ∉ known := by
  induction entries generalizing known with
  | nil => exact fun p hp => absurd hp List.not_mem_nil
  | cons q rest ih =>
    intro p hp
    rw [unopposed] at hp
    split at hp
    · exact absurd hp List.not_mem_nil
    · rename_i hnew
      rcases List.mem_cons.mp hp with rfl | hp
      · exact hnew
      · exact fun hknown => ih p hp (List.mem_cons_of_mem _ hknown)

theorem unopposed_eq_nil {entries : List (String × Definition)} :
    unopposed known entries = [] ↔ ∀ p, entries.head? = some p → p.1 ∈ known := by
  cases entries with
  | nil => simp [unopposed]
  | cons p rest => simp [unopposed]

/-- They end where the first name is taken over. -/
theorem unopposed_split {entries : List (String × Definition)} {name : String} {more : List String}
    (h : takenOver known (entries.map (·.1)) = name :: more) : ∃ d rest,
      entries = unopposed known entries ++ (name, d) :: rest ∧
        (name ∈ known ∨ name ∈ (unopposed known entries).map (·.1)) := by
  induction entries generalizing known with
  | nil => cases h
  | cons p rest ih =>
    rw [List.map_cons, takenOver] at h
    rw [unopposed]
    by_cases hp : p.1 ∈ known
    · rw [if_pos hp] at h
      obtain ⟨rfl, -⟩ := List.cons_eq_cons.mp h
      rw [if_pos hp]
      exact ⟨p.2, rest, rfl, .inl hp⟩
    · rw [if_neg hp] at h
      obtain ⟨d, later, hsplit, hname⟩ := ih h
      rw [if_neg hp]
      refine ⟨d, later, congrArg (p :: ·) hsplit, ?_⟩
      rcases hname with hname | hname
      · rcases List.mem_cons.mp hname with rfl | hname
        · exact .inr List.mem_cons_self
        · exact .inl hname
      · exact .inr (List.mem_cons_of_mem _ hname)

/-- Each of them is found again, and every other name as before. -/
theorem Registry.get?_putEach_unopposed {r : Registry} (hknown : ∀ n, n ∈ known ↔ n ∈ r.names)
    (entries : List (String × Definition)) (name : String) :
    (r.putEach (unopposed known entries)).get? name =
      ((unopposed known entries).lookup name).or (r.get? name) := by
  induction entries generalizing r known with
  | nil => rfl
  | cons p rest ih =>
    rw [unopposed]
    by_cases hp : p.1 ∈ known
    · rw [if_pos hp]
      rfl
    · rw [if_neg hp]
      have hput : ∀ n, n ∈ p.1 :: known ↔ n ∈ (r.put p.1 p.2).names := fun n => by
        rw [mem_names_put, List.mem_cons, hknown]
      show ((r.put p.1 p.2).putEach (unopposed (p.1 :: known) rest)).get? name = _
      rw [ih hput, get?_put, List.lookup_cons]
      by_cases hname : name = p.1
      · have hlookup : (unopposed (p.1 :: known) rest).lookup name = none := by
          rw [List.lookup_eq_none_iff]
          intro q hq
          have hnew := unopposed_new q hq
          rw [List.mem_cons, not_or] at hnew
          simpa [hname] using Ne.symm hnew.1
        rw [hlookup]
        simp [hname]
      · simp [hname, beq_eq_false_iff_ne.mpr hname]

end Unopposed

/-! ### Strict runs -/

namespace Load

/-- How a strict run ends that meets these complaints. -/
def verdict : List PluginFailure → Except Failure Unit
  | [] => .ok ()
  | f :: _ => .error (.plugin f)

/-- Registers the entries in order. -/
def addEach (e : EntryPoint) : List (String × Definition) → Load Unit
  | [] => pure ()
  | p :: rest => do
    addNames (some e) p.2 [p.1]
    addEach e rest

/-- A definition is registered under one name after the other. -/
theorem addNames_cons (e : EntryPoint) (d : Definition) (name : String) (rest : List String) :
    addNames (some e) d (name :: rest) =
      (do addNames (some e) d [name]; addNames (some e) d rest) := by
  simp only [addNames, bind_assoc]
  refine bind_congr fun l => ?_
  cases l.registry.get? name <;> simp only [bind_assoc, pure_bind]

theorem addNames_addEach (e : EntryPoint) (d : Definition) (names : List String)
    (more : List (String × Definition)) :
    (do addNames (some e) d names; addEach e more) = addEach e (names.map (·, d) ++ more) := by
  induction names with
  | nil => rfl
  | cons name rest ih =>
    rw [List.map_cons, List.cons_append, addEach, ← ih, addNames_cons, bind_assoc]

theorem addAll_addEach (e : EntryPoint) (ds : List Definition) :
    addAll (some e) ds = addEach e (ds.flatMap fun d => d.names.map (·, d)) := by
  induction ds with
  | nil => rfl
  | cons d rest ih => rw [List.flatMap_cons, ← addNames_addEach, ← ih, addAll, add]

variable {l : Loader}

/-- An error of a plugin is not an interruption. -/
theorem uninterrupted_of_refused {e : EntryPoint} {f : PluginFailure}
    (hf : (loadPlugin e l).1 = .error (.plugin f)) : e.Uninterrupted := by
  intro kind hkind
  refine Bool.eq_false_iff.mpr fun hinterruption => ?_
  have hcontent : content e.content l = (.ok (.error (.raised kind [.text "broken"])), l) := by
    rw [hkind]
    rfl
  have hload := loadPlugin_interrupted (f := .raised kind [.text "broken"]) hinterruption hcontent
  rw [hload] at hf
  cases hf

variable (hl : l.strict = true)
include hl

theorem complain_strict (issue : PluginIssue) (entrypoint : Option String) (cause : Option ErrorKind) :
    complain issue entrypoint cause l = (.error (.plugin { issue, entrypoint, cause }), l) := by
  have hissue : issue? issue entrypoint cause l = (.ok (some { issue, entrypoint, cause }), l) := by
    rw [issue?, bind_ok (get_apply l), if_pos hl]
    rfl
  rw [complain, bind_ok hissue]
  rfl

/-- Entries are registered up to the first that takes a name over. -/
theorem addEach_strict (e : EntryPoint) (entries : List (String × Definition)) :
    addEach e entries l =
      (verdict ((takenOver l.registry.names (entries.map (·.1))).map e.shadowing),
        { l with registry := l.registry.putEach (unopposed l.registry.names entries) }) := by
  induction entries generalizing l with
  | nil => rfl
  | cons p rest ih =>
    rw [addEach, List.map_cons, takenOver, unopposed]
    cases hold : l.registry.get? p.1 with
    | some old =>
      have hmem : p.1 ∈ l.registry.names := by simp [Registry.mem_names_iff, hold]
      have hrefused : addNames (some e) p.2 [p.1] l = (.error (.plugin (e.shadowing p.1)), l) := by
        rw [addNames, bind_ok (get_apply l)]
        simp only [hold]
        exact bind_error (complain_strict hl _ _ _)
      rw [bind_error hrefused, if_pos hmem, if_pos hmem]
      rfl
    | none =>
      have hnew : p.1 ∉ l.registry.names := by simp [Registry.mem_names_iff, hold]
      have hadd : addNames (some e) p.2 [p.1] l =
          (.ok (), { l with registry := l.registry.put p.1 p.2 }) := by
        rw [addNames, bind_ok (get_apply l)]
        simp only [hold]
        rfl
      have hknown : ∀ n, n ∈ (l.registry.put p.1 p.2).names ↔ n ∈ p.1 :: l.registry.names := fun n => by
        rw [Registry.mem_names_put, List.mem_cons]
      rw [bind_ok hadd, ih (l := { l with registry := l.registry.put p.1 p.2 }) hl, if_neg hnew, if_neg hnew,
        takenOver_congr hknown, unopposed_congr hknown]
      rfl

/-- What is found at an entry point is registered up to the first name that is taken over. -/
theorem loadPlugin_strict {e : EntryPoint} (he : e.Uninterrupted) :
    loadPlugin e l = (verdict ((e.find l.heap).2.complaints l.registry.names e), { l with
      heap := (e.find l.heap).1
      registry := l.registry.putEach (unopposed l.registry.names (e.find l.heap).2.entries) }) := by
  rw [loadPlugin_find he]
  cases hfound : (e.find l.heap).2 with
  | broken issue cause =>
    exact complain_strict (l := { l with heap := (e.find l.heap).1 }) hl issue (some e.name) cause
  | plugin ds =>
    have hnames := Finding.entries_names (.plugin ds)
    dsimp only
    rw [addAll_addEach, addEach_strict (l := { l with heap := (e.find l.heap).1 }) hl]
    show (verdict ((takenOver l.registry.names ((Finding.plugin ds).entries.map (·.1))).map e.shadowing), _) = _
    rw [hnames]
    rfl

end Load

/-- Strictly, an entry point that is refused leaves the names of its plugin before the first that is
taken over, with the definitions of the plugin, and nothing else. Names that were known keep their
definitions. The registry is what it was exactly if there are no names before that one: the entry point
is broken, or the first name of its plugin was known. -/
theorem refused_plugin_leaves {l : Loader} (hl : l.strict = true) {e : EntryPoint} {f : PluginFailure}
    (hf : (Load.loadPlugin e l).1 = .error (.plugin f)) :
    let found := (e.find l.heap).2
    let before := unopposed l.registry.names found.entries
    let after := (Load.loadPlugin e l).2
    after = { l with heap := (e.find l.heap).1, registry := l.registry.putEach before } ∧
    ((∃ issue cause, found = .broken issue cause ∧ f = { issue, entrypoint := some e.name, cause }) ∨
      ∃ name d rest, found.entries = before ++ (name, d) :: rest ∧ f = e.shadowing name ∧
        (name ∈ l.registry.names ∨ name ∈ before.map (·.1))) ∧
    (∀ name, after.registry.get? name = (before.lookup name).or (l.registry.get? name)) ∧
    (∀ name ∈ l.registry.names, after.registry.get? name = l.registry.get? name) ∧
    (after.registry = l.registry ↔ ∀ p, found.entries.head? = some p → p.1 ∈ l.registry.names) := by
  intro found before after
  have hload := Load.loadPlugin_strict hl (Load.uninterrupted_of_refused hf)
  have hafter : after = _ := congrArg Prod.snd hload
  have hverdict : Load.verdict (found.complaints l.registry.names e) = .error (.plugin f) :=
    (congrArg Prod.fst hload).symm.trans hf
  have hget : ∀ name, after.registry.get? name = (before.lookup name).or (l.registry.get? name) := fun name => by
    rw [hafter]
    exact Registry.get?_putEach_unopposed (fun _ => Iff.rfl) found.entries name
  refine ⟨hafter, ?_, hget, fun name hname => ?_, ?_⟩
  · cases hcomplaints : found.complaints l.registry.names e with
    | nil =>
      rw [hcomplaints] at hverdict
      cases hverdict
    | cons f' more =>
      rw [hcomplaints] at hverdict
      obtain rfl : f' = f := Failure.plugin.inj (Except.error.inj hverdict)
      cases hfound : found with
      | broken issue cause =>
        rw [hfound] at hcomplaints
        exact .inl ⟨issue, cause, rfl, (List.cons_eq_cons.mp hcomplaints).1.symm⟩
      | plugin ds =>
        have hnames : ds.flatMap (·.names) = found.entries.map (·.1) := by
          rw [Finding.entries_names, hfound]
          rfl
        rw [hfound, Finding.complaints, hnames] at hcomplaints
        obtain ⟨name, later, htaken, hshadowing, -⟩ := List.map_eq_cons_iff.mp hcomplaints
        obtain ⟨d, rest, hsplit, hname⟩ := unopposed_split htaken
        exact .inr ⟨name, d, rest, hfound ▸ hsplit, hshadowing.symm, hname⟩
  · have hlookup : before.lookup name = none := by
      rw [List.lookup_eq_none_iff]
      exact fun p hp => bne_iff_ne.mpr fun heq => unopposed_new p hp (heq ▸ hname)
    rw [hget, hlookup, Option.none_or]
  · rw [← unopposed_eq_nil]
    constructor
    · intro hsame
      refine List.eq_nil_iff_forall_not_mem.mpr fun p hp => unopposed_new p hp ?_
      have hfind : (before.lookup p.1).isSome = true := by
        rw [Option.isSome_iff_ne_none, Ne, List.lookup_eq_none_iff]
        exact fun hnone => by simpa using hnone p hp
      rw [Registry.mem_names_iff, ← hsame, hget, Option.isSome_or, hfind, Bool.true_or]
    · intro hnone
      rw [hafter]
      exact congrArg l.registry.putEach hnone

/-- A definition under a new name, and under that of a built-in verb. -/
def Definition.fresh : Definition := { name := "fresh", verb := .labelled "f", aliases := ["equals"] }

/-- There is a plugin with this definition, and plugins are loaded strictly. -/
def Loader.withFresh : Loader where
  heap := { cells := #[
    .list false [.text "equals"],
    .element "Assertion" [("verb", .labelled "f"), ("name", .text "fresh"), ("aliases", .object 0)],
    .list false [.object 1],
    .element "Plugin" [("name", .text "late"), ("assertions", .object 2)]] }
  strict := true

theorem Loader.withFresh_refuses : (Load.loadPlugin .late .withFresh).1 =
    .error (.plugin (EntryPoint.late.shadowing "equals")) := by
  have hload := Load.loadPlugin_strict (l := Loader.withFresh) rfl (e := .late) nofun
  have hcomplaints : (EntryPoint.late.find Loader.withFresh.heap).2.complaints Loader.withFresh.registry.names
      .late = [EntryPoint.late.shadowing "equals"] := by decide
  exact (congrArg Prod.fst hload).trans (congrArg Load.verdict hcomplaints)

/-- The alias is refused. The name before it stays, with the verb of the plugin. -/
theorem refused_plugin_leaves_fresh :
    Loader.withFresh.strict = true ∧ (Load.loadPlugin .late .withFresh).1 =
      .error (.plugin (EntryPoint.late.shadowing "equals")) ∧
    (Load.loadPlugin .late .withFresh).2.registry.get? "fresh" = some .fresh ∧
    (Load.loadPlugin .late .withFresh).2.registry.get? "equals" = Registry.initial.get? "equals" := by
  obtain ⟨-, -, hget, hknown, -⟩ := refused_plugin_leaves rfl Loader.withFresh_refuses
  refine ⟨rfl, Loader.withFresh_refuses, (hget "fresh").trans ?_, hknown "equals" ?_⟩ <;> decide

/-- Not every plugin that is refused leaves the registry as it was. -/
theorem refused_plugin_traced : ¬ ∀ (l : Loader) (e : EntryPoint) (f : PluginFailure), l.strict = true →
    (Load.loadPlugin e l).1 = .error (.plugin f) → (Load.loadPlugin e l).2.registry = l.registry := by
  intro hall
  have hsame := hall .withFresh .late _ rfl Loader.withFresh_refuses
  have hload := Load.loadPlugin_strict (l := Loader.withFresh) rfl (e := .late) nofun
  rw [hload] at hsame
  have hnames := congrArg (fun r : Registry => r.names.contains "fresh") hsame
  revert hnames
  decide

end Exemplar
