import Exemplar.Proofs.Layers
import Exemplar.Scope.Variables

/-! Names over a module, and in a module.

A builder function finds the verbs in a layer over its module, or in the module itself if they were
merged into it. Every name stands for the same either way (`Merging.Agree`), also after names were set and
erased, as long as the builder function and the functions that it defines neither set nor erase a global
name, the bodies of its classes read no verb and no name of the module directly, and the other functions of
the module do nothing with the verbs. -/
namespace Exemplar

namespace Scope

/-! ### What functions do with global names -/

/-- Whether a name is that of a variable, of the function or of one around it. -/
def Declared.keeps (name : String) : List Declared → Bool
  | [] => false
  | d :: outer => !d.global.contains name && (d.own.contains name || keeps name outer)

theorem placeIn_eq_global (name : String) (own : Bool) (levels : List Level) :
    placeIn name own levels = .global ↔ Declared.keeps name (levels.map (·.declared)) = false := by
  induction levels generalizing own with
  | nil => exact ⟨fun _ => rfl, fun _ => rfl⟩
  | cons l outer ih =>
    unfold placeIn
    rw [List.map_cons, Declared.keeps]
    split
    · simp_all
    · split
      · simp_all
      · simp_all

theorem placeIn_ne_entry (name : String) (own : Bool) (levels : List Level) :
    placeIn name own levels ≠ .entry := by
  induction levels generalizing own with
  | nil => exact nofun
  | cons l outer ih =>
    unfold placeIn
    split
    · exact nofun
    · split
      · exact nofun
      · exact ih false

/-- What a class declares, and which names it has by now. -/
structure ClassScope where
  declared : Declared
  settled : List String := []

/-- The names of the class after a line of its body. -/
def ClassScope.after {α : Type} (k : ClassScope) : Line α → ClassScope
  | .set _ name _ =>
    if k.declared.own.contains name then
      { k with settled := if name ∈ k.settled then k.settled else k.settled ++ [name] }
    else k
  | .erase _ name =>
    if k.declared.own.contains name then { k with settled := k.settled.filter (· ≠ name) } else k
  | _ => k

namespace ClassBody

variable (c : ClassBody)

theorem place_eq_global {levels : List Level} {name : String} :
    c.place levels name = .global ↔ c.declared.global.contains name = true := by
  unfold place
  split
  · exact iff_of_true rfl ‹_›
  · refine iff_of_false (fun h => ?_) ‹_›
    split at h
    · cases h
    · split at h
      · cases h
      · exact absurd h ‹_›

def scope : ClassScope := ⟨c.declared, c.own.names⟩

theorem scope_after (line : Line Value) : (c.after line).scope = c.scope.after line := by
  have hscope : c.scope.declared = c.declared := rfl
  cases line with
  | set reach name a =>
    rw [after, ClassScope.after, hscope]
    by_cases hown : c.declared.own.contains name = true
    · rw [if_pos hown, if_pos hown]
      exact congrArg (ClassScope.mk c.declared) (c.own.names_set name (.value a))
    · rw [if_neg hown, if_neg hown]
  | erase reach name =>
    rw [after, ClassScope.after, hscope]
    by_cases hown : c.declared.own.contains name = true
    · rw [if_pos hown, if_pos hown]
      exact congrArg (ClassScope.mk c.declared) (c.own.names_erase name)
    · rw [if_neg hown, if_neg hown]
  | _ => rfl

end ClassBody

/-- What functions may do with names that are no variables. -/
structure Access where
  read : String → Prop
  /-- Names that may be read in the bodies of classes. -/
  direct : String → Prop
  /-- Names that may be set or erased. -/
  assign : String → Prop
  /-- Names of the module that are set there. -/
  rebind : String → Prop

namespace Access

variable (access : Access) (around : List Declared) (name : String)

/-- Whether a line may read the name. The lines of a class may read what the class has. -/
def MayRead : Option ClassScope → Prop
  | none => Declared.keeps name around = true ∨ access.read name
  | some k =>
    if k.declared.global.contains name then access.read name
    else if k.declared.own.contains name then name ∈ k.settled ∨ access.direct name
    else Declared.keeps name around = true ∨ access.direct name

/-- Whether a line may set or erase the name. -/
def MayAssign : Option ClassScope → Prop
  | none => Declared.keeps name around = true ∨ access.assign name
  | some k => k.declared.global.contains name = true → access.assign name

end Access

mutual

/-- The line does with names no more than that. -/
def Line.Within {α : Type} (access : Access) (around : List Declared) (cls : Option ClassScope) : Line α → Prop
  | .load name | .call name | .parameter name => access.MayRead around name cls
  | .set _ name _ | .erase _ name => access.MayAssign around name cls
  | .rebind name _ => access.rebind name
  | .inner body | .later body => Line.AllWithin access (.ofBody [] body :: around) none body
  | .classBody body => Line.AllWithin access around (some { declared := .ofBody [] body }) body
  | .answer _ => True

def Line.AllWithin {α : Type} (access : Access) (around : List Declared) (cls : Option ClassScope) :
    List (Line α) → Prop
  | [] => True
  | line :: rest => line.Within access around cls ∧ Line.AllWithin access around (cls.map (·.after line)) rest

end

def Function.Within {α : Type} (access : Access) (f : Function α) : Prop :=
  Line.AllWithin access (.ofBody (f.parameters.map (·.name)) f.body ::
    (f.closure.map fun b => { global := [], own := b.names : Declared }).toList) none f.body

namespace Access

/-- A builder function reads all names, but those of `hidden` not in the bodies of classes, and assigns
none. -/
def builder (hidden assigned : String → Prop) : Access :=
  ⟨fun _ => True, fun n => n ∈ moduleAttributes ∨ ¬hidden n, fun _ => False, assigned⟩

/-- Another function of the module reads no verbs, and assigns the names `assigned` only. -/
def helper (verbs : List String) (assigned : String → Prop) : Access :=
  ⟨(· ∉ verbs), (· ∉ verbs), assigned, assigned⟩

end Access

/-! ### The same names -/

/-- The verbs that are merged into a module or layered over it, and the names of it that are assigned. -/
structure Merging where
  verbs : Bindings Meaning
  module : Bindings Meaning
  assigned : String → Prop
  attributes : ∀ n ∈ moduleAttributes, n ∉ verbs.names
  others : ∀ n, assigned n → n ∉ verbs.names ∧ n ∉ moduleAttributes

namespace Merging

variable (c : Merging)

/-- The verbs and the names of the module, whether it has them from the beginning or gets them. -/
def Hidden (n : String) : Prop := n ∈ c.verbs.names ∨ n ∈ c.module.names ∨ c.assigned n

def access : Bool → Access
  | true => .builder c.Hidden c.assigned
  | false => .helper c.verbs.names c.assigned

/-- Only functions that see the module itself assign names of it. -/
theorem of_assign {layered : Bool} {name : String} (h : (c.access layered).assign name) :
    layered = false ∧ c.assigned name := by
  cases layered with
  | true => exact h.elim
  | false => exact ⟨rfl, h⟩

theorem of_rebind {layered : Bool} {name : String} (h : (c.access layered).rebind name) :
    c.assigned name := by
  cases layered <;> exact h

/-- Names over a module here, and in a module with the verbs there. -/
structure Agree (s s' : Names) : Prop where
  frames : s.frames = s'.frames
  verbs : s.layers.verbs = c.verbs
  own : s.layers.Untouched
  merged : ∀ n, s'.layers.find? false n = (c.verbs.lookup n).or (s.layers.module.lookup n)
  kept : ∀ n, ¬c.assigned n → s.layers.module.lookup n = c.module.lookup n

end Merging

namespace View

variable (v : View)

/-- The view from where the verbs are in the module. -/
def plain : View := { v with layered := false }

/-- The functions whose variables are seen. -/
def around : List Declared := v.levels.map (·.declared)

/-- What the class has by now, if the lines are those of one. -/
def classScope : Option ClassScope := v.cls.map (·.scope)

theorem plain_place (name : String) : v.plain.place name = v.place name := rfl

theorem classScope_after (line : Line Value) : (v.after line).classScope = v.classScope.map (·.after line) := by
  unfold classScope after
  cases v.cls with
  | none => rfl
  | some c => exact congrArg some (c.scope_after line)

variable {v} {access : Access} {name : String}

/-- A name that no function around keeps is looked up. -/
theorem of_keeps {own : Bool} {P : Prop} (hplace : placeIn name own v.levels = .global)
    (h : Declared.keeps name v.around = true ∨ P) : P := by
  rcases h with hkeeps | h
  · rw [around, (placeIn_eq_global _ _ _).mp hplace] at hkeeps
    cases hkeeps
  · exact h

/-- What is known of a name that a line may read, by its place: it may be looked up, or it is that of a
variable or of what the class has. -/
theorem of_mayRead (h : access.MayRead v.around name v.classScope) :
    (v.place name = .global → access.read name) ∧
      (v.place name = .entry → (v.entry? name).isSome = true ∨ access.direct name) := by
  unfold classScope at h
  unfold place entry?
  cases hcls : v.cls with
  | none =>
    rw [hcls] at h
    exact ⟨fun hplace => of_keeps hplace h, fun hplace => absurd hplace (placeIn_ne_entry _ _ _)⟩
  | some c =>
    rw [hcls] at h
    change if c.declared.global.contains name then _ else if c.declared.own.contains name then _ else _ at h
    show (c.place v.levels name = .global → _) ∧ (c.place v.levels name = .entry → _)
    unfold ClassBody.place
    split at h
    · rw [if_pos ‹_›]
      exact ⟨fun _ => h, nofun⟩
    · rw [if_neg ‹_›]
      split at h
      · rw [if_pos ‹_›]
        refine ⟨nofun, fun _ => h.imp_left fun hsettled => Option.isSome_iff_ne_none.mpr fun hnone => ?_⟩
        exact (Bindings.lookup_eq_none c.own name).mp hnone hsettled
      · rw [if_neg ‹_›]
        cases hplace : placeIn name false v.levels with
        | global => exact ⟨nofun, fun _ => .inr (of_keeps hplace h)⟩
        | slot frame own => exact ⟨nofun, nofun⟩
        | entry => exact absurd hplace (placeIn_ne_entry _ _ _)

theorem of_mayAssign (h : access.MayAssign v.around name v.classScope) (hplace : v.place name = .global) :
    access.assign name := by
  unfold classScope at h
  unfold place at hplace
  cases hcls : v.cls with
  | none =>
    rw [hcls] at h hplace
    exact of_keeps hplace h
  | some c =>
    rw [hcls] at h hplace
    exact h (c.place_eq_global.mp hplace)

end View

namespace Merging

/-- The layers, and the module with the verbs merged into it. -/
theorem agree_start (c : Merging) (hv : c.verbs.names.Nodup) :
    c.Agree { layers := .ofModule c.module c.verbs }
      { layers := .merge { module := c.module, verbs := c.verbs } } where
  frames := rfl
  verbs := rfl
  own := Layers.untouched_ofModule c.module c.verbs
  merged := Layers.find?_merge hv
  kept _ _ := rfl

end Merging

namespace Merging.Agree

variable {c : Merging} {s s' : Names} (h : c.Agree s s') {v : View} {name : String}
include h

/-- The merged module is the layered one but for the verbs. -/
theorem lookup_merged (n : String) : s'.layers.module.lookup n =
    if n ∈ c.verbs.names then c.verbs.lookup n else s.layers.module.lookup n := by
  rw [show s'.layers.module.lookup n = _ from h.merged n]
  cases hn : c.verbs.lookup n with
  | none => rw [if_neg ((Bindings.lookup_eq_none c.verbs n).mp hn), Option.none_or]
  | some v =>
    have hmem : n ∈ c.verbs.names := Decidable.not_not.mp fun hnot => by
      rw [(Bindings.lookup_eq_none c.verbs n).mpr hnot] at hn
      cases hn
    rw [if_pos hmem, Option.some_or]

/-- What is no verb stands in both modules for the same. -/
theorem lookup_of_not_verb (hn : name ∉ c.verbs.names) :
    s.layers.module.lookup name = s'.layers.module.lookup name := by rw [h.lookup_merged, if_neg hn]

theorem getGlobal {layered : Bool} (hr : (c.access layered).read name) :
    s.getGlobal? layered name = s'.getGlobal? false name := by
  unfold Names.getGlobal?
  cases layered with
  | true =>
    have hv : ∀ n ∈ moduleAttributes, n ∉ s.layers.verbs.names := by
      rw [h.verbs]
      exact c.attributes
    rw [h.own.find?_eq hv, h.merged, h.verbs]
  | false => rw [show s.layers.find? false name = _ from h.lookup_of_not_verb hr]; rfl

theorem getDirect {layered : Bool} (hr : (c.access layered).direct name) :
    s.getDirect? layered name = s'.getDirect? false name := by
  unfold Names.getDirect?
  cases layered with
  | true =>
    have hown : s.layers.own.lookup name = s'.layers.module.lookup name := by
      rw [h.own name]
      rcases hr with hattribute | hhidden
      · rw [if_pos hattribute]
        exact h.lookup_of_not_verb (c.attributes name hattribute)
      · obtain ⟨hverb, hmodule, hassigned⟩ : name ∉ c.verbs.names ∧ name ∉ c.module.names ∧ ¬c.assigned name :=
          ⟨fun hn => hhidden (.inl hn), fun hn => hhidden (.inr (.inl hn)), fun hn => hhidden (.inr (.inr hn))⟩
        have hnone : s.layers.module.lookup name = none :=
          (h.kept name hassigned).trans ((Bindings.lookup_eq_none c.module name).mpr hmodule)
        rw [← h.lookup_of_not_verb hverb, hnone, ite_self]
    rw [show s.layers.findDirect? true name = _ from hown]
    rfl
  | false => rw [show s.layers.findDirect? false name = _ from h.lookup_of_not_verb hr]; rfl

theorem get (hr : (c.access v.layered).MayRead v.around name v.classScope) :
    s.get v name = s'.get v.plain name := by
  obtain ⟨hglobal, hentry⟩ := View.of_mayRead hr
  unfold Names.get
  rw [v.plain_place]
  cases hplace : v.place name with
  | global =>
    dsimp only
    rw [h.getGlobal (hglobal hplace)]
    rfl
  | slot frame own =>
    dsimp only
    rw [h.frames]
  | entry =>
    dsimp only
    rw [show v.plain.entry? name = v.entry? name from rfl]
    rcases hentry hplace with hsome | hdirect
    · obtain ⟨m, hm⟩ := Option.isSome_iff_exists.mp hsome
      rw [hm, Option.some_or, Option.some_or]
    · rw [h.getDirect hdirect]
      rfl

/-- A name of the module gets the same meaning on both sides, or loses its own. -/
theorem rewritten (ha : c.assigned name) (meaning : Option Meaning) {m m' : Bindings Meaning}
    (hm : ∀ n, m.lookup n = if n = name then meaning else s.layers.module.lookup n)
    (hm' : ∀ n, m'.lookup n = if n = name then meaning else s'.layers.module.lookup n) :
    c.Agree { s with layers := { s.layers with module := m } }
      { s' with layers := { s'.layers with module := m' } } := by
  obtain ⟨hverb, hattribute⟩ := c.others name ha
  have hnone := (Bindings.lookup_eq_none c.verbs name).mpr hverb
  refine { frames := h.frames, verbs := h.verbs, own := fun n => ?_, merged := fun n => ?_, kept n hn := ?_ }
  · have hown := h.own n
    grind
  · have hmerged : s'.layers.module.lookup n = _ := h.merged n
    show m'.lookup n = (c.verbs.lookup n).or (m.lookup n)
    grind
  · have hkept := h.kept n hn
    grind

/-- A name of the module is set on both sides. -/
theorem setModule (ha : c.assigned name) (i : Meaning) :
    c.Agree { s with layers := s.layers.setModule name i }
      { s' with layers := s'.layers.setModule name i } :=
  h.rewritten ha (some i) (Bindings.lookup_set _ _ _) (Bindings.lookup_set _ _ _)

theorem set (ha : (c.access v.layered).MayAssign v.around name v.classScope) (i : Meaning) :
    c.Agree (s.set v name i) (s'.set v.plain name i) := by
  unfold Names.set
  rw [v.plain_place]
  cases hplace : v.place name with
  | global =>
    obtain ⟨hlayered, ha⟩ := c.of_assign (View.of_mayAssign ha hplace)
    rw [hlayered]
    exact h.setModule ha i
  | slot frame own =>
    dsimp only
    rw [← h.frames]
    exact { h with frames := rfl }
  | entry => exact h

theorem setModules {entries : Bindings Meaning} (ha : ∀ n ∈ entries.names, c.assigned n) :
    c.Agree { s with layers := entries.foldl (fun l (n, i) => l.setModule n i) s.layers }
      { s' with layers := entries.foldl (fun l (n, i) => l.setModule n i) s'.layers } := by
  induction entries generalizing s s' with
  | nil => exact h
  | cons entry rest ih =>
    exact ih (h.setModule (ha entry.1 List.mem_cons_self) entry.2) fun n hn => ha n (.tail _ hn)

/-- A name of the module is erased on both sides, or is on neither. -/
theorem eraseModule (ha : c.assigned name) :
    s.layers.eraseModule? name = none ∧ s'.layers.eraseModule? name = none ∨
      ∃ l l', s.layers.eraseModule? name = some l ∧ s'.layers.eraseModule? name = some l' ∧
        c.Agree { s with layers := l } { s' with layers := l' } := by
  have hhas : s'.layers.module.has name = s.layers.module.has name := by
    rw [Bindings.has_eq, Bindings.has_eq, h.lookup_of_not_verb (c.others name ha).1]
  unfold Layers.eraseModule?
  rw [hhas]
  split
  · exact .inr ⟨_, _, rfl, rfl,
      h.rewritten ha none (Bindings.lookup_erase _ _) (Bindings.lookup_erase _ _)⟩
  · exact .inl ⟨rfl, rfl⟩

theorem erase (ha : (c.access v.layered).MayAssign v.around name v.classScope) :
    (∃ f, s.erase v name = .error f ∧ s'.erase v.plain name = .error f) ∨
      ∃ t t', s.erase v name = .ok t ∧ s'.erase v.plain name = .ok t' ∧ c.Agree t t' := by
  unfold Names.erase
  rw [v.plain_place]
  cases hplace : v.place name with
  | global =>
    obtain ⟨hlayered, ha⟩ := c.of_assign (View.of_mayAssign ha hplace)
    simp only [hlayered, Bool.false_eq_true, if_false, View.plain]
    rcases h.eraseModule ha with ⟨hnone, hnone'⟩ | ⟨l, l', hl, hl', hagree⟩
    · rw [hnone, hnone']
      exact .inl ⟨_, rfl, rfl⟩
    · rw [hl, hl']
      exact .inr ⟨_, _, rfl, rfl, hagree⟩
  | slot frame own =>
    dsimp only
    rw [← h.frames]
    split
    · exact .inr ⟨_, _, rfl, rfl, { h with frames := rfl }⟩
    · exact .inl ⟨_, rfl, rfl⟩
  | entry =>
    dsimp only
    rw [show v.plain.entry? name = v.entry? name from rfl]
    split
    · exact .inr ⟨_, _, rfl, rfl, h⟩
    · exact .inl ⟨_, rfl, rfl⟩

end Merging.Agree

end Scope

end Exemplar
