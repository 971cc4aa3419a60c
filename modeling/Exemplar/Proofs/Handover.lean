import Exemplar.Proofs.Naming
import Exemplar.Scope.Shape
import Mathlib.Data.List.Nodup
import Mathlib.Data.List.Pairwise
import Mathlib.Tactic.MkIffOfInductiveProp

/-! How a builder is handed to a function.

A function gets the builder if it has a required positional parameter or gathers positional arguments
(`acceptsBuilder`), and then as its only argument but the object that a method belongs to. The parameter
lists here are those that a function can have (`WellFormed`), and one argument is enough for them
(`Suits`). Such a call is bound. The builder comes to the first positional parameter that the object
leaves, or is gathered if none is left (`taker?`), and every other parameter has what it has without
arguments (`WellFormed.account`).

So the builder goes where it is asked for and every default is kept (`Promised`), but not if a function
that requires nothing gathers arguments after parameters with defaults: the builder then takes the place
of a default (`Account.promised_iff`). -/
namespace Exemplar

namespace ParameterKind

/-- The order that the kinds have in a parameter list. -/
def rank : ParameterKind → Nat
  | positionalOnly => 0
  | positional => 1
  | variadic => 2
  | namedOnly => 3
  | variadicNamed => 4

/-- Whether a parameter of the kind takes any number of arguments. -/
def gathers : ParameterKind → Bool
  | variadic | variadicNamed => true
  | _ => false

end ParameterKind

namespace Parameter

variable {α : Type}

def isRequired (p : Parameter α) : Bool := p.isPositional && p.default?.isNone

/-- What a parameter has if a call gives nothing to it. -/
def untouched? (p : Parameter α) : Option (Received α) :=
  match p.kind with
  | .variadic => some (.many [])
  | .variadicNamed => some (.named [])
  | _ => p.default?.map .one

end Parameter

namespace Signature

variable {α : Type}

/-- The parameter lists that a function can have. -/
@[mk_iff]
structure WellFormed (s : Signature α) : Prop where
  /-- The kinds stand in their order, and those that gather arguments stand there once. -/
  ordered : s.Pairwise fun p q => p.kind.rank < q.kind.rank ∨ p.kind = q.kind ∧ p.kind.gathers = false
  distinct : (s.map (·.name)).Nodup
  gathering : ∀ p ∈ s, p.kind.gathers = true → p.default? = none
  /-- Required parameters come before those with a default. -/
  required : s.Pairwise fun p q => p.isPositional = true → q.isRequired = true → p.isRequired = true

/-- A call with one positional argument is enough. -/
@[mk_iff]
structure Suits (s : Signature α) : Prop where
  positional : (s.filter (·.isRequired)).length ≤ 1
  named : ∀ p ∈ s, p.kind = .namedOnly → p.default?.isSome

instance (s : Signature α) : Decidable s.WellFormed := decidable_of_iff' _ s.wellFormed_iff

instance (s : Signature α) : Decidable s.Suits := decidable_of_iff' _ s.suits_iff

/-! ### Positional arguments -/

/-- The parameters that positional arguments fill, with what they get. -/
def given (s : Signature α) (args : List α) : List (String × α) :=
  ((s.filter (·.isPositional)).map (·.name)).zip args

/-- What a parameter has after a call with positional arguments. -/
def held? (s : Signature α) (args : List α) (p : Parameter α) : Option (Received α) :=
  match p.kind with
  | .variadic => some (.many (args.drop (s.filter (·.isPositional)).length))
  | .variadicNamed => some (.named [])
  | _ => (((s.given args).lookup p.name).or p.default?).map .one

/-- Positional arguments that a call may have: not too many of them, and enough. -/
structure Fills (s : Signature α) (args : List α) : Prop where
  fits : args.length ≤ (s.filter (·.isPositional)).length ∨ ∃ p ∈ s, p.kind = .variadic
  enough : ∀ p ∈ s, p.isRequired = true → ∃ a, (s.given args).lookup p.name = some a
  named : ∀ p ∈ s, p.kind = .namedOnly → p.default?.isSome

variable {s : Signature α} {args : List α}

namespace Fills

/-- A parameter for one value has one. -/
theorem exists_one (h : s.Fills args) {p : Parameter α} (hp : p ∈ s)
    (hkind : p.isPositional = true ∨ p.kind = .namedOnly) :
    ∃ a, ((s.given args).lookup p.name).or p.default? = some a := by
  cases hdefault : p.default? with
  | some d => cases (s.given args).lookup p.name <;> exact ⟨_, rfl⟩
  | none =>
    rcases hkind with hpositional | hnamed
    · obtain ⟨a, ha⟩ := h.enough p hp (by simp [Parameter.isRequired, hpositional, hdefault])
      exact ⟨a, by rw [ha]; rfl⟩
    · exact absurd (h.named p hp hnamed) (by simp [hdefault])

theorem lacks_none (h : s.Fills args) {p : Parameter α} (hp : p ∈ s)
    (hkind : p.isPositional = true ∨ p.kind = .namedOnly) :
    (p.default?.isNone && !(s.given args).any (·.1 = p.name)) = false := by
  obtain ⟨a, ha⟩ := h.exists_one hp hkind
  cases hdefault : p.default? with
  | some d => rfl
  | none =>
    have hhas : (s.given args).any (·.1 = p.name) = ((s.given args).lookup p.name).isSome := Bindings.has_eq ..
    rw [hdefault, Option.or_none] at ha
    rw [hhas, ha]
    rfl

/-- The call is bound. -/
theorem bind (h : s.Fills args) :
    s.bind args [] = .ok (s.filterMap fun p => (s.held? args p).map (p.name, ·)) := by
  have htooMany : (!(args.drop (s.filter (·.isPositional)).length).isEmpty &&
      !s.any (·.kind = .variadic)) = false := by
    rcases h.fits with hfits | ⟨p, hp, hkind⟩
    · simp [List.drop_eq_nil_iff.mpr hfits]
    · have hany : s.any (·.kind = .variadic) = true := List.any_eq_true.mpr ⟨p, hp, by simpa using hkind⟩
      simp [hany]
  have hpositional : (s.filter (·.isPositional)).filter
      (fun p => p.default?.isNone && !(s.given args).any (·.1 = p.name)) = [] := by
    refine List.filter_eq_nil_iff.mpr fun p hp => ?_
    obtain ⟨hmem, hkind⟩ := List.mem_filter.mp hp
    exact Bool.eq_false_iff.mp (h.lacks_none hmem (.inl hkind))
  have hnamed : (s.filter (·.kind = .namedOnly)).filter
      (fun p => p.default?.isNone && !(s.given args).any (·.1 = p.name)) = [] := by
    refine List.filter_eq_nil_iff.mpr fun p hp => ?_
    obtain ⟨hmem, hkind⟩ := List.mem_filter.mp hp
    exact Bool.eq_false_iff.mp (h.lacks_none hmem (.inr (by simpa using hkind)))
  have hheld : (fun p => (s.held? args p).map (p.name, ·)) = fun p : Parameter α =>
      match p.kind with
      | .variadic => some (p.name, .many (args.drop (s.filter (·.isPositional)).length))
      | .variadicNamed => some (p.name, .named [])
      | _ => (((s.given args).lookup p.name).or p.default?).map fun a => (p.name, .one a) := by
    funext p
    unfold held?
    cases p.kind <;> simp [Function.comp_def]
  rw [hheld]
  unfold given at hpositional hnamed ⊢
  simp only [Signature.bind, bindNamed, Bind.bind, Except.bind, htooMany, hpositional, hnamed, List.isEmpty_nil,
    Bool.not_true, Bool.false_eq_true, if_false]
  rfl

theorem exists_held (h : s.Fills args) {p : Parameter α} (hp : p ∈ s) : ∃ r, s.held? args p = some r := by
  unfold held?
  split
  · exact ⟨_, rfl⟩
  · exact ⟨_, rfl⟩
  · obtain ⟨a, ha⟩ := h.exists_one hp (by cases hkind : p.kind <;> simp_all [Parameter.isPositional])
    exact ⟨.one a, by rw [ha]; rfl⟩

end Fills

/-- What parameters with different names have is found under their names. -/
theorem lookup_filterMap {β : Type} (hdistinct : (s.map (·.name)).Nodup) (f : Parameter α → Option β)
    {p : Parameter α} (hp : p ∈ s) : (s.filterMap fun q => (f q).map (q.name, ·)).lookup p.name = f p := by
  induction s with
  | nil => exact absurd hp List.not_mem_nil
  | cons q rest ih =>
    rw [List.map_cons, List.nodup_cons] at hdistinct
    obtain ⟨hq, hrest⟩ := hdistinct
    rcases List.mem_cons.mp hp with rfl | hp
    · cases hf : f p with
      | some r => simp [hf]
      | none =>
        -- no parameter after it has its name
        rw [List.filterMap_cons_none (by simp [hf]), List.lookup_eq_none_iff]
        intro entry hentry
        obtain ⟨r, hr, hsome⟩ := List.mem_filterMap.mp hentry
        obtain ⟨_, -, rfl⟩ := Option.map_eq_some_iff.mp hsome
        exact bne_iff_ne.mpr fun heq => hq (List.mem_map.mpr ⟨r, hr, heq.symm⟩)
    · have hne : p.name ≠ q.name := fun heq => hq (List.mem_map.mpr ⟨p, hp, heq⟩)
      rw [← ih hrest hp]
      cases hf : f q with
      | none => rw [List.filterMap_cons_none (by simp [hf])]
      | some r => rw [List.filterMap_cons_some (by simp [hf]; rfl), List.lookup_cons, beq_false_of_ne hne]

theorem names_filterMap {β : Type} {f : Parameter α → Option β} (hf : ∀ p ∈ s, ∃ r, f p = some r) :
    (s.filterMap fun p => (f p).map (p.name, ·)).map (·.1) = s.map (·.name) := by
  induction s with
  | nil => rfl
  | cons p rest ih =>
    obtain ⟨⟨r, hr⟩, hrest⟩ := List.forall_mem_cons.mp hf
    simp [hr, ih hrest]

/-! ### The builder as an argument -/

/-- The arguments of a call by a builder. -/
def handed (s : Signature α) (b : α) : List α := if s.acceptsBuilder then [b] else []

/-- The parameter that takes the builder: an argument fills the first positional parameter, and there has
to be none for it to be gathered. -/
def taker? (s : Signature α) : Option (Parameter α) :=
  if s.acceptsBuilder then (s.find? (·.isPositional)).or (s.find? (·.kind = .variadic)) else none

theorem acceptsBuilder_iff :
    s.acceptsBuilder = true ↔ ∃ p ∈ s, p.kind = .variadic ∨ p.isRequired = true := by
  simp [acceptsBuilder, Parameter.isRequired]

variable {p q : Parameter α}

theorem isPositional_of_required (hp : p.isRequired = true) : p.isPositional = true :=
  (Bool.and_eq_true_iff.mp hp).1

theorem default_of_required (hp : p.isRequired = true) : p.default? = none :=
  Option.isNone_iff_eq_none.mp (Bool.and_eq_true_iff.mp hp).2

theorem not_positional_of_variadic (hp : p.kind = .variadic) : p.isPositional = false := by
  simp [Parameter.isPositional, hp]

namespace WellFormed

variable (hw : s.WellFormed)
include hw

theorem eq_of_name (hp : p ∈ s) (hq : q ∈ s) (hname : p.name = q.name) : p = q :=
  List.inj_on_of_nodup_map hw.distinct hp hq hname

/-- Only one parameter gathers positional arguments. -/
theorem eq_of_variadic (hp : p ∈ s) (hq : q ∈ s) (hpk : p.kind = .variadic) (hqk : q.kind = .variadic) :
    p = q := by
  have hapart : s.Pairwise fun p q => ¬(p.kind = .variadic ∧ q.kind = .variadic) := by
    refine hw.ordered.imp ?_
    rintro a b hab ⟨ha, hb⟩
    simp [ha, hb, ParameterKind.gathers] at hab
  have hsymm : Std.Symm fun p q : Parameter α => ¬(p.kind = .variadic ∧ q.kind = .variadic) :=
    ⟨fun _ _ hab hba => hab hba.symm⟩
  by_contra hne
  exact hapart.forall hp hq hne ⟨hpk, hqk⟩

/-- Positional parameters come before the one that gathers positional arguments. -/
theorem none_positional {rest : Signature α} (hs : s = p :: rest) (hpk : p.kind = .variadic) :
    s.filter (·.isPositional) = [] := by
  have hafter := hw.ordered
  rw [hs, List.pairwise_cons] at hafter
  rw [hs, List.filter_cons_of_neg (by simp [not_positional_of_variadic hpk])]
  refine List.filter_eq_nil_iff.mpr fun q hq hpositional => ?_
  have hpq := hafter.1 q hq
  cases hqk : q.kind <;> simp_all [ParameterKind.rank, ParameterKind.gathers, Parameter.isPositional]

/-- A required parameter comes first, if it is the only one. -/
theorem find?_required (hs : s.Suits) (hp : p ∈ s) (hrequired : p.isRequired = true) :
    s.find? (·.isPositional) = some p := by
  obtain ⟨before, after, rfl⟩ := List.append_of_mem hp
  have hpositional := isPositional_of_required hrequired
  refine List.find?_eq_some_iff_append.mpr ⟨hpositional, before, after, rfl, fun q hq => ?_⟩
  have hone := hs.positional
  rw [List.filter_append, List.filter_cons_of_pos hrequired, List.length_append, List.length_cons] at hone
  have hnone : before.filter (·.isRequired) = [] := List.eq_nil_of_length_eq_zero (by omega)
  have hnot := List.filter_eq_nil_iff.mp hnone q hq
  have horder := (List.pairwise_append.mp hw.required).2.2 q hq p List.mem_cons_self
  simpa using fun hpositional => hnot (horder hpositional hrequired)

/-- A suitable call fills the parameters. -/
theorem fills_handed (hs : s.Suits) (b : α) : s.Fills (s.handed b) where
  fits := by
    by_cases haccepts : s.acceptsBuilder = true
    · obtain ⟨p, hp, hvariadic | hrequired⟩ := acceptsBuilder_iff.mp haccepts
      · exact .inr ⟨p, hp, hvariadic⟩
      · have hmem : p ∈ s.filter (·.isPositional) :=
          List.mem_filter.mpr ⟨hp, isPositional_of_required hrequired⟩
        rw [handed, if_pos haccepts]
        exact .inl (List.length_pos_of_mem hmem)
    · simp [handed, haccepts]
  enough p hp hrequired := by
    have haccepts : s.acceptsBuilder = true := acceptsBuilder_iff.mpr ⟨p, hp, .inr hrequired⟩
    have hfirst := hw.find?_required hs hp hrequired
    rw [← List.head?_filter] at hfirst
    obtain ⟨rest, hrest⟩ := List.head?_eq_some_iff.mp hfirst
    refine ⟨b, ?_⟩
    simp [handed, haccepts, given, hrest]
  named := hs.named

/-! ### What the builder leaves -/

/-- The required parameter takes the builder. -/
theorem taker?_of_required (hs : s.Suits) (hp : p ∈ s) (hrequired : p.isRequired = true) :
    s.taker? = some p := by
  rw [taker?, if_pos (acceptsBuilder_iff.mpr ⟨p, hp, .inr hrequired⟩), hw.find?_required hs hp hrequired]
  rfl

/-- Where nothing is positional, the builder is gathered. -/
theorem taker?_of_variadic (hnone : s.filter (·.isPositional) = []) (hp : p ∈ s) (hpk : p.kind = .variadic) :
    s.taker? = some p := by
  have hfind : s.find? (·.kind = .variadic) = some p := by
    obtain ⟨q, hq⟩ : ∃ q, s.find? (·.kind = .variadic) = some q :=
      Option.isSome_iff_exists.mp (List.find?_isSome.mpr ⟨p, hp, by simpa using hpk⟩)
    have hqk : q.kind = .variadic := by simpa using List.find?_some hq
    rw [hq, hw.eq_of_variadic (List.mem_of_find?_eq_some hq) hp hqk hpk]
  rw [taker?, if_pos (acceptsBuilder_iff.mpr ⟨p, hp, .inl hpk⟩), ← List.head?_filter, hnone, hfind]
  rfl

end WellFormed

/-- The parameter that takes the builder is the first positional one, or the one that gathers positional
arguments. -/
theorem taker?_cases (hq : s.taker? = some q) : s.acceptsBuilder = true ∧ q ∈ s ∧
    ((∃ rest, s.filter (·.isPositional) = q :: rest) ∨
      s.filter (·.isPositional) = [] ∧ q.kind = .variadic) := by
  unfold taker? at hq
  split at hq
  · rename_i haccepts
    refine ⟨haccepts, ?_⟩
    rw [← List.head?_filter] at hq
    cases hpositional : s.filter (·.isPositional) with
    | nil =>
      rw [hpositional] at hq
      exact ⟨List.mem_of_find?_eq_some hq, .inr ⟨rfl, by simpa using List.find?_some hq⟩⟩
    | cons p rest =>
      rw [hpositional] at hq
      obtain rfl := Option.some.inj hq
      exact ⟨(List.mem_filter.mp (hpositional ▸ List.mem_cons_self)).1, .inl ⟨rest, rfl⟩⟩
  · cases hq

theorem held?_taker (hq : s.taker? = some q) (b : α) :
    s.held? (s.handed b) q = some (if q.isPositional then .one b else .many [b]) := by
  obtain ⟨haccepts, -, ⟨rest, hrest⟩ | ⟨hnone, hkind⟩⟩ := taker?_cases hq
  · have hpositional : q.isPositional = true := (List.mem_filter.mp (hrest ▸ List.mem_cons_self)).2
    have hgiven : (s.given [b]).lookup q.name = some b := by simp [given, hrest]
    rw [if_pos hpositional, handed, if_pos haccepts, held?, hgiven]
    cases hkind : q.kind <;> simp_all [Parameter.isPositional]
  · rw [if_neg (by simp [not_positional_of_variadic hkind]), handed, if_pos haccepts, held?, hkind, hnone]
    rfl

/-- A parameter to which no argument comes has what it has anyway. -/
theorem held?_eq_untouched (hgiven : (s.given args).lookup p.name = none)
    (hfits : p.kind = .variadic → args.length ≤ (s.filter (·.isPositional)).length) :
    s.held? args p = p.untouched? := by
  unfold held? Parameter.untouched?
  rw [hgiven]
  cases hkind : p.kind with
  | variadic => simp [List.drop_eq_nil_iff.mpr (hfits hkind)]
  | _ => simp

/-- Where nothing is positional, all arguments are gathered. -/
theorem held?_of_none (hnone : s.filter (·.isPositional) = []) (args : List α) (p : Parameter α) :
    s.held? args p = if p.kind = .variadic then some (.many args) else p.untouched? := by
  have hgiven : s.given args = [] := by simp [given, hnone]
  by_cases hkind : p.kind = .variadic
  · simp [held?, hkind, hnone]
  · rw [if_neg hkind, held?_eq_untouched (by rw [hgiven]; rfl) fun hc => absurd hc hkind]

theorem held?_other (hw : s.WellFormed) (hp : p ∈ s) (hother : s.taker? ≠ some p) (b : α) :
    s.held? (s.handed b) p = p.untouched? := by
  cases haccepts : s.acceptsBuilder with
  | false => exact held?_eq_untouched (by simp [handed, haccepts, given]) (by simp [handed, haccepts])
  | true =>
    rw [handed, if_pos haccepts]
    cases hpositional : s.filter (·.isPositional) with
    | nil =>
      have hkind : p.kind ≠ .variadic := fun hkind => hother (hw.taker?_of_variadic hpositional hp hkind)
      rw [held?_of_none hpositional, if_neg hkind]
    | cons q rest =>
      have htaker : s.taker? = some q := by
        rw [taker?, if_pos haccepts, ← List.head?_filter, hpositional]
        rfl
      have hq : q ∈ s := (List.mem_filter.mp (hpositional ▸ List.mem_cons_self)).1
      have hname : p.name ≠ q.name := fun hname => hother (hw.eq_of_name hp hq hname ▸ htaker)
      refine held?_eq_untouched ?_ fun _ => by simp [hpositional]
      rw [given, hpositional]
      simpa using hname

/-! ### Methods -/

theorem given_cons (hpositional : p.isPositional = true) (a : α) :
    given (p :: s) (a :: args) = (p.name, a) :: s.given args := by
  rw [given, List.filter_cons_of_pos hpositional]
  rfl

/-- The first positional parameter takes the first argument, and the others are as without both. -/
theorem held?_cons (hpositional : p.isPositional = true) (hname : q.name ≠ p.name) (a : α) :
    held? (p :: s) (a :: args) q = s.held? args q := by
  unfold held?
  rw [given_cons hpositional, List.lookup_cons, beq_false_of_ne hname, List.filter_cons_of_pos hpositional]
  rfl

theorem WellFormed.tail (hw : WellFormed (p :: s)) : s.WellFormed where
  ordered := (List.pairwise_cons.mp hw.ordered).2
  distinct := (List.nodup_cons.mp hw.distinct).2
  gathering := fun q hq => hw.gathering q (List.mem_cons_of_mem _ hq)
  required := (List.pairwise_cons.mp hw.required).2

theorem WellFormed.name_ne (hw : WellFormed (p :: s)) (hq : q ∈ s) : q.name ≠ p.name := fun hname =>
  (List.nodup_cons.mp hw.distinct).1 (List.mem_map.mpr ⟨q, hq, hname⟩)

theorem Fills.cons (h : s.Fills args) (hw : WellFormed (p :: s)) (hpositional : p.isPositional = true) (a : α) :
    Fills (p :: s) (a :: args) where
  fits := by
    rw [List.filter_cons_of_pos hpositional]
    exact h.fits.imp Nat.succ_le_succ fun ⟨q, hq, hkind⟩ => ⟨q, List.mem_cons_of_mem _ hq, hkind⟩
  enough q hq hrequired := by
    rw [given_cons hpositional]
    rcases List.mem_cons.mp hq with rfl | hq
    · exact ⟨a, List.lookup_cons_self⟩
    · rw [List.lookup_cons, beq_false_of_ne (hw.name_ne hq)]
      exact h.enough q hq hrequired
  named q hq hkind := by
    rcases List.mem_cons.mp hq with rfl | hq
    · simp [Parameter.isPositional, hkind] at hpositional
    · exact h.named q hq hkind

/-- The arguments that come before those of a caller, and the parameters that are left to it: a function is
called as it is, and a method with the object that it belongs to. -/
inductive Behind (s : Signature α) : List α → Signature α → Prop
  | function : Behind s [] s
  | method {a : α} {seen : Signature α} : s.ofMethod? = some seen → Behind s [a] seen

/-- What is gathered before the arguments of a caller: the object, if no parameter takes it. -/
def gathered (s : Signature α) (object : List α) : List α := if s.any (·.isPositional) then [] else object

/-- What the parameters that are left to a caller have after a call by a builder. -/
structure HandsOver (s seen : Signature α) (object : List α) (b : α) : Prop where
  fills : s.Fills (object ++ seen.handed b)
  wellFormed : seen.WellFormed
  mem : ∀ q ∈ seen, q ∈ s
  taker : ∀ q, seen.taker? = some q →
    s.held? (object ++ seen.handed b) q =
      some (if q.isPositional then .one b else .many (s.gathered object ++ [b]))
  others : ∀ q ∈ seen, seen.taker? ≠ some q → s.held? (object ++ seen.handed b) q = q.untouched?

theorem WellFormed.handsOver_function (hw : s.WellFormed) (hs : s.Suits) (b : α) : s.HandsOver s [] b where
  fills := hw.fills_handed hs b
  wellFormed := hw
  mem _ := id
  taker q hq := by
    have hgathered : s.gathered [] = [] := ite_self []
    rw [hgathered]
    exact held?_taker hq b
  others q hq hother := held?_other hw hq hother b

/-- The object is taken by the first parameter. -/
theorem WellFormed.handsOver_positional (hw : WellFormed (p :: s)) (hpositional : p.isPositional = true)
    (hs : s.Suits) (a b : α) : HandsOver (p :: s) s [a] b where
  fills := (hw.tail.fills_handed hs b).cons hw hpositional a
  wellFormed := hw.tail
  mem _ := List.mem_cons_of_mem p
  taker q hq := by
    have hgathered : gathered (p :: s) [a] = [] := if_pos (by simp [hpositional])
    rw [hgathered, List.singleton_append, held?_cons hpositional (hw.name_ne (taker?_cases hq).2.1)]
    exact held?_taker hq b
  others q hq hother := by
    rw [List.singleton_append, held?_cons hpositional (hw.name_ne hq)]
    exact held?_other hw.tail hq hother b

/-- The object is gathered with the builder. -/
theorem WellFormed.handsOver_variadic (hw : s.WellFormed) {rest : Signature α} (hrest : s = p :: rest)
    (hkind : p.kind = .variadic) (hs : s.Suits) (a b : α) : s.HandsOver s [a] b where
  fills :=
    have hnone := hw.none_positional hrest hkind
    { fits := .inr ⟨p, hrest ▸ List.mem_cons_self, hkind⟩
      enough := fun q hq hrequired =>
        absurd (isPositional_of_required hrequired) (List.filter_eq_nil_iff.mp hnone q hq)
      named := hs.named }
  wellFormed := hw
  mem _ := id
  taker q hq := by
    have hnone := hw.none_positional hrest hkind
    obtain ⟨haccepts, -, ⟨more, hmore⟩ | ⟨-, hqk⟩⟩ := taker?_cases hq
    · rw [hnone] at hmore
      cases hmore
    · have hgathered : s.gathered [a] = [a] := if_neg fun hany => by
        obtain ⟨q, hq, hpositional⟩ := List.any_eq_true.mp hany
        exact List.filter_eq_nil_iff.mp hnone q hq hpositional
      rw [held?_of_none hnone, if_pos hqk, if_neg (by simp [not_positional_of_variadic hqk]), hgathered, handed,
        if_pos haccepts]
  others q hq hother := by
    have hnone := hw.none_positional hrest hkind
    rw [held?_of_none hnone, if_neg fun hqk => hother (hw.taker?_of_variadic hnone hq hqk)]

/-- The object that a method belongs to is taken by the first parameter, or gathered by it. -/
theorem ofMethod?_cases {seen : Signature α} (h : s.ofMethod? = some seen) :
    ∃ p rest, s = p :: rest ∧ (p.isPositional = true ∧ seen = rest ∨ p.kind = .variadic ∧ seen = s) := by
  cases s with
  | nil => cases h
  | cons p rest =>
    refine ⟨p, rest, rfl, ?_⟩
    cases hkind : p.kind <;> simp only [ofMethod?, hkind] at h
    case positionalOnly => exact .inl ⟨by simp [Parameter.isPositional, hkind], (Option.some.inj h).symm⟩
    case positional => exact .inl ⟨by simp [Parameter.isPositional, hkind], (Option.some.inj h).symm⟩
    case variadic => exact .inr ⟨rfl, (Option.some.inj h).symm⟩
    case namedOnly | variadicNamed => cases h

theorem WellFormed.handsOver (hw : s.WellFormed) {seen : Signature α} {object : List α}
    (hseen : s.Behind object seen) (hs : seen.Suits) (b : α) : s.HandsOver seen object b := by
  cases hseen with
  | function => exact hw.handsOver_function hs b
  | method hmethod =>
    obtain ⟨p, rest, rfl, ⟨hpositional, rfl⟩ | ⟨hkind, rfl⟩⟩ := ofMethod?_cases hmethod
    · exact hw.handsOver_positional hpositional hs _ b
    · exact hw.handsOver_variadic rfl hkind hs _ b

/-! ### The promise -/

/-- What came to the parameters that are left to a caller, where `before` was gathered before the builder. -/
structure Account (s : Signature α) (before : List α) (b : α) (received : List (String × Received α)) : Prop where
  taker : ∀ q, s.taker? = some q →
    received.lookup q.name = some (if q.isPositional then .one b else .many (before ++ [b]))
  others : ∀ q ∈ s, s.taker? ≠ some q → received.lookup q.name = q.untouched?

/-- The builder goes to the required parameter, or else it is gathered, and every default is kept. -/
structure Promised (s : Signature α) (before : List α) (b : α) (received : List (String × Received α)) :
    Prop where
  required : ∀ q ∈ s, q.isRequired = true → received.lookup q.name = some (.one b)
  gathered : (∀ q ∈ s, q.isRequired = false) → ∀ q ∈ s, q.kind = .variadic →
    received.lookup q.name = some (.many (before ++ [b]))
  kept : ∀ q ∈ s, ∀ d, q.default? = some d → received.lookup q.name = some (.one d)

/-- The builder is passed to be gathered, and takes the place of a default. -/
@[mk_iff]
structure Displaces (s : Signature α) : Prop where
  gathers : ∃ q ∈ s, q.kind = .variadic
  positional : ∃ q ∈ s, q.isPositional = true
  optional : ∀ q ∈ s, q.isRequired = false

instance (s : Signature α) : Decidable s.Displaces := decidable_of_iff' _ s.displaces_iff

/-- A suitable call is bound, and the builder comes to the parameter that takes it. -/
theorem WellFormed.account (hw : s.WellFormed) {seen : Signature α} {object : List α}
    (hseen : s.Behind object seen) (hs : seen.Suits) (b : α) : ∃ received,
    s.bind (object ++ seen.handed b) [] = .ok received ∧ received.map (·.1) = s.map (·.name) ∧
      seen.Account (s.gathered object) b received := by
  have h := hw.handsOver hseen hs b
  have hlookup {q : Parameter α} (hq : q ∈ seen) :=
    lookup_filterMap hw.distinct (s.held? (object ++ seen.handed b)) (h.mem q hq)
  refine ⟨_, h.fills.bind, names_filterMap fun p hp => h.fills.exists_held hp, ?_, fun q hq hother => ?_⟩
  · intro q hq
    rw [hlookup (taker?_cases hq).2.1]
    exact h.taker q hq
  · rw [hlookup hq]
    exact h.others q hq hother

namespace Account

variable {before : List α} {b : α} {received : List (String × Received α)}

theorem promised (h : s.Account before b received) (hw : s.WellFormed) (hs : s.Suits) (hd : ¬s.Displaces) :
    s.Promised before b received where
  required q hq hrequired := by
    rw [h.taker q (hw.taker?_of_required hs hq hrequired), if_pos (isPositional_of_required hrequired)]
  gathered hoptional q hq hkind := by
    have hnone : s.filter (·.isPositional) = [] := List.filter_eq_nil_iff.mpr fun p hp hpositional =>
      hd ⟨⟨q, hq, hkind⟩, ⟨p, hp, hpositional⟩, hoptional⟩
    rw [h.taker q (hw.taker?_of_variadic hnone hq hkind), if_neg (by simp [not_positional_of_variadic hkind])]
  kept q hq d hdefault := by
    have hgathers : q.kind.gathers ≠ true := fun hg => by simp [hw.gathering q hq hg] at hdefault
    have hother : s.taker? ≠ some q := fun htaker => by
      have hoptional : ∀ p ∈ s, p.isRequired = false := fun p hp => Bool.eq_false_iff.mpr fun hrequired => by
        obtain rfl := Option.some.inj ((hw.taker?_of_required hs hp hrequired).symm.trans htaker)
        simp [default_of_required hrequired] at hdefault
      obtain ⟨haccepts, -, ⟨rest, hrest⟩ | ⟨-, hkind⟩⟩ := taker?_cases htaker
      · obtain ⟨p, hp, hkind | hrequired⟩ := acceptsBuilder_iff.mp haccepts
        · have hpositional : q.isPositional = true := (List.mem_filter.mp (hrest ▸ List.mem_cons_self)).2
          exact hd ⟨⟨p, hp, hkind⟩, ⟨q, hq, hpositional⟩, hoptional⟩
        · simp [hoptional p hp] at hrequired
      · exact hgathers (by simp [hkind, ParameterKind.gathers])
    rw [h.others q hq hother, Parameter.untouched?, hdefault]
    cases hkind : q.kind <;> simp_all [ParameterKind.gathers]

theorem not_displaces (h : s.Account before b received) (hp : s.Promised before b received) :
    ¬s.Displaces := by
  rintro ⟨⟨v, hv, hkind⟩, ⟨q, hq, hpositional⟩, hoptional⟩
  -- nothing was gathered but what came before the builder
  have hother : s.taker? ≠ some v := fun htaker => by
    obtain ⟨-, -, ⟨rest, hrest⟩ | ⟨hnone, -⟩⟩ := taker?_cases htaker
    · have hv' : v.isPositional = true := (List.mem_filter.mp (hrest ▸ List.mem_cons_self)).2
      simp [not_positional_of_variadic hkind] at hv'
    · exact List.filter_eq_nil_iff.mp hnone q hq hpositional
  have hempty := h.others v hv hother
  rw [hp.gathered hoptional v hv hkind, Parameter.untouched?, hkind] at hempty
  simp at hempty

theorem promised_iff (h : s.Account before b received) (hw : s.WellFormed) (hs : s.Suits) :
    s.Promised before b received ↔ ¬s.Displaces := ⟨h.not_displaces, h.promised hw hs⟩

end Account

end Signature

end Exemplar
