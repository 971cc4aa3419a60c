import Exemplar.Proofs.Listing
import Exemplar.Proofs.Nesting
import Exemplar.Proofs.Traversal

/-! Which values have a document.

A document is a tree of scalars and of containers of the types that the language itself has. Before one is
written the value is surveyed, and the survey fails at the first value that is neither. It enters a container
that occurs more than once only once, and what it has seen before can be shown by then; so it
succeeds exactly if everything in the value can be shown (`Yaml.dump_iff`). -/
namespace Exemplar

theorem forall_reflTransGen_iff {α : Type} {R : α → α → Prop} {P : α → Prop} {v : α} :
    (∀ x, Relation.ReflTransGen R x v → P x) ↔ P v ∧ ∀ y, R y v → ∀ x, Relation.ReflTransGen R x y → P x := by
  constructor
  · exact fun hall => ⟨hall v .refl, fun y hy x hx => hall x (hx.tail hy)⟩
  · rintro ⟨hv, hrest⟩ x hx
    rcases Relation.ReflTransGen.cases_tail hx with rfl | ⟨y, hx, hy⟩
    · exact hv
    · exact hrest y hy x hx

theorem mem_setOrder {h : Heap} {items : List Value} {x : Value} : x ∈ setOrder h items ↔ x ∈ items := by
  unfold setOrder
  split
  · exact List.mem_mergeSort
  · exact Iff.rfl

/-- Containers of the types that the language itself has. -/
def Cell.isBuiltin : Cell → Bool
  | .list false _ | .tuple false _ | .mapping false _ | .set false _ => true
  | _ => false

namespace Yaml

variable {h : Heap} {v x : Value}

/-- `x` is a part of the container `v` in a document. -/
def Inside (h : Heap) (x v : Value) : Prop := ∃ parts, parts? h v = some parts ∧ x ∈ parts

/-- A value that is written as a scalar or as a container. -/
def Showable (h : Heap) (v : Value) : Prop := (∃ s, scalar? h v = .ok (some s)) ∨ (parts? h v).isSome

/-- Everything in the value can be written. -/
def Shows (h : Heap) (v : Value) : Prop := ∀ x, Relation.ReflTransGen (Inside h) x v → Showable h x

theorem shows_iff : Shows h v ↔ Showable h v ∧ ∀ x, Inside h x v → Shows h x := forall_reflTransGen_iff

theorem shows_text (h : Heap) (text : String) : Shows h (.text text) := shows_iff.mpr ⟨.inl ⟨_, rfl⟩, nofun⟩

/-! ### Containers -/

theorem isSome_parts? : (parts? h v).isSome ↔ ∃ c, h.cell? v = some c ∧ c.isBuiltin = true := by
  unfold parts?
  cases h.cell? v with
  | none => simp
  | some c =>
    cases c with
    | list own | tuple own | mapping own | set own => cases own <;> simp [Cell.isBuiltin]
    | _ => simp [Cell.isBuiltin]

theorem inside_iff : Inside h x v ↔ ∃ c, h.cell? v = some c ∧ c.isBuiltin = true ∧ x ∈ c.face.contents := by
  unfold Inside parts?
  cases h.cell? v with
  | none => simp
  | some c =>
    cases c with
    | list own | tuple own | mapping own =>
      cases own <;> simp [Cell.isBuiltin, Cell.face, Face.contents]
    | set own => cases own <;> simp [Cell.isBuiltin, Cell.face, Face.contents, mem_setOrder]
    | _ => simp [Cell.isBuiltin]

theorem Inside.within (hx : Inside h x v) : Value.Within h x v := by
  obtain ⟨c, hc, -, hmem⟩ := inside_iff.mp hx
  rwa [Value.Within, Value.face_of_cell hc]

theorem encloses_inside (h : Heap) : h.Encloses (Inside h) := fun x v hx =>
  Value.encloses_within h x v hx.within

/-- No container is a scalar. -/
theorem scalar?_of_parts (hv : (parts? h v).isSome) : scalar? h v = .ok none := by
  obtain ⟨c, hc, hbuiltin⟩ := isSome_parts?.mp hv
  obtain ⟨r, rfl⟩ := Value.eq_object_of_cell hc
  unfold scalar?
  cases c with
  | list | tuple | mapping | set => rw [hc]
  | _ => cases hbuiltin

/-! ### The survey -/

theorem survey_scalar {s : Scalar} (hs : scalar? h v = .ok (some s)) (n : Nat) (sights : Sights) :
    survey h (n + 1) sights v = .ok sights := by
  rw [survey, hs]
  rfl

/-- A value that can neither be written nor was seen before ends the survey. -/
theorem survey_unshowable (hv : ¬ Showable h v) {sights : Sights} (hnew : ∀ r ∈ sights.once, v ≠ .object r)
    (n : Nat) : ∃ f, survey h n sights v = .error f := by
  have hparts : parts? h v = none := Option.not_isSome_iff_eq_none.mp fun hsome => hv (.inr hsome)
  have hthrow : ∃ f, (v.shown h >>= fun text => throw (.fault (.notRepresentable text)) :
      Except Failure Sights) = .error f := by
    cases v.shown h with
    | error f => exact ⟨f, rfl⟩
    | ok text => exact ⟨_, rfl⟩
  cases n with
  | zero => exact ⟨_, rfl⟩
  | succ n =>
    cases hscalar : scalar? h v with
    | error f =>
      rw [survey, hscalar]
      exact ⟨f, rfl⟩
    | ok found =>
      cases found with
      | some s => exact absurd (.inl ⟨s, hscalar⟩) hv
      | none =>
        cases v with
        | object r =>
          have hfirst : sights.once.contains r = false := by simpa using fun hr => hnew r hr rfl
          rw [survey_object hscalar, hfirst, Bool.false_and, if_neg Bool.false_ne_true, hparts]
          exact hthrow
        | _ =>
          rw [survey, hscalar]
          exact hthrow

/-- A container is passed over if it was seen, and otherwise its parts are surveyed. -/
theorem survey_container {r : Ref} {parts : List Value} (hp : parts? h (.object r) = some parts) (n : Nat)
    (sights : Sights) :
    (r ∈ sights.once ∧ ∃ again, survey h (n + 1) sights (.object r) = .ok { sights with again }) ∨
      survey h (n + 1) sights (.object r) =
        parts.foldlM (survey h n) { sights with once := r :: sights.once } := by
  have hs : scalar? h (.object r) = .ok none := scalar?_of_parts (by rw [hp]; rfl)
  rw [survey_object hs]
  by_cases hseen : (sights.once.contains r && isShareable h (.object r)) = true
  · rw [if_pos hseen]
    refine .inl ⟨by simpa using Bool.and_elim_left hseen, ?_⟩
    split
    · exact ⟨sights.again, rfl⟩
    · exact ⟨sights.again ++ [r], rfl⟩
  · rw [if_neg hseen]
    exact .inr (by simp only [hp])

/-- What can be written is surveyed to the end, whatever was seen before. -/
theorem survey_ok {n : Nat} (hn : v.Nests (Inside h) n) (hv : Shows h v) (sights : Sights) :
    ∃ later, survey h n sights v = .ok later := by
  induction n generalizing v sights with
  | zero => exact hn.elim
  | succ n ih =>
    obtain ⟨⟨s, hs⟩ | hparts, hrest⟩ := shows_iff.mp hv
    · exact ⟨sights, survey_scalar hs n sights⟩
    · obtain ⟨c, hc, -⟩ := isSome_parts?.mp hparts
      obtain ⟨r, rfl⟩ := Value.eq_object_of_cell hc
      obtain ⟨parts, hp⟩ := Option.isSome_iff_exists.mp hparts
      rcases survey_container hp n sights with ⟨-, again, hseen⟩ | hwalk
      · exact ⟨_, hseen⟩
      · rw [hwalk]
        refine foldlM_ok (fun x hx now => ?_) _
        exact ih (hn x ⟨parts, hp, hx⟩) (hrest x ⟨parts, hp, hx⟩) now

/-- While the parts of a container are surveyed, what was seen is the container itself, was seen before it,
or can be written. -/
def Sights.Settled (h : Heap) (r : Ref) (before now : Sights) : Prop :=
  ∀ q ∈ now.once, q = r ∨ q ∈ before.once ∨ Shows h (.object q)

/-- A survey that succeeds has found nothing that can not be written. Of the containers inside the value
that were seen before this has to be known; there may be others, since the value stands in containers that
are not yet surveyed to their end. -/
theorem survey_shows {n : Nat} {sights later : Sights} (hv : Acc (Inside h) v)
    (hseen : ∀ r ∈ sights.once, Relation.ReflTransGen (Inside h) (.object r) v → Shows h (.object r))
    (hs : survey h n sights v = .ok later) :
    Shows h v ∧ ∀ r ∈ later.once, r ∈ sights.once ∨ Shows h (.object r) := by
  induction n generalizing v sights later with
  | zero => cases hs
  | succ n ih =>
    have hshowable : Showable h v := by
      by_contra hnone
      by_cases hnew : ∀ r ∈ sights.once, v ≠ .object r
      · obtain ⟨f, hf⟩ := survey_unshowable hnone hnew (n + 1)
        rw [hf] at hs
        cases hs
      · simp only [not_forall, not_not] at hnew
        obtain ⟨r, hr, rfl⟩ := hnew
        exact hnone (hseen r hr .refl _ .refl)
    rcases id hshowable with ⟨s, hscalar⟩ | hparts
    · rw [survey_scalar hscalar] at hs
      obtain rfl : sights = later := Except.ok.inj hs
      refine ⟨shows_iff.mpr ⟨hshowable, fun x hx => ?_⟩, fun r hr => .inl hr⟩
      obtain ⟨parts, hp, -⟩ := hx
      rw [scalar?_of_parts (by rw [hp]; rfl)] at hscalar
      cases hscalar
    · obtain ⟨c, hc, -⟩ := isSome_parts?.mp hparts
      obtain ⟨r, rfl⟩ := Value.eq_object_of_cell hc
      obtain ⟨parts, hp⟩ := Option.isSome_iff_exists.mp hparts
      rcases survey_container hp n sights with ⟨hr, again, hpassed⟩ | hwalk
      · rw [hpassed] at hs
        obtain rfl : { sights with again } = later := Except.ok.inj hs
        exact ⟨hseen r hr .refl, fun q hq => .inl hq⟩
      · rw [hwalk] at hs
        have hstep : ∀ x ∈ parts, ∀ now next : Sights, Sights.Settled h r sights now →
            survey h n now x = .ok next → Shows h x ∧ Sights.Settled h r sights next := by
          intro x hx now next hnow hnext
          have hinside : Inside h x (.object r) := ⟨parts, hp, hx⟩
          obtain ⟨hshows, hnew⟩ := ih (hv.inv hinside) (fun q hq hreach => by
            rcases hnow q hq with rfl | hq | hq
            · exact absurd (Relation.TransGen.tail' hreach hinside) (Value.not_transGen_self hv)
            · exact hseen q hq (hreach.tail hinside)
            · exact hq) hnext
          refine ⟨hshows, fun q hq => ?_⟩
          rcases hnew q hq with hq | hq
          · exact hnow q hq
          · exact .inr (.inr hq)
        have hstart : Sights.Settled h r sights { sights with once := r :: sights.once } := fun q hq => by
          rcases List.mem_cons.mp hq with rfl | hq
          · exact .inl rfl
          · exact .inr (.inl hq)
        obtain ⟨hall, hlater⟩ := foldlM_eq_ok (Sights.Settled h r sights) hstep hstart hs
        have hshows : Shows h (.object r) := shows_iff.mpr ⟨hshowable, fun x ⟨parts', hp', hx⟩ => by
          rw [hp] at hp'
          obtain rfl := Option.some.inj hp'
          exact hall x hx⟩
        refine ⟨hshows, fun q hq => ?_⟩
        rcases hlater q hq with rfl | hq
        · exact .inr hshows
        · exact hq

/-- An acyclic value has a document exactly if everything in it can be written. -/
theorem dump_iff (hv : Acc (Inside h) v) : (∃ text, dump h v = .ok text) ↔ Shows h v := by
  have hsurvey : (∃ text, dump h v = .ok text) ↔ ∃ later, survey h (h.size + 1) {} v = .ok later := by
    unfold dump Node.ofValue?
    cases survey h (h.size + 1) {} v with
    | error f => exact ⟨nofun, nofun⟩
    | ok later => exact ⟨fun _ => ⟨later, rfl⟩, fun _ => ⟨_, rfl⟩⟩
  rw [hsurvey]
  constructor
  · rintro ⟨later, hs⟩
    exact (survey_shows hv (fun r hr => absurd hr List.not_mem_nil) hs).1
  · exact fun hshows => survey_ok ((encloses_inside h).nests hv) hshows {}

end Yaml

end Exemplar
