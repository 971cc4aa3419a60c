import Exemplar.Proofs.Declaring
import Mathlib.Data.List.TakeWhile

/-! Given arguments.

`given(...).it` declares one spec after the other, and all that the store gets meanwhile is
procedures, so every argument has the text and the items that it had before (`givenIt_run`). Each spec
calls the body with the items that its argument had, whatever becomes of them (`given_expands`). It
stops at the first argument without a text, and the specs before it stay (`given_stops`). Where the verb
is refused it is refused as well, but for a body that can not be called (`given_misuse`). -/
namespace Exemplar

open Act

/-! ### Specs for arguments -/

namespace Heap

/-- The body of the spec that `body` gets for an argument with these items. -/
def Serves (h : Heap) (body : Value) (items : List Value) (v : Value) : Prop :=
  if body = .null then h.Stub v else h.cell? v = some (.procedure (.applied body items))

variable {h h' : Heap} {body v : Value} {items : List Value}

theorem Serves.kept (hv : h.Serves body items v) (k : h.Kept h') : h'.Serves body items v := by
  unfold Serves at hv ⊢
  split
  · rw [if_pos ‹_›] at hv
    exact hv.kept k
  · rw [if_neg ‹_›] at hv
    exact k.procedure hv

end Heap

/-- The spec for an argument: its description has the text that the argument has in the store `h₀`, and
its body is called with the items that it has there. -/
structure Spec.IsFor (h₀ h : Heap) (d : String) (body arg : Value) (spec : Spec) : Prop where
  description : ∃ text, arg.argumentText h₀ = .ok text ∧ spec.description = "given " ++ text ++ ", " ++ d
  body : h.Serves body (arg.spread h₀) spec.body

namespace Spec.IsFor

variable {h₀ h h' : Heap} {d : String} {body arg : Value} {spec : Spec}

theorem kept (hspec : spec.IsFor h₀ h d body arg) (k : h.Kept h') : spec.IsFor h₀ h' d body arg :=
  ⟨hspec.description, hspec.body.kept k⟩

theorem description_eq (hspec : spec.IsFor h₀ h d body arg) {text : String}
    (htext : arg.argumentText h₀ = .ok text) : spec.description = "given " ++ text ++ ", " ++ d := by
  obtain ⟨text', htext', hdescription⟩ := hspec.description
  obtain rfl := Except.ok.inj (htext.symm.trans htext')
  exact hdescription

/-- Procedures that were added before make no difference. -/
theorem earlier (hspec : spec.IsFor h' h d body arg) (e : h₀.Equipped h') : spec.IsFor h₀ h d body arg := by
  obtain ⟨⟨text, htext, hdescription⟩, hbody⟩ := hspec
  refine ⟨⟨text, (toOption_eq_iff.mp (e.argumentText_eq arg) text).mp htext, hdescription⟩, ?_⟩
  rwa [Value.spread, e.items?_eq] at hbody

end Spec.IsFor

namespace Session

variable {s : Session} {b : BuildId} {n : NodeId}

/-- Specs are added to a group of a build. -/
def declaringAll (s : Session) (b : BuildId) (n : NodeId) (specs : List Spec) : Session :=
  specs.foldl (fun s spec => s.declaring b n (.spec spec)) s

theorem heap_declaringAll (s : Session) (b : BuildId) (n : NodeId) (specs : List Spec) :
    (s.declaringAll b n specs).heap = s.heap := by
  induction specs generalizing s with
  | nil => rfl
  | cons spec rest ih => exact ih (s.declaring b n (.spec spec))

/-- The specs are the last of their group, in order, and nothing else is changed. -/
theorem specs_declaringAll (hb : b < s.builds.size) (hn : n < (s.build b).forest.size) (specs : List Spec)
    (b' : BuildId) (m : NodeId) : ((s.declaringAll b n specs).build b').forest.specs m =
      if b = b' ∧ n = m then (s.build b).forest.specs n ++ specs else (s.build b').forest.specs m := by
  induction specs generalizing s with
  | nil =>
    by_cases h : b = b' ∧ n = m
    · obtain ⟨rfl, rfl⟩ := h
      simp [declaringAll]
    · simp [declaringAll, h]
  | cons spec rest ih =>
    have hsize : (s.declaring b n (.spec spec)).builds.size = s.builds.size := by simp [declaring]
    have hstep := specs_declaring hb hn spec
    show (((s.declaring b n (.spec spec)).declaringAll b n rest).build b').forest.specs m = _
    rw [ih (hsize.symm ▸ hb) (by rwa [size_declaring]), hstep, hstep]
    by_cases h : b = b' ∧ n = m
    · simp [h]
    · simp [h]

/-- What is declared for an argument with a text is accepted: the group `n` of the current build is
open, the body is none or can be called, and the description has a text. -/
structure Takes (s : Session) (b : BuildId) (n : NodeId) (description body : Value) (d : String) : Prop where
  building : s.building = some b
  cursor : (s.build b).cursor = some n
  body : body = .null ∨ body.isCallable s.heap = true
  description : description.toText s.heap = .ok d

/-- It is still accepted when a spec has been declared. -/
theorem Takes.declared {description body : Value} {d : String} (hs : s.Takes b n description body d) {h : Heap}
    (e : s.heap.Equipped h) (spec : Spec) :
    (({ s with heap := h } : Session).declaring b n (.spec spec)).Takes b n description body d where
  building := hs.building
  cursor := (Session.cursor_declaring ..).trans hs.cursor
  body := hs.body.imp_right (isCallable_of_kept e.objects.kept)
  description := (toOption_eq_iff.mp (e.toText_eq description) d).mpr hs.description

end Session

/-! ### One spec -/

namespace Act

variable {s : Session} {b : BuildId} {n : NodeId} {description body arg : Value} {text d : String}

/-- The body of a spec for an argument is a new procedure, if there is a body. -/
theorem givenBody_apply (hbody : body = .null ∨ body.isCallable s.heap = true) (arg : Value) :
    ∃ h v, s.heap.Equipped h ∧ givenBody arg body s = (.ok v, { s with heap := h }) ∧
      if body = .null then v = .null else h.cell? v = some (.procedure (.applied body (arg.spread s.heap))) := by
  unfold givenBody
  by_cases hnull : body = .null
  · refine ⟨s.heap, .null, .refl _, ?_, by rw [if_pos hnull]⟩
    rw [if_pos hnull]
    rfl
  · refine ⟨(s.heap.alloc (.procedure (.applied body (arg.spread s.heap)))).1, .object s.heap.size,
      .alloc _ _, ?_, ?_⟩
    · rw [if_neg hnull, bind_ok (get_apply s), if_pos (hbody.resolve_left hnull)]
      rfl
    · rw [if_neg hnull]
      exact Heap.get?_alloc_self ..

theorem givenDescription_read (harg : arg.argumentText s.heap = .ok text) (hd : description.toText s.heap = .ok d) :
    reading (fun h => givenDescription h arg description) s = (.ok ("given " ++ text ++ ", " ++ d), s) := by
  rw [reading_apply, givenDescription, harg, hd]
  rfl

/-- The spec for an argument with a text. -/
theorem givenSpec_apply (hs : s.Takes b n description body d) (harg : arg.argumentText s.heap = .ok text) :
    ∃ h spec, s.heap.Equipped h ∧ spec.IsFor s.heap h d body arg ∧ givenSpec b description body arg s =
      (.ok spec, ({ s with heap := h } : Session).declaring b n (.spec spec)) := by
  obtain ⟨h, v, e, hmade, hv⟩ := givenBody_apply hs.body arg
  have hcallable : v = .null ∨ v.isCallable h = true := by
    split at hv
    · exact .inl hv
    · exact .inr (Heap.isCallable_of_procedure hv)
  obtain ⟨h', w, e', hw, hit⟩ := it_apply (s := { s with heap := h }) hs.building hs.cursor hcallable
    (show Schema.text h (.text ("given " ++ text ++ ", " ++ d)) = .ok _ from rfl)
  rw [givenSpec, bind_ok (givenDescription_read harg hs.description), bind_ok hmade]
  refine ⟨h', _, e.trans e', ⟨⟨text, harg, rfl⟩, ?_⟩, hit⟩
  unfold Heap.Serves
  by_cases hnull : body = .null
  · rw [if_pos hnull] at hv
    rw [if_pos hv] at hw
    rwa [if_pos hnull]
  · rw [if_neg hnull] at hv
    rw [if_neg fun hc => by rw [hc] at hv; cases hv] at hw
    rw [if_neg hnull, hw]
    exact e'.objects.cell?_some hv

/-! ### One spec that is not declared -/

/-- An argument without a text. -/
theorem givenSpec_unrendered {f : Failure} (hf : arg.argumentText s.heap = .error f) :
    givenSpec b description body arg s = (.error f, s) := by
  refine bind_error ?_
  rw [reading_apply, givenDescription, hf]
  rfl

/-- A description without a text. -/
theorem givenSpec_undescribed {f : Failure} (harg : arg.argumentText s.heap = .ok text)
    (hf : description.toText s.heap = .error f) : givenSpec b description body arg s = (.error f, s) := by
  refine bind_error ?_
  rw [reading_apply, givenDescription, harg, hf]
  rfl

/-- A body that can not be called. The state of the build does not count. -/
theorem givenSpec_uncallable (harg : arg.argumentText s.heap = .ok text)
    (hd : description.toText s.heap = .ok d) (hnull : body ≠ .null) (hbody : body.isCallable s.heap = false) :
    givenSpec b description body arg s = (.error (.fault .targetNotCallable), s) := by
  rw [givenSpec, bind_ok (givenDescription_read harg hd)]
  refine bind_error ?_
  rw [givenBody, if_neg hnull, bind_ok (get_apply s), hbody]
  rfl

/-- A build that can not be added to. -/
theorem givenSpec_refused {m : Misuse} (h : s.refusal? b "it" = some m) (harg : arg.argumentText s.heap = .ok text)
    (hd : description.toText s.heap = .ok d) (hbody : body = .null ∨ body.isCallable s.heap = true) :
    ∃ t, givenSpec b description body arg s = (.error (.misuse m none), t) ∧ t.builds = s.builds := by
  obtain ⟨heap, v, -, hmade, -⟩ := givenBody_apply hbody arg
  refine ⟨{ s with heap }, ?_, rfl⟩
  have h' : ({ s with heap } : Session).refusal? b "it" = some m := h
  rw [givenSpec, bind_ok (givenDescription_read harg hd), bind_ok hmade]
  exact it_refused h' _ _

/-- Whatever keeps the spec from being accepted, the builds stay as they are. -/
theorem givenSpec_fails (hs : ¬∃ n d, s.Takes b n description body d) (arg : Value) :
    ∃ f t, givenSpec b description body arg s = (.error f, t) ∧ t.builds = s.builds := by
  cases harg : arg.argumentText s.heap with
  | error f => exact ⟨f, s, givenSpec_unrendered harg, rfl⟩
  | ok text =>
    cases hd : description.toText s.heap with
    | error f => exact ⟨f, s, givenSpec_undescribed harg hd, rfl⟩
    | ok d =>
      by_cases hbody : body = .null ∨ body.isCallable s.heap = true
      · cases hm : s.refusal? b "it" with
        | some m =>
          obtain ⟨t, ht, hbuilds⟩ := givenSpec_refused hm harg hd hbody
          exact ⟨_, t, ht, hbuilds⟩
        | none =>
          obtain ⟨hb, n, hn⟩ := Session.refusal?_eq_none.mp hm
          exact absurd ⟨n, d, hb, hn, hbody, hd⟩ hs
      · obtain ⟨hnull, hcallable⟩ := not_or.mp hbody
        exact ⟨_, s, givenSpec_uncallable harg hd hnull (Bool.eq_false_iff.mpr hcallable), rfl⟩

/-! ### One spec for each argument -/

theorem givenIt_cons {args : List Value} {spec : Spec} {t : Session}
    (h : givenSpec b description body arg s = (.ok spec, t)) : givenIt b description body (arg :: args) s =
      ((givenIt b description body args t).1.map (spec :: ·), (givenIt b description body args t).2) := by
  rw [givenIt, bind_ok h]
  rcases hrest : givenIt b description body args t with ⟨_ | _, u⟩
  · exact bind_error hrest
  · exact bind_ok hrest

/-- How the declaration of specs ends: with all of them, or with the failure of the first argument
without a text. -/
def GivenEnds (h₀ h : Heap) (args : List Value) (specs : List Spec) (result : Except Failure (List Spec)) : Prop :=
  match args.dropWhile (·.renders h₀) with
  | [] => result = .ok specs
  | arg :: _ => ∃ f, arg.argumentText h = .error f ∧ result = .error f

theorem GivenEnds.cons {h₀ h : Heap} {args : List Value} {specs : List Spec} {result : Except Failure (List Spec)}
    (hends : GivenEnds h₀ h args specs result) (harg : arg.renders h₀ = true) (spec : Spec) :
    GivenEnds h₀ h (arg :: args) (spec :: specs) (result.map (spec :: ·)) := by
  unfold GivenEnds at hends ⊢
  rw [List.dropWhile_cons_of_pos harg]
  cases hdrop : args.dropWhile (·.renders h₀) with
  | nil =>
    simp only [hdrop] at hends
    simp only [hends, Except.map]
  | cons first more =>
    simp only [hdrop] at hends
    obtain ⟨f, hf, herror⟩ := hends
    exact ⟨f, hf, congrArg (Except.map (spec :: ·)) herror⟩

theorem GivenEnds.all {h₀ h : Heap} {args : List Value} {specs : List Spec} {result : Except Failure (List Spec)}
    (hends : GivenEnds h₀ h args specs result) (hargs : ∀ arg ∈ args, arg.renders h₀ = true) :
    result = .ok specs := by
  unfold GivenEnds at hends
  rwa [List.dropWhile_eq_nil_iff.mpr hargs] at hends

/-- Specs are declared up to the first argument without a text. The arguments have the texts and the
items that they had in an earlier store `h₀`, which got procedures only. -/
theorem givenIt_run {h₀ : Heap} (e : h₀.Equipped s.heap) (hs : s.Takes b n description body d)
    (args : List Value) : ∃ h specs, s.heap.Equipped h ∧
      List.Forall₂ (fun arg spec => Spec.IsFor h₀ h d body arg spec) (args.takeWhile (·.renders h₀)) specs ∧
      (givenIt b description body args s).2 = ({ s with heap := h } : Session).declaringAll b n specs ∧
      GivenEnds h₀ h args specs (givenIt b description body args s).1 := by
  induction args generalizing s with
  | nil => exact ⟨s.heap, [], .refl _, .nil, rfl, rfl⟩
  | cons arg rest ih =>
    cases hrenders : arg.renders h₀ with
    | false =>
      obtain ⟨f, hf⟩ := Value.exists_error (hrenders ▸ congrFun e.renders_eq arg)
      have hfails : givenIt b description body (arg :: rest) s = (.error f, s) :=
        bind_error (givenSpec_unrendered hf)
      refine ⟨s.heap, [], .refl _, ?_, congrArg Prod.snd hfails, ?_⟩
      · simp [hrenders]
      · simp only [GivenEnds, List.dropWhile_cons, hrenders]
        exact ⟨f, hf, congrArg Prod.fst hfails⟩
    | true =>
      obtain ⟨text, harg⟩ := Value.renders_iff_ok.mp (hrenders ▸ congrFun e.renders_eq arg)
      obtain ⟨h₁, spec, e₁, hspec, hdeclared⟩ := givenSpec_apply hs harg
      -- the rest is declared in the session that has the first spec
      generalize hs₁ : ({ s with heap := h₁ } : Session).declaring b n (.spec spec) = s₁ at hdeclared
      have hheap : s₁.heap = h₁ := hs₁ ▸ rfl
      obtain ⟨h, specs, e₂, hspecs, hsession, hends⟩ :=
        ih (s := s₁) (hheap ▸ e.trans e₁) (hs₁ ▸ hs.declared e₁ spec)
      rw [hheap] at e₂
      rw [givenIt_cons hdeclared]
      refine ⟨h, spec :: specs, e₁.trans e₂, ?_, ?_, ?_⟩
      · rw [List.takeWhile_cons_of_pos hrenders]
        exact .cons ((hspec.earlier e).kept e₂.objects.kept) hspecs
      · show (givenIt b description body rest s₁).2 = _
        rw [hsession, ← hs₁]
        rfl
      · exact hends.cons hrenders spec

end Act

/-! ### What given arguments come to -/

/-- In the session `u`, running the spec calls the body with these items, once; without a body it is a
stub. -/
def Spec.Runs (u : Session) (body : Value) (items : List Value) (spec : Spec) : Prop :=
  if body = .null then u.heap.Stub spec.body
  else ∀ barred depth, callWithin barred (depth + 1) spec.body [] [] u = callWithin barred depth body items [] u

theorem Heap.Serves.runs {u : Session} {body : Value} {items : List Value} {spec : Spec}
    (h : u.heap.Serves body items spec.body) : spec.Runs u body items := by
  unfold Heap.Serves at h
  unfold Spec.Runs
  split
  · rwa [if_pos ‹_›] at h
  · rw [if_neg ‹_›] at h
    intro barred depth
    rw [callWithin_applied barred depth h, List.append_nil]

/-- The descriptions of the specs, from the texts of the arguments. -/
theorem Spec.descriptions {h₀ h : Heap} {d : String} {body : Value} {args : List Value} {specs : List Spec}
    (hspecs : List.Forall₂ (fun arg spec => Spec.IsFor h₀ h d body arg spec) args specs) :
    ∃ texts, args.mapM (Value.argumentText h₀) = .ok texts ∧
      specs.map (·.description) = texts.map fun text => "given " ++ text ++ ", " ++ d := by
  induction hspecs with
  | nil => exact ⟨[], rfl, rfl⟩
  | cons hspec _ ih =>
    obtain ⟨text, htext, hdescription⟩ := hspec.description
    obtain ⟨texts, htexts, hdescriptions⟩ := ih
    refine ⟨text :: texts, ?_, ?_⟩
    · rw [List.mapM_cons, htext, htexts]
      rfl
    · rw [List.map_cons, List.map_cons, hdescription, hdescriptions]

section Outcome

variable {K : List Opening} {s : Session} (hs : Reachable K s) {b : BuildId} {n : NodeId} {description body : Value}
  {d : String}
include hs

/-- Declaring in an open group of the current build, up to the first argument without a text. -/
theorem Reachable.given (htakes : s.Takes b n description body d) (args : List Value) :
    let done := givenIt b description body args s
    ∃ specs, List.Forall₂ (fun arg spec => Spec.IsFor s.heap done.2.heap d body arg spec)
        (args.takeWhile (·.renders s.heap)) specs ∧
      (∀ b' m, (done.2.build b').forest.specs m =
        if b = b' ∧ n = m then (s.build b).forest.specs n ++ specs else (s.build b').forest.specs m) ∧
      GivenEnds s.heap done.2.heap args specs done.1 := by
  intro done
  obtain ⟨h, specs, -, hspecs, hsession, hends⟩ := givenIt_run (.refl s.heap) htakes args
  have hheap : done.2.heap = h := by rw [show done.2 = _ from hsession, Session.heap_declaringAll]
  refine ⟨specs, hheap ▸ hspecs, fun b' m => ?_, hheap ▸ hends⟩
  have hn := (hs.fits.builds b).cursor_lt htakes.cursor
  rw [show done.2 = _ from hsession]
  exact Session.specs_declaringAll (s := { s with heap := h }) (Session.lt_of_cursor htakes.cursor) hn specs b' m

/-- In an open group of the current build, every argument gets a spec of its own if it is not inside
itself and it and the description can be written: the specs are the last of the group, in the order of
the arguments, and each is described by the text of its argument. Whatever happens afterwards, running
it calls the body with the items that the argument had. -/
theorem given_expands (htakes : s.Takes b n description body d) {args : List Value}
    (hargs : ∀ arg ∈ args, Acc (Value.ItemOf s.heap) arg ∧
      ∀ leaf, Relation.ReflTransGen (Value.ItemOf s.heap) leaf arg → leaf.items? s.heap = none →
        ∃ text, leaf.toText s.heap = .ok text) :
    ∃ texts specs t, args.mapM (Value.argumentText s.heap) = .ok texts ∧
      givenIt b description body args s = (.ok specs, t) ∧
      specs.map (·.description) = (texts.map fun text => "given " ++ text ++ ", " ++ d) ∧
      (∀ b' m, (t.build b').forest.specs m =
        if b = b' ∧ n = m then (s.build b).forest.specs n ++ specs else (s.build b').forest.specs m) ∧
      ∀ K' u, Later [] (K, t) (K', u) →
        List.Forall₂ (fun arg spec => Spec.Runs u body (arg.spread s.heap) spec) args specs := by
  obtain ⟨specs, hspecs, hdeclared, hends⟩ := hs.given htakes args
  have hrenders : ∀ arg ∈ args, arg.renders s.heap = true := fun arg harg =>
    Value.renders_iff_leaves.mpr (hargs arg harg)
  rw [List.takeWhile_eq_self_iff.mpr hrenders] at hspecs
  obtain ⟨texts, htexts, hdescriptions⟩ := Spec.descriptions hspecs
  refine ⟨texts, specs, (givenIt b description body args s).2, htexts, Prod.ext (hends.all hrenders) rfl,
    hdescriptions, hdeclared, fun K' u hlater => hspecs.imp fun arg spec hspec => ?_⟩
  exact (hspec.body.kept hlater.heap_kept).runs

end Outcome

/-- An open group, and a store with a list and a list inside itself. -/
def Session.offered : Session :=
  let heap : Heap := { cells := #[.list false [.int 1, .int 2], .list false [.object 1]] }
  ({ heap } : Session).entering.opened 0 (.text "g")

theorem Session.offered_reachable : Reachable [.group 0 0 none, .build none] offered := by
  have hstart : Reachable [] { heap := offered.heap } := .start (fun _ => rfl) nofun nofun
  exact hstart.enterBuild.openGroup (.text "g") rfl

theorem Session.offered_takes : offered.Takes 0 0 (.text "x") .noop "x" := ⟨rfl, rfl, .inr rfl, rfl⟩

theorem argumentText_leastLong (h : Heap) :
    (Value.int leastLong).argumentText h = .error (.fault .tooManyDigits) := intText_leastLong

/-- A list of two numbers and a number. -/
theorem given_expands_two : ∃ specs t,
    givenIt 0 (.text "x") .noop [.object 0, .int 3] .offered = (.ok specs, t) ∧
    specs.map (·.description) = ["given 1,2, x", "given 3, x"] ∧ (t.build 0).forest.specs 0 = specs ∧
    List.Forall₂ (fun items spec => Spec.Runs t .noop items spec) [[.int 1, .int 2], [.int 3]] specs := by
  have hrenders : ∀ arg ∈ [Value.object 0, .int 3], arg.renders Session.offered.heap = true := by decide
  obtain ⟨texts, specs, t, htexts, hgiven, hdescriptions, hspecs, hruns⟩ :=
    given_expands Session.offered_reachable Session.offered_takes fun arg harg =>
      Value.renders_iff_leaves.mp (hrenders arg harg)
  have hwritten : [Value.object 0, .int 3].mapM (Value.argumentText Session.offered.heap) =
      .ok ["1,2", "3"] := by rfl
  obtain rfl := Except.ok.inj (hwritten.symm.trans htexts)
  refine ⟨specs, t, hgiven, hdescriptions, hspecs 0 0, ?_⟩
  exact List.forall₂_map_left_iff.mpr (hruns _ t (.refl _ _))

/-- The integer is not inside itself, but it has no text, neither as an argument nor as a description. -/
theorem given_unwritten :
    Reachable [.group 0 0 none, .build none] .offered ∧ Session.offered.Takes 0 0 (.text "x") .noop "x" ∧
    Acc (Value.ItemOf Session.offered.heap) (.int leastLong) ∧
    givenIt 0 (.text "x") .noop [.int leastLong] .offered = (.error (.fault .tooManyDigits), .offered) ∧
    givenIt 0 (.int leastLong) .noop [.int 1] .offered = (.error (.fault .tooManyDigits), .offered) := by
  refine ⟨Session.offered_reachable, Session.offered_takes, ?_, ?_, ?_⟩
  · refine Acc.intro _ fun x hx => ?_
    obtain ⟨items, hitems, -⟩ := hx
    cases hitems
  · exact bind_error (givenSpec_unrendered (argumentText_leastLong _))
  · have hone : (Value.int 1).argumentText Session.offered.heap = .ok "1" := rfl
    have hlong : (Value.int leastLong).toText Session.offered.heap = .error (.fault .tooManyDigits) :=
      intText_leastLong
    exact bind_error (givenSpec_undescribed hone hlong)

section Outcome

variable {K : List Opening} {s : Session} (hs : Reachable K s) {b : BuildId}
include hs

/-- Declaring goes on up to the first argument without a text, and the specs of the arguments before it
stay in their group. Whatever else keeps specs from being declared does so at the first argument, and
leaves every build as it was. -/
theorem given_stops (description body : Value) {args : List Value} (hargs : args ≠ []) :
    let done := givenIt b description body args s
    (∀ n d, s.Takes b n description body d → ∃ specs,
      List.Forall₂ (fun arg spec => Spec.IsFor s.heap done.2.heap d body arg spec)
        (args.takeWhile (·.renders s.heap)) specs ∧
      (∀ b' m, (done.2.build b').forest.specs m =
        if b = b' ∧ n = m then (s.build b).forest.specs n ++ specs else (s.build b').forest.specs m) ∧
      GivenEnds s.heap done.2.heap args specs done.1) ∧
    ((¬∃ n d, s.Takes b n description body d) → ∃ f, done.1 = .error f ∧ done.2.builds = s.builds) := by
  intro done
  refine ⟨fun n d htakes => hs.given htakes args, fun hrefused => ?_⟩
  obtain ⟨first, rest, rfl⟩ := List.exists_cons_of_ne_nil hargs
  obtain ⟨f, t, hfails, hbuilds⟩ := givenSpec_fails hrefused first
  have hdone : done = (.error f, t) := bind_error hfails
  exact ⟨f, congrArg Prod.fst hdone, (congrArg (·.2.builds) hdone).trans hbuilds⟩

end Outcome

/-- The second argument is a list inside itself. -/
theorem given_stops_within :
    let done := givenIt 0 (.text "x") .noop [.int 1, .object 1, .int 3] .offered
    (∃ f, done.1 = .error f) ∧
    ∃ spec, (done.2.build 0).forest.specs 0 = [spec] ∧ spec.description = "given 1, x" := by
  intro done
  obtain ⟨hstops, -⟩ := given_stops Session.offered_reachable (b := 0) (.text "x") .noop
    (show [Value.int 1, .object 1, .int 3] ≠ [] by decide)
  obtain ⟨specs, hspecs, hdeclared, hends⟩ := hstops 0 "x" Session.offered_takes
  have hbefore : [Value.int 1, .object 1, .int 3].takeWhile (·.renders Session.offered.heap) = [.int 1] := by decide
  have hafter : [Value.int 1, .object 1, .int 3].dropWhile (·.renders Session.offered.heap) =
      [.object 1, .int 3] := by decide
  rw [hbefore] at hspecs
  rw [GivenEnds, hafter] at hends
  obtain ⟨f, -, herror⟩ := hends
  cases hspecs with
  | @cons _ spec _ _ hspec hrest =>
    cases hrest
    exact ⟨⟨f, herror⟩, spec, hdeclared 0 0, hspec.description_eq rfl⟩

/-- The call raises, and a spec is left. -/
theorem given_partly :
    let done := givenIt 0 (.text "x") .noop [.int 1, .int leastLong] .offered
    Reachable [.group 0 0 none, .build none] .offered ∧ (Session.offered.build 0).forest.specs 0 = [] ∧
    done.1 = .error (.fault .tooManyDigits) ∧
    ((done.2.build 0).forest.specs 0).map (·.description) = ["given 1, x"] := by
  intro done
  obtain ⟨h, spec, -, hspec, hdeclares⟩ :=
    givenSpec_apply Session.offered_takes (show (Value.int 1).argumentText Session.offered.heap = .ok "1" from rfl)
  have hrest : givenIt 0 (.text "x") .noop [.int leastLong]
      (({ Session.offered with heap := h } : Session).declaring 0 0 (.spec spec)) =
      (.error (.fault .tooManyDigits), _) := bind_error (givenSpec_unrendered (argumentText_leastLong _))
  have hdone : done = _ := givenIt_cons hdeclares
  rw [hrest] at hdone
  refine ⟨Session.offered_reachable, rfl, congrArg Prod.fst hdone, ?_⟩
  rw [hdone]
  exact congrArg (fun text => [text]) (hspec.description_eq rfl)

/-! ### Misuse -/

section Misuse

variable {s : Session} {b : BuildId} {n : NodeId} {description body : Value} {args : List Value}

/-- The first argument is refused, and so are all. -/
theorem givenIt_refused {m : Misuse} (hm : s.refusal? b "it" = some m) (hargs : args ≠ [])
    (hrenders : ∀ arg ∈ args, arg.renders s.heap = true) (hodd : ¬body.Odd s.heap) {d : String}
    (hd : description.toText s.heap = .ok d) :
    ∃ t, givenIt b description body args s = (.error (.misuse m none), t) := by
  obtain ⟨first, rest, rfl⟩ := List.exists_cons_of_ne_nil hargs
  obtain ⟨text, hfirst⟩ := Value.renders_iff_ok.mp (hrenders first List.mem_cons_self)
  obtain ⟨t, hspec, -⟩ := givenSpec_refused hm hfirst hd (Value.not_odd.mp hodd)
  exact ⟨t, bind_error hspec⟩

theorem givenIt_uncallable (hargs : args ≠ []) (hrenders : ∀ arg ∈ args, arg.renders s.heap = true)
    (hodd : body.Odd s.heap) {d : String} (hd : description.toText s.heap = .ok d) :
    givenIt b description body args s = (.error (.fault .targetNotCallable), s) := by
  obtain ⟨first, rest, rfl⟩ := List.exists_cons_of_ne_nil hargs
  obtain ⟨text, hfirst⟩ := Value.renders_iff_ok.mp (hrenders first List.mem_cons_self)
  exact bind_error (givenSpec_uncallable hfirst hd hodd.1 hodd.2)

theorem givenIt_undescribed (hargs : args ≠ []) (hrenders : ∀ arg ∈ args, arg.renders s.heap = true)
    {f : Failure} (hf : description.toText s.heap = .error f) :
    givenIt b description body args s = (.error f, s) := by
  obtain ⟨first, rest, rfl⟩ := List.exists_cons_of_ne_nil hargs
  obtain ⟨text, hfirst⟩ := Value.renders_iff_ok.mp (hrenders first List.mem_cons_self)
  exact bind_error (givenSpec_undescribed hfirst hf)

theorem givenIt_accepted {d : String} (hs : s.Takes b n description body d)
    (hrenders : ∀ arg ∈ args, arg.renders s.heap = true) :
    ∃ specs, (givenIt b description body args s).1 = .ok specs := by
  obtain ⟨h, specs, -, -, -, hends⟩ := givenIt_run (.refl s.heap) hs args
  exact ⟨specs, hends.all hrenders⟩

theorem givenIt_misused (hargs : args ≠ []) (hrenders : ∀ arg ∈ args, arg.renders s.heap = true) :
    Misused (givenIt b description body args s).1 ↔
      (∃ m, s.refusal? b "it" = some m) ∧ ¬body.Odd s.heap ∧ ∃ d, description.toText s.heap = .ok d := by
  cases hd : description.toText s.heap with
  | error f =>
    rw [givenIt_undescribed hargs hrenders hd]
    refine iff_of_false (Misused.of_fails (Value.toText_fails s.heap description) hd) ?_
    rintro ⟨-, -, d, hc⟩
    cases hc
  | ok d =>
    by_cases hodd : body.Odd s.heap
    · rw [givenIt_uncallable hargs hrenders hodd hd]
      exact iff_of_false (Misused.of_fault _) fun hc => hc.2.1 hodd
    · cases hm : s.refusal? b "it" with
      | some m =>
        obtain ⟨t, hrefused⟩ := givenIt_refused hm hargs hrenders hodd hd
        rw [hrefused]
        exact iff_of_true (Misused.of_refusal hm) ⟨⟨m, rfl⟩, hodd, d, rfl⟩
      | none =>
        obtain ⟨hb, n, hn⟩ := Session.refusal?_eq_none.mp hm
        obtain ⟨specs, hok⟩ := givenIt_accepted ⟨hb, hn, Value.not_odd.mp hodd, hd⟩ hrenders
        rw [hok]
        refine iff_of_false (Misused.of_ok _) ?_
        rintro ⟨⟨m, hc⟩, -⟩
        cases hc

/-- Let all arguments have a text. The verb with a text is misused where the build can not be added to,
and with a body that can not be called. `given` is misused with the same error where the build can not
be added to, if its description has a text and its body is none or can be called. A body that can not be
called is an error of the host, whatever the state of the build. -/
theorem given_misuse (hargs : args ≠ []) (hrenders : ∀ arg ∈ args, arg.renders s.heap = true)
    (hnames : ∀ m node, (s.build b).forest.node? m = some node → ∃ text, node.name.asText? s.heap = some text)
    (text : String) (description body : Value) :
    let plain := it b (.text text) body s
    let given := givenIt b description body args s
    (Misused plain.1 ↔ (∃ m, s.refusal? b "it" = some m) ∨ body.Odd s.heap) ∧
    (Misused given.1 ↔ (∃ m, s.refusal? b "it" = some m) ∧ ¬body.Odd s.heap ∧
      ∃ d, description.toText s.heap = .ok d) ∧
    (Misused given.1 → ∃ m, plain.1 = .error (.misuse m none) ∧ given.1 = .error (.misuse m none)) ∧
    (body.Odd s.heap → (∃ d, description.toText s.heap = .ok d) →
      given = (.error (.fault .targetNotCallable), s)) := by
  intro plain given
  refine ⟨it_misused hnames text body, givenIt_misused hargs hrenders, fun hmisused => ?_, fun hodd hd => ?_⟩
  · obtain ⟨⟨m, hm⟩, hodd, d, hd⟩ := (givenIt_misused hargs hrenders).mp hmisused
    obtain ⟨t, hrefused⟩ := givenIt_refused hm hargs hrenders hodd hd
    exact ⟨m, congrArg Prod.fst (it_refused hm _ _), congrArg Prod.fst hrefused⟩
  · obtain ⟨d, hd⟩ := hd
    exact givenIt_uncallable hargs hrenders hodd hd

end Misuse

theorem Session.offered_names (m : NodeId) (node : Node) (hm : (offered.build 0).forest.node? m = some node) :
    ∃ text, node.name.asText? offered.heap = some text := by
  match m with
  | 0 =>
    obtain rfl := Option.some.inj hm
    exact ⟨"g", rfl⟩
  | m + 1 => cases hm

/-- The build is not the current one. -/
theorem given_misuse_closed :
    let s := Session.offered.withBuilding none
    (it 0 (.text "given 1, x") .noop s).1 = .error (.misuse (.notBuilding "it") none) ∧
    (givenIt 0 (.text "x") .noop [.int 1] s).1 = .error (.misuse (.notBuilding "it") none) := by
  intro s
  obtain ⟨-, hmisused, hsame, -⟩ := given_misuse (s := s) (b := 0) (show [Value.int 1] ≠ [] by decide)
    (by decide) Session.offered_names "given 1, x" (.text "x") .noop
  have hbody : ¬Value.noop.Odd s.heap := Value.not_odd.mpr (.inr rfl)
  obtain ⟨m, hplain, hgiven⟩ := hsame (hmisused.mpr ⟨⟨.notBuilding "it", rfl⟩, hbody, "x", rfl⟩)
  have hm : (it 0 (.text "given 1, x") .noop s).1 = .error (.misuse (.notBuilding "it") none) := rfl
  obtain ⟨rfl, -⟩ := Failure.misuse.inj (Except.error.inj (hplain.symm.trans hm))
  exact ⟨hm, hgiven⟩

/-- A body that can not be called, in an open group. -/
theorem given_uncallable :
    Reachable [.group 0 0 none, .build none] .offered ∧
    (∃ context t, it 0 (.text "given 1, x") (.int 42) .offered =
      (.error (.misuse (.bodyNotCallable "int") (some context)), t)) ∧
    givenIt 0 (.text "x") (.int 42) [.int 1] .offered = (.error (.fault .targetNotCallable), .offered) :=
  ⟨Session.offered_reachable, ⟨_, _, rfl⟩, rfl⟩

end Exemplar
