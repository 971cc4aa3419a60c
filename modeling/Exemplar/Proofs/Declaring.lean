import Exemplar.Proofs.Compilation
import Exemplar.Proofs.Handlers
import Exemplar.Proofs.Isolation
import Exemplar.Proofs.Outlined
import Exemplar.Proofs.Wording

/-! Declaring a spec.

A spec is added to the open group of the current build, and without a body it gets a stub
(`it_apply`). The verb is misused exactly where the build can not be added to and with a body that can
not be called (`it_misused`). -/
namespace Exemplar

open Act

/-! ### Bodies of specs -/

namespace Heap

/-- The body of a spec that was declared without one: the verb of the asserter, with its message. -/
def Stub (h : Heap) (v : Value) : Prop :=
  ∃ fail, h.cell? fail = some (.procedure (.shortcut "fail")) ∧
    h.cell? v = some (.procedure (.applied fail [.text notImplemented]))

variable {h h' : Heap} {v : Value}

theorem isCallable_of_procedure {c : Callable} (hv : h.cell? v = some (.procedure c)) : v.isCallable h = true := by
  cases v with
  | object r => simp only [Value.isCallable, hv]
  | _ => cases hv

theorem Stub.kept (hv : h.Stub v) (k : h.Kept h') : h'.Stub v := by
  obtain ⟨fail, hfail, happlied⟩ := hv
  exact ⟨fail, k.procedure hfail, k.procedure happlied⟩

theorem Stub.callable (hv : h.Stub v) : v.isCallable h = true := by
  obtain ⟨fail, -, hcell⟩ := hv
  exact Heap.isCallable_of_procedure hcell

/-- What is taken as a text does not depend on procedures that are added. -/
theorem Equipped.schemaText_eq (e : h.Equipped h') (v : Value) : Schema.text h' v = Schema.text h v := by
  simp only [Schema.text, e.asText?_eq]

end Heap

/-! ### Specs of a group -/

namespace Session

variable {s : Session} {b : BuildId} {n : NodeId}

theorem forest_declaring (s : Session) (b : BuildId) (n : NodeId) (d : Declaration) (b' : BuildId) :
    ((s.declaring b n d).build b').forest =
      if b = b' ∧ b' < s.builds.size then (s.build b').forest.declare n d else (s.build b').forest := by
  unfold declaring
  rw [build_modify]
  split <;> rfl

theorem size_declaring (s : Session) (b : BuildId) (n : NodeId) (d : Declaration) (b' : BuildId) :
    ((s.declaring b n d).build b').forest.size = (s.build b').forest.size := by
  rw [forest_declaring]
  split
  · cases d <;> exact Forest.size_modify ..
  · rfl

theorem specs_declaring (hb : b < s.builds.size) (hn : n < (s.build b).forest.size) (spec : Spec) (b' : BuildId)
    (m : NodeId) : ((s.declaring b n (.spec spec)).build b').forest.specs m =
      if b = b' ∧ n = m then (s.build b).forest.specs n ++ [spec] else (s.build b').forest.specs m := by
  rw [forest_declaring]
  by_cases hb' : b = b'
  · subst hb'
    rw [if_pos ⟨rfl, hb⟩]
    show ((s.build b).forest.modify n _).specs m = _
    rw [Forest.specs_modify]
    by_cases hm : n = m
    · subst hm
      obtain ⟨node, hnode⟩ := Forest.exists_node hn
      simp [Forest.specs, hnode]
    · simp [hm]
  · simp [hb']

/-- What keeps a verb from adding to the build: it is not the current one, or no group is open in it. -/
def refusal? (s : Session) (b : BuildId) (verb : String) : Option Misuse :=
  if s.building = some b then
    if (s.build b).cursor = none then some (.outsideGroup verb) else none
  else some (.notBuilding verb)

theorem refusal?_eq_none {verb : String} :
    s.refusal? b verb = none ↔ s.building = some b ∧ ∃ n, (s.build b).cursor = some n := by
  unfold refusal?
  by_cases hb : s.building = some b
  · cases hn : (s.build b).cursor with
    | none => simp [hb]
    | some n => simp [hb]
  · simp [hb]

end Session

/-! ### The verb -/

namespace Act

variable {s : Session} {b : BuildId} {n : NodeId} {description body : Value} {d : String}

theorem openGroup_apply (hb : s.building = some b) (hn : (s.build b).cursor = some n) (verb : String) :
    openGroup b verb s = (.ok n, s) := by
  have hbuilding : requireBuilding b verb s = (.ok (), s) := by rw [requireBuilding_apply, if_pos hb]
  rw [openGroup, bind_ok hbuilding, requireCursor_some hn]

theorem openGroup_refused {verb : String} {m : Misuse} (h : s.refusal? b verb = some m) :
    openGroup b verb s = (.error (.misuse m none), s) := by
  unfold Session.refusal? at h
  by_cases hb : s.building = some b
  · have hbuilding : requireBuilding b verb s = (.ok (), s) := by rw [requireBuilding_apply, if_pos hb]
    rw [if_pos hb] at h
    rw [openGroup, bind_ok hbuilding]
    split at h
    · obtain rfl := Option.some.inj h
      exact requireCursor_none ‹_› verb
    · cases h
  · rw [if_neg hb] at h
    obtain rfl := Option.some.inj h
    exact openGroup_refuses hb verb

theorem addSpec_apply (hbody : body.isCallable s.heap = true) (hd : Schema.text s.heap description = .ok d) :
    addSpec b n description body s = (.ok ⟨d, body⟩, s.declaring b n (.spec ⟨d, body⟩)) := by
  rw [addSpec, bind_ok (get_apply s)]
  dsimp only
  rw [if_pos hbody, hd]
  rfl

/-- A stub is a new procedure. -/
theorem stub_apply (s : Session) :
    ∃ h v, s.heap.Equipped h ∧ h.Stub v ∧ stub s = (.ok v, { s with heap := h }) := by
  have hfail := (s.heap.alloc (.procedure (.shortcut "fail"))).1.get?_alloc_of_lt
    (r := s.heap.size) (by simp [Heap.alloc, Heap.size])
    (.procedure (.applied (.object s.heap.size) [.text notImplemented]))
  refine ⟨_, _, (Heap.Equipped.alloc s.heap _).trans (.alloc _ _), ⟨.object s.heap.size, ?_, ?_⟩, rfl⟩
  · exact hfail.trans (Heap.get?_alloc_self s.heap _)
  · exact Heap.get?_alloc_self _ _

/-- The body that a spec gets is the one that is given, or else a stub. -/
theorem givenOr_stub_apply (hbody : body = .null ∨ body.isCallable s.heap = true) :
    ∃ h v, s.heap.Equipped h ∧ (if body = .null then h.Stub v else v = body) ∧ v.isCallable h = true ∧
      givenOr stub body s = (.ok v, { s with heap := h }) := by
  unfold givenOr
  by_cases hnull : body = .null
  · obtain ⟨h, v, e, hv, hstub⟩ := stub_apply s
    refine ⟨h, v, e, by rwa [if_pos hnull], hv.callable, ?_⟩
    rw [if_pos hnull, hstub]
  · refine ⟨s.heap, body, .refl _, by rw [if_neg hnull], hbody.resolve_left hnull, ?_⟩
    rw [if_neg hnull]
    rfl

theorem it_apply (hb : s.building = some b) (hn : (s.build b).cursor = some n)
    (hbody : body = .null ∨ body.isCallable s.heap = true) (hd : Schema.text s.heap description = .ok d) :
    ∃ h v, s.heap.Equipped h ∧ (if body = .null then h.Stub v else v = body) ∧ it b description body s =
      (.ok ⟨d, v⟩, ({ s with heap := h } : Session).declaring b n (.spec ⟨d, v⟩)) := by
  obtain ⟨h, v, e, hv, hcallable, hgiven⟩ := givenOr_stub_apply hbody
  refine ⟨h, v, e, hv, ?_⟩
  rw [it, bind_ok (openGroup_apply hb hn "it"), bind_ok hgiven]
  exact addSpec_apply (s := { s with heap := h }) hcallable ((e.schemaText_eq description).trans hd)

/-- A description that is no text is refused last. -/
theorem it_undescribed {kind : IssueKind} (hb : s.building = some b) (hn : (s.build b).cursor = some n)
    (hbody : body = .null ∨ body.isCallable s.heap = true) (hd : Schema.text s.heap description = .error kind) :
    ∃ h, s.heap.Equipped h ∧ it b description body s =
      (.error (.invalid "Spec" [⟨kind, [.field "description"], description⟩]), { s with heap := h }) := by
  obtain ⟨h, v, e, -, hcallable, hgiven⟩ := givenOr_stub_apply hbody
  refine ⟨h, e, ?_⟩
  rw [it, bind_ok (openGroup_apply hb hn "it"), bind_ok hgiven, addSpec, bind_ok (get_apply _)]
  dsimp only
  rw [if_pos hcallable, e.schemaText_eq, hd]
  rfl

theorem it_refused {m : Misuse} (h : s.refusal? b "it" = some m) (description body : Value) :
    it b description body s = (.error (.misuse m none), s) := bind_error (openGroup_refused h)

end Act

/-! ### Misuse -/

/-- The result is an error of the build. -/
def Misused {α : Type} (result : Except Failure α) : Prop := ∃ f, result = .error f ∧ f.kind = .dslBuildError

namespace Misused

variable {α : Type} {s : Session} {b : BuildId}

theorem of_fault (cause : Fault) : ¬Misused (.error (.fault cause) : Except Failure α) := by
  rintro ⟨f, hf, hkind⟩
  obtain rfl := Except.error.inj hf
  cases cause <;> cases hkind

theorem of_ok (a : α) : ¬Misused (.ok a) := by
  rintro ⟨f, hf, -⟩
  cases hf

theorem of_fails {x : Except Failure α} {f : Failure} (hx : FailsByFault x) (hf : x = .error f) {β : Type} :
    ¬Misused (.error f : Except Failure β) := by
  obtain ⟨cause, rfl⟩ := hx f hf
  exact of_fault cause

theorem of_refusal {verb : String} {m : Misuse} (h : s.refusal? b verb = some m) :
    Misused (.error (.misuse m none) : Except Failure α) := by
  refine ⟨_, rfl, ?_⟩
  unfold Session.refusal? at h
  split at h
  · split at h
    · obtain rfl := Option.some.inj h
      rfl
    · cases h
  · obtain rfl := Option.some.inj h
    rfl

end Misused

/-- A body that is not none and can not be called either. -/
def Value.Odd (h : Heap) (body : Value) : Prop := body ≠ .null ∧ body.isCallable h = false

theorem Value.not_odd {h : Heap} {body : Value} : ¬body.Odd h ↔ body = .null ∨ body.isCallable h = true := by
  simp [Odd, or_iff_not_imp_left]

section Misuse

variable {s : Session} {b : BuildId} {n : NodeId} {body : Value}

/-- The verb complains of a body that can not be called, with the place of the group. The outline of the
group is all that is made. -/
theorem it_uncallable (hb : s.building = some b) (hn : (s.build b).cursor = some n) (hodd : body.Odd s.heap)
    (hnames : ∀ m node, (s.build b).forest.node? m = some node → ∃ text, node.name.asText? s.heap = some text)
    (description : Value) : ∃ context h, s.heap.Extends h ∧ it b description body s =
      (.error (.misuse (.bodyNotCallable (body.typeName s.heap)) (some context)), { s with heap := h }) := by
  obtain ⟨hnull, hbody⟩ := hodd
  have hname : reading (fun h => (s.build b).forest.qualifiedName h n) s =
      (.ok ((s.build b).forest.pathTo s.heap n).name, s) := by
    rw [reading_apply, Forest.qualifiedName_ok fun node hnode => ?_]
    obtain ⟨m, hm⟩ := Forest.mem_ancestry hnode
    exact hnames m node hm
  have hbuild : Act.build b s = (.ok (s.build b), s) := rfl
  have hgiven : givenOr stub body s = (.ok body, s) := by
    rw [givenOr, if_neg hnull]
    rfl
  rw [it, bind_ok (openGroup_apply hb hn "it"), bind_ok hgiven, addSpec, bind_ok (get_apply s)]
  simp only [hbody, Bool.false_eq_true, if_false, misuseAt]
  rw [bind_ok hbuild, bind_ok hname]
  exact ⟨_, _, (Outline.toValue_reads s.heap ((s.build b).forest.outline n)).1, rfl⟩

theorem it_misused
    (hnames : ∀ m node, (s.build b).forest.node? m = some node → ∃ text, node.name.asText? s.heap = some text)
    (text : String) (body : Value) :
    Misused (it b (.text text) body s).1 ↔ (∃ m, s.refusal? b "it" = some m) ∨ body.Odd s.heap := by
  cases hm : s.refusal? b "it" with
  | some m =>
    rw [it_refused hm]
    exact iff_of_true (Misused.of_refusal hm) (.inl ⟨m, rfl⟩)
  | none =>
    obtain ⟨hb, n, hn⟩ := Session.refusal?_eq_none.mp hm
    by_cases hodd : body.Odd s.heap
    · obtain ⟨context, h, -, hcomplains⟩ := it_uncallable hb hn hodd hnames (.text text)
      rw [hcomplains]
      exact iff_of_true ⟨_, rfl, rfl⟩ (.inr hodd)
    · obtain ⟨h, v, -, -, hdeclares⟩ := it_apply hb hn (Value.not_odd.mp hodd)
        (show Schema.text s.heap (.text text) = .ok text from rfl)
      rw [hdeclares]
      refine iff_of_false (Misused.of_ok _) ?_
      rintro (⟨m, hc⟩ | hc)
      · cases hc
      · exact hodd hc

end Misuse

end Exemplar
