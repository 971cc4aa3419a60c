import Exemplar.Failure.Located
import Exemplar.Proofs.Displayed
import Exemplar.Proofs.Outlined

/-! When an error can be shown.

An error with a place shows a value below its text. It has a text exactly if the value has a truth value
and, where it is true, can be displayed (`formatError_ok_iff`). An error about a group shows the outline of
the group, and has a text exactly if no name in it is of a class of its own (`errors_shown`). -/
namespace Exemplar

/-! ### Values in a place -/

namespace Context

/-- The name of the group and the description of the spec are texts, if they are known. -/
structure IsNamed (c : Context) : Prop where
  group : ∀ v, c.group = some v → v = .null ∨ ∃ text, v = .text text
  spec : ∀ v, c.spec = some v → v = .null ∨ ∃ text, v = .text text

variable {h : Heap} {c : Context} {v : Value}

theorem line_ok (h : Heap) (what : String) {part : Option Value}
    (hpart : ∀ v, part = some v → v = .null ∨ ∃ text, v = .text text) : ∃ lines, line h what part = .ok lines := by
  cases part with
  | none => exact ⟨[], rfl⟩
  | some v =>
    rcases hpart v rfl with rfl | ⟨text, rfl⟩
    · exact ⟨[], rfl⟩
    · exact line_text h what text

theorem IsNamed.locationLines_ok (hc : c.IsNamed) (h : Heap) : ∃ lines, c.locationLines h = .ok lines := by
  obtain ⟨inGroup, hgroup⟩ := line_ok h "in group" hc.group
  obtain ⟨onSpec, hspec⟩ := line_ok h "on spec" hc.spec
  refine ⟨inGroup ++ onSpec, ?_⟩
  rw [locationLines, hgroup, hspec]
  rfl

/-- The lines of the value are those of its copy, if it is true. -/
theorem outlineLines_ok_iff (hc : c.element = some v) (hv : v.Acyclic h) :
    (∃ lines, c.outlineLines h = .ok lines) ↔ ∃ b, v.truth h = .ok b ∧ (b = true → v.Displays h) := by
  obtain ⟨k, w, hplain, hdump⟩ := hv.plain_dump_iff
  have hlines : c.outlineLines h = v.truth h >>= fun b =>
      if b then Yaml.dump k w >>= fun document =>
        pure (((Text.lines document).filter fun l => !(Text.trim l.toList).isEmpty).map (outlineIndent ++ ·))
      else pure [] := by
    rw [outlineLines, hc]
    simp only [hplain]
    rfl
  rw [hlines, exists_bind_ok_iff]
  refine exists_congr fun b => and_congr_right fun _ => ?_
  cases b with
  | false => exact ⟨fun _ hb => absurd hb Bool.false_ne_true, fun _ => ⟨[], rfl⟩⟩
  | true =>
    rw [if_pos rfl, exists_bind_ok_iff, imp_iff_right rfl, ← hdump]
    exact exists_congr fun document => and_iff_left ⟨_, rfl⟩

end Context

/-- A message with a place is shown exactly if the value there is. -/
theorem formatError_ok_iff {h : Heap} {c : Context} {v : Value} (hc : c.element = some v) (hnamed : c.IsNamed)
    (hv : v.Acyclic h) (message : String) :
    (∃ text, formatError h (.text message) (some c) = .ok (.text text)) ↔
      ∃ b, v.truth h = .ok b ∧ (b = true → v.Displays h) := by
  obtain ⟨places, hplaces⟩ := hnamed.locationLines_ok h
  have hempty : c.isEmpty = false := by simp [Context.isEmpty, hc]
  have hformat : formatError h (.text message) (some c) = c.outlineLines h >>= fun outline =>
      pure (.text (String.intercalate "\n" (message :: places ++ outline))) := by
    rw [formatError]
    simp only [hempty, hplaces]
    rfl
  rw [← Context.outlineLines_ok_iff hc hv, hformat]
  simp only [bind_eq_ok_iff]
  constructor
  · rintro ⟨_, lines, hlines, -⟩
    exact ⟨lines, hlines⟩
  · rintro ⟨lines, hlines⟩
    exact ⟨_, lines, hlines, rfl⟩

/-- The text of an error is the message as it is shown. -/
theorem locatedText_ok_iff (h : Heap) (message : String) (c : Option Context) :
    (∃ text, locatedText h (.text message) c = .ok text) ↔
      ∃ text, formatError h (.text message) c = .ok (.text text) := by
  have htext : ∀ v, formatError h (.text message) c = .ok v → ∃ text, v = .text text := by
    intro v hv
    unfold formatError at hv
    split at hv
    · exact ⟨message, (Except.ok.inj hv).symm⟩
    · split at hv
      · exact ⟨message, (Except.ok.inj hv).symm⟩
      · obtain ⟨places, -, hv⟩ := bind_eq_ok_iff.mp hv
        obtain ⟨outline, -, hv⟩ := bind_eq_ok_iff.mp hv
        exact ⟨_, (Except.ok.inj hv).symm⟩
  rw [locatedText, exists_bind_ok_iff]
  constructor
  · rintro ⟨v, hv, -⟩
    obtain ⟨text, rfl⟩ := htext v hv
    exact ⟨text, hv⟩
  · rintro ⟨text, hformat⟩
    exact ⟨_, hformat, text, rfl⟩

/-! ### Outlines -/

namespace Outline

mutual

/-- The names of a group and of the groups in it. -/
def names : Outline → List Value
  | .group name _ groups => name :: namesAll groups

def namesAll : List Outline → List Value
  | [] => []
  | o :: os => names o ++ namesAll os

end

end Outline

/-- In the store `l` the values are displayed exactly if the names have a form, which they have if they do
in `h`. -/
structure Value.ShowNames (h l : Heap) (vs names : List Value) : Prop where
  acyclic : ∀ v ∈ vs, v.Acyclic l
  displays : (∀ v ∈ vs, v.Displays l) ↔ ∀ name ∈ names, name.HasForm h

namespace Value.ShowNames

variable {h l : Heap} {vs ws ns ms : List Value} {v : Value}

theorem nil : ShowNames h l [] [] := ⟨nofun, by simp⟩

theorem append (a : ShowNames h l vs ns) (b : ShowNames h l ws ms) : ShowNames h l (vs ++ ws) (ns ++ ms) where
  acyclic := List.forall_mem_append.mpr ⟨a.acyclic, b.acyclic⟩
  displays := by rw [List.forall_mem_append, List.forall_mem_append, a.displays, b.displays]

theorem texts (h l : Heap) (texts : List String) : ShowNames h l (texts.map .text) [] where
  acyclic := List.forall_mem_map.mpr fun text _ => .text l text
  displays := by
    have hall : ∀ text ∈ texts, (Value.text text).Displays l := fun text _ =>
      (displays_of_text rfl).mpr (hasForm_text l text)
    simpa using hall

/-- A name has the form that it had before there were more objects. -/
theorem name {text : String} (hv : v.asText? h = some text) (e : h.Extends l) : ShowNames h l [v] [v] where
  acyclic := List.forall_mem_singleton.mpr (.of_text (e.asText? hv))
  displays := by
    have hcell := e.cell?_eq ((Acyclic.of_text hv).known v .refl)
    have hform : v.HasForm l ↔ v.HasForm h :=
      ⟨fun ⟨htext, hint, hdigits⟩ => ⟨hcell ▸ htext, hcell ▸ hint, hdigits⟩,
        fun ⟨htext, hint, hdigits⟩ => ⟨hcell ▸ htext, hcell ▸ hint, hdigits⟩⟩
    rw [List.forall_mem_singleton, List.forall_mem_singleton, displays_of_text (e.asText? hv), hform]

theorem list {own : Bool} (hc : l.cell? v = some (.list own vs)) (a : ShowNames h l vs ns) :
    ShowNames h l [v] ns where
  acyclic := List.forall_mem_singleton.mpr (.list hc a.acyclic)
  displays := by rw [List.forall_mem_singleton, displays_list hc, a.displays]

theorem mapping {ordered : Bool} {entries : List (Value × Value)}
    (hc : l.cell? v = some (.mapping ordered entries)) (hkeys : ∀ e ∈ entries, ∃ key, e.1 = .text key)
    (a : ShowNames h l (entries.map (·.2)) ns) :
    ShowNames h l [v] ns where
  acyclic := by
    refine List.forall_mem_singleton.mpr (.mapping hc fun e he => ⟨?_, a.acyclic _ (List.mem_map_of_mem he)⟩)
    obtain ⟨key, hkey⟩ := hkeys e he
    exact hkey ▸ .text l key
  displays := by
    have hshows : ∀ e ∈ entries, Yaml.Shows l e.1 := fun e he => by
      obtain ⟨key, hkey⟩ := hkeys e he
      exact hkey ▸ Yaml.shows_text l key
    have hvalues := a.displays
    rw [List.forall_mem_map] at hvalues
    rw [List.forall_mem_singleton, displays_mapping hc, hvalues]
    exact and_iff_right hshows

end Value.ShowNames

namespace Outline

open Value

/-- The entry for a list shows what the list shows. -/
theorem optional_showNames (key : String) {h k : Heap} {items ns : List Value}
    (hitems : ∀ l, k.Extends l → ShowNames h l items ns) {l : Heap} (e : (k.optional key items).1.Extends l) :
    (∀ e ∈ (k.optional key items).2, ∃ key, e.1 = .text key) ∧
      ShowNames h l ((k.optional key items).2.map (·.2)) ns := by
  unfold Heap.optional at e ⊢
  split at e
  · rename_i hnil
    rw [if_pos hnil]
    rw [List.isEmpty_iff.mp hnil] at hitems
    exact ⟨fun _ hmem => absurd hmem List.not_mem_nil, hitems l e⟩
  · rename_i hsome
    rw [if_neg hsome]
    have hc : l.cell? (k.alloc (.list false items)).2 = some (.list false items) :=
      e.cell?_some (k.get?_alloc_self _)
    exact ⟨List.forall_mem_singleton.mpr ⟨key, rfl⟩, .list hc (hitems l ((k.extends_alloc _).trans e))⟩

/-- A group shows its name and what the groups in it show. -/
theorem group_showNames {h k l : Heap} (e : h.Extends k) {name : Value} {text : String}
    (htext : name.asText? h = some text) {specs : List String} {groups : List Outline} {inner : Heap × List Value}
    (hinner : toValues (k.optional "it" (specs.map .text)).1 groups = inner)
    (hextends : (k.optional "it" (specs.map .text)).1.Extends inner.1)
    (hgroups : ∀ l, inner.1.Extends l → ShowNames h l inner.2 (namesAll groups))
    (hl : ((group name specs groups).toValue k).1.Extends l) :
    ShowNames h l [((group name specs groups).toValue k).2] (group name specs groups).names := by
  rw [toValue_group] at hl ⊢
  dsimp only at hl ⊢
  rw [hinner] at hl ⊢
  have hspecs := (k.optional_entry "it" (specs.map .text)).1
  have hexamples := (inner.1.optional_entry "examples" inner.2).1
  have hlast := (Heap.extends_alloc _ _).trans hl
  obtain ⟨hitKeys, hits⟩ := optional_showNames "it" (fun l _ => ShowNames.texts h l specs)
    (hextends.trans (hexamples.trans hlast))
  obtain ⟨hexampleKeys, hgroupsShown⟩ := optional_showNames "examples" hgroups hlast
  have hname := ShowNames.name htext (e.trans (hspecs.trans (hextends.trans (hexamples.trans hlast))))
  refine .mapping (hl.cell?_some (Heap.get?_alloc_self _ _)) ?_ ?_
  · exact List.forall_mem_append.mpr ⟨List.forall_mem_cons.mpr ⟨⟨"describe", rfl⟩, hitKeys⟩, hexampleKeys⟩
  · simpa [names] using (hname.append hits).append hgroupsShown

/-- The outline of a group is never empty. -/
theorem toValue_truth (h : Heap) (o : Outline) : (o.toValue h).2.truth (o.toValue h).1 = .ok true := by
  have halloc : ∀ (k : Heap) (e : Value × Value) (entries : List (Value × Value)),
      (Value.object k.size).truth (k.alloc (.mapping false (e :: entries))).1 = .ok true := by
    intro k e entries
    have hcell : (k.alloc (.mapping false (e :: entries))).1.cell? (.object k.size) = _ := k.get?_alloc_self _
    simp only [truth, hcell]
    rfl
  cases o with
  | group name specs groups =>
    rw [toValue_group]
    simp only [List.cons_append]
    exact halloc _ _ _

mutual

/-- A written outline is displayed exactly if the names in it have a form. -/
theorem toValue_showNames {h k : Heap} (e : h.Extends k) : (o : Outline) →
    (∀ name ∈ o.names, ∃ text, name.asText? h = some text) →
    ∀ l, (o.toValue k).1.Extends l → ShowNames h l [(o.toValue k).2] o.names
  | .group _ specs groups, hnames, _, hl =>
    have ⟨⟨_, htext⟩, hbelow⟩ := List.forall_mem_cons.mp hnames
    have hspecs := (k.optional_entry "it" (specs.map .text)).1
    group_showNames e htext rfl (toValues_reads _ groups).1 (toValues_showNames (e.trans hspecs) groups hbelow) hl

theorem toValues_showNames {h k : Heap} (e : h.Extends k) : (os : List Outline) →
    (∀ name ∈ namesAll os, ∃ text, name.asText? h = some text) →
    ∀ l, (toValues k os).1.Extends l → ShowNames h l (toValues k os).2 (namesAll os)
  | [], _, _, _ => .nil
  | o :: os, hnames, l, hl => by
    obtain ⟨hfirst, hrest⟩ := List.forall_mem_append.mp hnames
    have hone := (toValue_reads k o).1
    have hmore := (toValues_reads (o.toValue k).1 os).1
    exact (toValue_showNames e o hfirst l (hmore.trans hl)).append
      (toValues_showNames (e.trans hone) os hrest l hl)

end

end Outline

/-! ### Errors -/

theorem Value.hasForm_iff_text {h : Heap} {v : Value} {text : String} (hv : v.asText? h = some text) :
    v.HasForm h ↔ ∃ s, v = .text s := by
  constructor
  · intro hform
    cases v with
    | text s => exact ⟨s, rfl⟩
    | object r =>
      cases hc : h.cell? (.object r) with
      | none => simp [asText?, hc] at hv
      | some c =>
        cases c with
        | ownText s => exact absurd hc (hform.text s)
        | _ => simp [asText?, hc] at hv
    | _ => cases hv
  · rintro ⟨s, rfl⟩
    exact hasForm_text h s

/-- An error about a group is placed by the name of the group and its outline. -/
theorem LocatedError.ofExample_ok {h k : Heap} {kind : ErrorKind} {message spec : Value} {forest : Forest}
    {n : NodeId} {e : LocatedError} (he : ofExample kind message forest (some n) spec h = (k, .ok e)) :
    ∃ group, k = ((forest.outline n).toValue h).1 ∧ e = { kind, message, context := some {
      group := some (.text group), spec := some spec, element := some ((forest.outline n).toValue h).2 } } := by
  unfold ofExample at he
  split at he
  · cases he
  · dsimp only at he
    split at he
    · cases he
    · rename_i group _
      unfold make at he
      split at he
      · cases he
      · cases he
        exact ⟨group, rfl, rfl⟩

/-- An error about a group has a text exactly if no name in the outline of the group is of a class of its
own. -/
theorem LocatedError.ofExample_text_iff {h k : Heap} {kind : ErrorKind} {message : String} {forest : Forest}
    {n : NodeId} {spec : Value} (hspec : spec = .null ∨ ∃ text, spec = .text text) {e : LocatedError}
    (he : ofExample kind (.text message) forest (some n) spec h = (k, .ok e))
    (hnames : ∀ name ∈ (forest.outline n).names, ∃ text, name.asText? h = some text) :
    (∃ text, e.text k = .ok text) ↔ ∀ name ∈ (forest.outline n).names, ∃ s, name = .text s := by
  obtain ⟨group, rfl, rfl⟩ := ofExample_ok he
  let o := forest.outline n
  obtain ⟨hacyclic, hdisplays⟩ := Outline.toValue_showNames (.refl h) o hnames _ (.refl _)
  have hformat := formatError_ok_iff (c := {
    group := some (.text group), spec := some spec, element := some (o.toValue h).2 }) rfl
    ⟨fun v hv => .inr ⟨group, (Option.some.inj hv).symm⟩, fun v hv => Option.some.inj hv ▸ hspec⟩
    (hacyclic _ (List.mem_singleton_self _)) message
  rw [text, locatedText_ok_iff, hformat, o.toValue_truth h]
  rw [List.forall_mem_singleton] at hdisplays
  simp only [Except.ok.injEq, exists_eq_left', true_implies]
  rw [hdisplays]
  refine forall₂_congr fun name hname => ?_
  obtain ⟨text, htext⟩ := hnames name hname
  exact Value.hasForm_iff_text htext

/-- When an error can be shown. What is shown of an acyclic value is a copy, and it can be written exactly if
nothing that is left in it as it is lacks a form and every key can be written; an error that shows the value
has a text exactly if the value has a truth value and, where it is true, such a copy. An error about a group
has a text exactly if no name in the outline of the group is of a class of its own. -/
theorem errors_shown (h : Heap) (message : String) :
    (∀ v : Value, v.Acyclic h →
      (∃ k w, v.plain h = .ok (k, w) ∧ ((∃ text, Yaml.dump k w = .ok text) ↔ v.Displays h)) ∧
      ∀ c : Context, c.element = some v → c.IsNamed →
        ((∃ text, formatError h (.text message) (some c) = .ok (.text text)) ↔
          ∃ b, v.truth h = .ok b ∧ (b = true → v.Displays h)) ∧
        ∀ kind, (∃ text, LocatedError.text h { kind, message := .text message, context := some c } = .ok text) ↔
          ∃ b, v.truth h = .ok b ∧ (b = true → v.Displays h)) ∧
    ∀ kind forest n spec k e, LocatedError.ofExample kind (.text message) forest (some n) spec h = (k, .ok e) →
      (spec = .null ∨ ∃ text, spec = .text text) →
      (∀ name ∈ (forest.outline n).names, ∃ text, name.asText? h = some text) →
      ((∃ text, e.text k = .ok text) ↔ ∀ name ∈ (forest.outline n).names, ∃ s, name = .text s) := by
  refine ⟨fun v hv => ⟨hv.plain_dump_iff, fun c hc hnamed => ?_⟩,
    fun kind forest n spec k e he hspec hnames => LocatedError.ofExample_text_iff hspec he hnames⟩
  have hformat := formatError_ok_iff hc hnamed hv message
  exact ⟨hformat, fun kind => (locatedText_ok_iff h message (some c)).trans hformat⟩

/-- A mapping from a number to a list with a procedure. -/
def Heap.withProcedure : Heap where
  cells := #[.list false [.noop], .mapping false [(.int 1, .object 0)]]

/-- A group with a spec. -/
def Forest.described : Forest where
  nodes := #[{ name := .text "g", parent := none, specs := [⟨"s", .noop⟩] }]
  roots := [0]

/-- An error shows a value with a procedure in it, and a group. -/
theorem errors_shown_procedure :
    (∃ text, formatError .withProcedure (.text "m") (some { element := some (.object 1) }) = .ok (.text text)) ∧
    ∃ k e, LocatedError.ofExample .dslBuildError (.text "m") .described (some 0) (.text "s") .withProcedure =
      (k, .ok e) ∧ ∃ text, e.text k = .ok text := by
  have hlist : Heap.withProcedure.cell? (.object 0) = some (.list false [.noop]) := rfl
  have hmapping : Heap.withProcedure.cell? (.object 1) = some (.mapping false [(.int 1, .object 0)]) := rfl
  have hacyclic : (Value.object 1).Acyclic .withProcedure :=
    .mapping hmapping (List.forall_mem_singleton.mpr ⟨.leaf nofun rfl,
      .list hlist (List.forall_mem_singleton.mpr (.leaf nofun rfl))⟩)
  have hprocedure : Value.noop.Displays .withProcedure :=
    Value.displays_iff.mpr ⟨⟨⟨nofun, nofun, nofun⟩, nofun⟩, nofun⟩
  have hkey : Yaml.Shows .withProcedure (.int 1) := Yaml.shows_iff.mpr ⟨.inl ⟨_, rfl⟩, nofun⟩
  have hdisplays : (Value.object 1).Displays .withProcedure :=
    (Value.displays_mapping hmapping).mpr ⟨List.forall_mem_singleton.mpr hkey, List.forall_mem_singleton.mpr
      ((Value.displays_list hlist).mpr (List.forall_mem_singleton.mpr hprocedure))⟩
  have hnames : (Forest.described.outline 0).names = [.text "g"] := rfl
  obtain ⟨hvalues, hgroups⟩ := errors_shown .withProcedure "m"
  constructor
  · obtain ⟨hformat, -⟩ := (hvalues _ hacyclic).2 { element := some (.object 1) } rfl ⟨nofun, nofun⟩
    exact hformat.mpr ⟨true, rfl, fun _ => hdisplays⟩
  · refine ⟨_, _, rfl, (hgroups .dslBuildError .described 0 (.text "s") _ _ rfl (.inr ⟨"s", rfl⟩) ?_).mpr ?_⟩
    · rw [hnames]
      exact List.forall_mem_singleton.mpr ⟨"g", rfl⟩
    · rw [hnames]
      exact List.forall_mem_singleton.mpr ⟨"g", rfl⟩

/-- A text of a class of its own, as the value of a mapping and as the key of another. -/
def Heap.withOwnText : Heap where
  cells := #[.ownText "a", .mapping false [(.text "describe", .object 0)], .mapping false [(.object 0, .null)]]

/-- Neither mapping can be shown. -/
theorem own_text_not_shown :
    (Value.object 1).Acyclic .withOwnText ∧ (Value.object 2).Acyclic .withOwnText ∧
    formatError .withOwnText (.text "m") (some { element := some (.object 1) }) =
      .error (.fault (.notRepresentable "'a'")) ∧
    formatError .withOwnText (.text "m") (some { element := some (.object 2) }) =
      .error (.fault (.notRepresentable "'a'")) := by
  have htext : (Value.object 0).asText? .withOwnText = some "a" := rfl
  have hown : (Value.object 0).Acyclic .withOwnText := .of_text htext
  have hvalue : Heap.withOwnText.cell? (.object 1) = some (.mapping false [(.text "describe", .object 0)]) := rfl
  have hkey : Heap.withOwnText.cell? (.object 2) = some (.mapping false [(.object 0, .null)]) := rfl
  refine ⟨.mapping hvalue (List.forall_mem_singleton.mpr ⟨.leaf nofun rfl, hown⟩),
    .mapping hkey (List.forall_mem_singleton.mpr ⟨hown, .leaf nofun rfl⟩), ?_, ?_⟩
  · rfl
  · rfl

end Exemplar
