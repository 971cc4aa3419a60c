import Exemplar.Proofs.Store
import Exemplar.Collection.Item

/-! The list of failed assertions can always be written.

What a failing spec shows is a mapping with a list of texts. Making plain data of it and writing
it as a document never fails, so the failure of the spec is never lost to its own message
(`specFailureText_ok`). -/
namespace Exemplar

/-- A mapping that lists texts, as a new object. -/
def Heap.listing (h : Heap) (texts : List String) : Heap × Value :=
  (h.alloc (.list false (texts.map .text))).1.alloc (.mapping false [(.text "failed", .object h.size)])

namespace Heap

variable (h : Heap) (texts : List String)

theorem listing_snd : (h.listing texts).2 = .object (h.size + 1) := by
  simp [listing, alloc, size]

theorem listing_size : (h.listing texts).1.size = h.size + 2 := by
  simp [listing, alloc, size]

theorem listing_list : (h.listing texts).1.cell? (.object h.size) =
    some (.list false (texts.map .text)) := by
  have hlt : h.size < (h.alloc (.list false (texts.map .text))).1.size := by simp [alloc, size]
  exact (get?_alloc_of_lt hlt _).trans (get?_alloc_self h _)

theorem listing_mapping : (h.listing texts).1.cell? (.object (h.size + 1)) =
    some (.mapping false [(.text "failed", .object h.size)]) := by
  have hself := get?_alloc_self (h.alloc (.list false (texts.map .text))).1
    (.mapping false [(.text "failed", .object h.size)])
  rwa [show (h.alloc (.list false (texts.map .text))).1.size = h.size + 1 from Array.size_push ..] at hself

end Heap

theorem mapHeap_texts (depth : Nat) (h : Heap) (texts : List String) :
    mapHeap (Value.plainIn (depth + 1)) h (texts.map .text) = .ok (h, texts.map .text) := by
  induction texts with
  | nil => rfl
  | cons text rest ih =>
    rw [List.map_cons, mapHeap]
    show (mapHeap (Value.plainIn (depth + 1)) h (rest.map .text) >>= fun p =>
      pure (p.1, .text text :: p.2)) = _
    rw [ih]
    rfl

theorem plainIn_list {h : Heap} {r : Ref} {own : Bool} {items : List Value}
    (hc : h.cell? (.object r) = some (.list own items)) (depth : Nat) :
    Value.plainIn (depth + 1) h (.object r) =
      (mapHeap (Value.plainIn depth) h items >>= fun p => pure (p.1.alloc (.list false p.2))) := by
  rw [Value.plainIn.eq_def]
  simp only [hc]

theorem plainIn_mapping {h : Heap} {r : Ref} {ordered : Bool} {entries : List (Value × Value)}
    (hc : h.cell? (.object r) = some (.mapping ordered entries)) (depth : Nat) :
    Value.plainIn (depth + 1) h (.object r) =
      (mapHeap (Value.plainIn depth) h (entries.map (·.2)) >>= fun p =>
        pure (p.1.alloc (.mapping false ((entries.map (·.1)).zip p.2)))) := by
  rw [Value.plainIn.eq_def]
  simp only [hc]

/-- The plain form of a list of texts is such a list again. -/
theorem plain_listing (h : Heap) (texts : List String) :
    (h.listing texts).2.plain (h.listing texts).1 = .ok ((h.listing texts).1.listing texts) := by
  have hlist : Value.plainIn (h.size + 2) (h.listing texts).1 (.object h.size) =
      .ok ((h.listing texts).1.alloc (.list false (texts.map .text))) := by
    rw [plainIn_list (h.listing_list texts), mapHeap_texts]
    rfl
  rw [Value.plain, Heap.listing_snd, Heap.listing_size, plainIn_mapping (h.listing_mapping texts)]
  simp only [List.map_cons, List.map_nil, mapHeap, hlist]
  rfl

namespace Yaml

theorem survey_texts (depth : Nat) (h : Heap) (sights : Sights) (texts : List String) :
    (texts.map Value.text).foldlM (survey h (depth + 1)) sights = .ok sights := by
  induction texts with
  | nil => rfl
  | cons text rest ih =>
    rw [List.map_cons, List.foldlM_cons]
    exact ih

/-- What the survey does at an object that is no scalar. -/
theorem survey_object {h : Heap} {r : Ref} (hs : scalar? h (.object r) = .ok none) (depth : Nat)
    (sights : Sights) :
    survey h (depth + 1) sights (.object r) =
      if (sights.once.contains r && isShareable h (.object r)) = true then
        .ok (if sights.again.contains r then sights else { sights with again := sights.again ++ [r] })
      else match parts? h (.object r) with
        | some parts => parts.foldlM (survey h depth) { sights with once := r :: sights.once }
        | none => (Value.object r).shown h >>= fun text => throw (.fault (.notRepresentable text)) := by
  rw [survey, hs]
  rfl

/-- A container of other objects that can be shown is walked through. -/
theorem survey_parts {h : Heap} {depth : Nat} {sights : Sights} {r : Ref} {parts : List Value}
    (hs : scalar? h (.object r) = .ok none) (ho : r ∉ sights.once)
    (hp : parts? h (.object r) = some parts) :
    survey h (depth + 1) sights (.object r) =
      parts.foldlM (survey h depth) { sights with once := r :: sights.once } := by
  have hc : sights.once.contains r = false := by simpa using ho
  rw [survey_object hs, hc, Bool.false_and, if_neg Bool.false_ne_true, hp]

/-- A list of texts is a document. -/
theorem dump_listing (h : Heap) (texts : List String) :
    ∃ document, dump (h.listing texts).1 (h.listing texts).2 = .ok document := by
  have hlist : ∀ depth sights, h.size ∉ sights.once →
      survey (h.listing texts).1 (depth + 2) sights (.object h.size) =
        .ok { sights with once := h.size :: sights.once } := fun depth sights ho => by
    have hs : scalar? (h.listing texts).1 (.object h.size) = .ok none := by
      simp only [scalar?, Heap.listing_list]
    have hp : parts? (h.listing texts).1 (.object h.size) = some (texts.map .text) := by
      simp only [parts?, Heap.listing_list]
    rw [survey_parts hs ho hp, survey_texts]
  have hmapping : survey (h.listing texts).1 (h.size + 3) {} (.object (h.size + 1)) =
      .ok { once := [h.size, h.size + 1] } := by
    have hs : scalar? (h.listing texts).1 (.object (h.size + 1)) = .ok none := by
      simp only [scalar?, Heap.listing_mapping]
    have hp : parts? (h.listing texts).1 (.object (h.size + 1)) =
        some [.text "failed", .object h.size] := by
      simp only [parts?, Heap.listing_mapping]
      rfl
    rw [survey_parts hs List.not_mem_nil hp]
    show (survey _ (h.size + 2) { once := [h.size + 1] } (.object h.size) >>= pure) = _
    rw [hlist h.size _ (by simp)]
    rfl
  refine ⟨(tree (h.listing texts).1 [] (h.size + 3) [] (.object (h.size + 1))).1.render, ?_⟩
  rw [dump, Node.ofValue?, Heap.listing_snd, Heap.listing_size, hmapping]
  rfl

end Yaml

namespace Context

theorem line_text (h : Heap) (what text : String) :
    ∃ lines, line h what (some (.text text)) = .ok lines := by
  rw [line]
  by_cases ht : text.isEmpty
  · exact ⟨[], by simp [Value.truth, ht]; rfl⟩
  · exact ⟨_, by simp [Value.truth, Value.toText, Value.toTextIn, ht]; rfl⟩

theorem outlineLines_listing (h : Heap) (texts : List String) (group spec : Option Value) :
    ∃ lines, outlineLines (h.listing texts).1 { group, spec, element := some (h.listing texts).2 } =
      .ok lines := by
  obtain ⟨document, hd⟩ := Yaml.dump_listing (h.listing texts).1 texts
  have htruth : (h.listing texts).2.truth (h.listing texts).1 = .ok true := by
    simp only [Heap.listing_snd, Value.truth, Heap.listing_mapping]
    rfl
  refine ⟨((Text.lines document).filter fun l => !(Text.trim l.toList).isEmpty).map
    (outlineIndent ++ ·), ?_⟩
  simp only [outlineLines, htruth, plain_listing]
  show (Yaml.dump ((h.listing texts).1.listing texts).1 ((h.listing texts).1.listing texts).2 >>= _) = _
  rw [hd]
  rfl

end Context

theorem formatError_listing (h : Heap) (texts : List String) (message group spec : String) :
    ∃ places, formatError (h.listing texts).1 (.text message) (some {
        group := some (.text group), spec := some (.text spec), element := some (h.listing texts).2 }) =
      .ok (.text ("\n".intercalate (message :: places))) := by
  obtain ⟨inGroup, hgroup⟩ := Context.line_text (h.listing texts).1 "in group" group
  obtain ⟨onSpec, hspec⟩ := Context.line_text (h.listing texts).1 "on spec" spec
  obtain ⟨outline, houtline⟩ :=
    Context.outlineLines_listing h texts (some (.text group)) (some (.text spec))
  refine ⟨inGroup ++ onSpec ++ outline, ?_⟩
  simp only [formatError, Context.locationLines, hgroup, hspec, houtline]
  rfl

/-- The failure of a spec begins with how many of its assertions failed. -/
theorem specFailureText_ok (h : Heap) (i : Item) (e : ItemEngine) :
    ∃ places, Act.specFailureText h i e =
      .ok (.text ("\n".intercalate (failedCount e.reports :: places))) := by
  obtain ⟨places, hplaces⟩ := formatError_listing h (e.failures.map (·.shownMessage))
    (failedCount e.reports) i.group.name i.test.description
  refine ⟨places, Eq.trans ?_ hplaces⟩
  simp only [Act.specFailureText, Heap.listing, List.map_map, Heap.alloc]
  rfl

end Exemplar
