import Exemplar.Proofs.Compilation
import Exemplar.Proofs.Elements

/-! What outlines list.

An outline is written as mappings within mappings. Read back in order, with the names on the way
down joined, the mappings of a forest list its groups in the order of the walk, each under its
qualified name with the descriptions of its specs (`Forest.Sound.written_contents`). -/
namespace Exemplar

/-- The groups of a specification in order, each with its qualified name and the descriptions of
its specs. -/
abbrev Contents := List (String × List String)

/-! ### Reading -/

/-- The items under a key of a mapping. A list that is left out is empty. -/
def Heap.itemsUnder (h : Heap) (key : String) (entries : List (Value × Value)) : Option (List Value) :=
  match entries.lookup (.text key) with
  | none => some []
  | some v => v.items? h

/-- What an outline mapping lists below the groups `above`, if it is no deeper than `depth`. -/
def Value.contentsIn (h : Heap) : Nat → List String → Value → Option Contents
  | 0, _, _ => none
  | depth + 1, above, v =>
    match h.cell? v with
    | some (.mapping _ entries) => do
      let name ← (← entries.lookup (.text "describe")).asText? h
      let specs ← (← h.itemsUnder "it" entries).mapM (·.asText? h)
      let groups ← (← h.itemsUnder "examples" entries).mapM (Value.contentsIn h depth (above ++ [name]))
      return (Forest.nameSeparator.intercalate (above ++ [name]), specs) :: groups.flatten
    | _ => none

/-- What the outline mappings of the roots list. -/
def Heap.contents (h : Heap) (vs : List Value) : Option Contents :=
  (vs.mapM (Value.contentsIn h h.size [])).map List.flatten

namespace Outline

mutual

/-- What an outline lists below the groups `above`, if the names are texts. -/
def contents (h : Heap) (above : List String) : Outline → Option Contents
  | .group name specs groups => do
    let name ← name.asText? h
    let inner ← contentsAll h (above ++ [name]) groups
    return (Forest.nameSeparator.intercalate (above ++ [name]), specs) :: inner

def contentsAll (h : Heap) (above : List String) : List Outline → Option Contents
  | [] => some []
  | o :: os => do
    let first ← contents h above o
    let rest ← contentsAll h above os
    return first ++ rest

end

end Outline

/-! ### Writing -/

namespace Heap

theorem Extends.asText? {h h' : Heap} (e : h.Extends h') {v : Value} {text : String}
    (hv : v.asText? h = some text) : v.asText? h' = some text := by
  cases hc : h.cell? v with
  | none => cases v <;> simp_all [Value.asText?]
  | some c => simpa [Value.asText?, hc, e.cell?_some hc] using hv

/-- The entry for a list, which is left out if the list is empty. -/
def optional (h : Heap) (key : String) (items : List Value) : Heap × List (Value × Value) :=
  if items.isEmpty then (h, [])
  else ((h.alloc (.list false items)).1, [(.text key, (h.alloc (.list false items)).2)])

/-- The entry says that these are the items. -/
inductive Entry (h : Heap) (key : String) (items : List Value) : List (Value × Value) → Prop
  | none : items = [] → Entry h key items []
  | some {v : Value} : v.items? h = some items → Entry h key items [(.text key, v)]

theorem optional_entry (h : Heap) (key : String) (items : List Value) :
    h.Extends (h.optional key items).1 ∧
      Entry (h.optional key items).1 key items (h.optional key items).2 := by
  unfold optional
  split
  · rename_i hnil
    exact ⟨.refl h, .none (List.isEmpty_iff.mp hnil)⟩
  · have hcell : (h.alloc (.list false items)).1.cell? (h.alloc (.list false items)).2 =
        Option.some (.list false items) := h.get?_alloc_self _
    exact ⟨h.extends_alloc _, .some (by rw [Value.items?, hcell])⟩

theorem Entry.later {h h' : Heap} {key : String} {items : List Value} {entries : List (Value × Value)}
    (hi : Entry h key items entries) (e : h.Extends h') : Entry h' key items entries := by
  cases hi with
  | none hnil => exact .none hnil
  | some hv => exact .some (e.items? hv)

/-- The keys of an outline mapping are found. -/
theorem Entry.found {h : Heap} {specs groups : List Value} {its examples : List (Value × Value)}
    (hits : Entry h "it" specs its) (hexamples : Entry h "examples" groups examples) (name : Value) :
    let entries := (Value.text "describe", name) :: its ++ examples
    entries.lookup (.text "describe") = .some name ∧ h.itemsUnder "it" entries = .some specs ∧
      h.itemsUnder "examples" entries = .some groups := by
  have hit : (Value.text "it" == Value.text "describe") = false := by decide
  have hex : (Value.text "examples" == Value.text "describe") = false := by decide
  have hne : (Value.text "examples" == Value.text "it") = false := by decide
  have hen : (Value.text "it" == Value.text "examples") = false := by decide
  cases hits with
  | none hspecs =>
    cases hexamples with
    | none hgroups => simp [itemsUnder, hit, hex, hspecs, hgroups]
    | some hv => simp [itemsUnder, List.lookup_cons, hit, hex, hen, hspecs, hv]
  | some hu =>
    cases hexamples with
    | none hgroups => simp [itemsUnder, List.lookup_cons, hit, hex, hne, hgroups, hu]
    | some hv => simp [itemsUnder, List.lookup_cons, hit, hex, hne, hu, hv]

end Heap

namespace Outline

theorem toValue_group (h : Heap) (name : Value) (specs : List String) (groups : List Outline) :
    (Outline.group name specs groups).toValue h =
      let its := h.optional "it" (specs.map .text)
      let inner := toValues its.1 groups
      let examples := inner.1.optional "examples" inner.2
      examples.1.alloc (.mapping false ((.text "describe", name) :: its.2 ++ examples.2)) := by
  simp only [toValue, Heap.optional, List.isEmpty_map]

/-- In every later store `v` reads as `o`. -/
def WrittenAs (h : Heap) (o : Outline) (v : Value) : Prop :=
  ∃ r, v = .object r ∧ r < h.size ∧ ∀ h', h.Extends h' → ∀ depth, r < depth →
    ∀ above, v.contentsIn h' depth above = o.contents h' above

theorem WrittenAs.later {h h' : Heap} {o : Outline} {v : Value} (hv : o.WrittenAs h v)
    (he : h.Extends h') : o.WrittenAs h' v := by
  obtain ⟨r, hr, hlt, hread⟩ := hv
  exact ⟨r, hr, Nat.lt_of_lt_of_le hlt he.size_le, fun h'' he' => hread h'' (he.trans he')⟩

theorem WrittenAs.all {h h' : Heap} {os : List Outline} {vs : List Value}
    (hvs : List.Forall₂ (WrittenAs h) os vs) (he : h.Extends h') {depth : Nat} (hd : h.size ≤ depth)
    (above : List String) :
    (vs.mapM (Value.contentsIn h' depth above)).map List.flatten = contentsAll h' above os := by
  induction hvs with
  | nil => rfl
  | @cons o v os vs hv _ ih =>
    obtain ⟨r, -, hlt, hread⟩ := hv
    rw [List.mapM_cons, contentsAll, hread h' he depth (Nat.lt_of_lt_of_le hlt hd) above, ← ih]
    cases o.contents h' above with
    | none => rfl
    | some first => cases vs.mapM (Value.contentsIn h' depth above) <;> rfl

theorem mapM_texts (h : Heap) (texts : List String) :
    (texts.map Value.text).mapM (·.asText? h) = some texts := by
  induction texts with
  | nil => rfl
  | cons text rest ih =>
    rw [List.map_cons, List.mapM_cons, ih]
    rfl

/-- A group reads as itself if the groups in it do. -/
theorem group_reads {h : Heap} {name : Value} {specs : List String} {groups : List Outline}
    {inner : Heap × List Value} (hinner : toValues (h.optional "it" (specs.map .text)).1 groups = inner)
    (hextends : (h.optional "it" (specs.map .text)).1.Extends inner.1)
    (hwritten : List.Forall₂ (WrittenAs inner.1) groups inner.2) :
    h.Extends ((group name specs groups).toValue h).1 ∧
      (group name specs groups).WrittenAs ((group name specs groups).toValue h).1
        ((group name specs groups).toValue h).2 := by
  rw [toValue_group]
  dsimp only
  rw [hinner]
  obtain ⟨hspecs, hits⟩ := h.optional_entry "it" (specs.map .text)
  obtain ⟨hgroups, hexamples⟩ := inner.1.optional_entry "examples" inner.2
  generalize h.optional "it" (specs.map .text) = its at hextends hspecs hits ⊢
  generalize inner.1.optional "examples" inner.2 = examples at hgroups hexamples ⊢
  have hself := examples.1.get?_alloc_self
    (.mapping false ((.text "describe", name) :: its.2 ++ examples.2))
  have hlast := examples.1.extends_alloc (.mapping false ((.text "describe", name) :: its.2 ++ examples.2))
  refine ⟨hspecs.trans (hextends.trans (hgroups.trans hlast)), examples.1.size, rfl, Heap.get?_lt hself,
    fun h' e depth hd above => ?_⟩
  obtain ⟨depth, rfl⟩ := Nat.exists_eq_succ_of_ne_zero (Nat.ne_zero_of_lt hd)
  have hcell : h'.cell? (.object examples.1.size) = _ := e _ _ hself
  have hlater := hlast.trans e
  obtain ⟨hname, hit, hex⟩ := (hits.later (hextends.trans (hgroups.trans hlater))).found
    (hexamples.later hlater) name
  have hbelow := WrittenAs.all hwritten (hgroups.trans hlater)
    (Nat.le_trans hgroups.size_le (Nat.le_of_lt_succ hd))
  show Value.contentsIn h' (depth + 1) above (.object examples.1.size) = _
  rw [Value.contentsIn, hcell, contents]
  simp only [hname, hit, hex, mapM_texts, ← hbelow, Option.bind_eq_bind, Option.bind_some, Option.bind_map,
    Function.comp_def]

mutual

/-- A written outline reads as itself. -/
theorem toValue_reads (h : Heap) : (o : Outline) →
    h.Extends (o.toValue h).1 ∧ o.WrittenAs (o.toValue h).1 (o.toValue h).2
  | .group _ specs groups =>
    have hinner := toValues_reads (h.optional "it" (specs.map .text)).1 groups
    group_reads rfl hinner.1 hinner.2

theorem toValues_reads (h : Heap) : (os : List Outline) →
    h.Extends (toValues h os).1 ∧ List.Forall₂ (WrittenAs (toValues h os).1) os (toValues h os).2
  | [] => ⟨.refl h, .nil⟩
  | o :: os =>
    have hfirst := toValue_reads h o
    have hrest := toValues_reads (o.toValue h).1 os
    ⟨hfirst.1.trans hrest.1, .cons (hfirst.2.later hrest.1) hrest.2⟩

end

end Outline

/-! ### The outlines of a forest -/

namespace Forest

variable {f : Forest}

/-- A group as it is listed. -/
def entry (h : Heap) (f : Forest) (n : NodeId) : String × List String :=
  ((f.pathTo h n).name, (f.specs n).map (·.description))

/-- The groups of a forest in the order of the walk down. -/
def contents (h : Heap) (f : Forest) : Contents := f.preorder.map (f.entry h)

/-- All groups have a text as their name. -/
def Named (h : Heap) (f : Forest) : Prop :=
  ∀ n node, f.node? n = some node → ∃ text, node.name.asText? h = some text

/-- The groups have the same names in both stores. -/
def SameNames (h h' : Heap) (f : Forest) : Prop :=
  ∀ n node, f.node? n = some node → node.name.asText? h' = node.name.asText? h

theorem SameNames.contents {h h' : Heap} (hs : f.SameNames h h') : f.contents h' = f.contents h := by
  have hnames : ∀ n, (f.pathTo h' n).names = (f.pathTo h n).names := fun n => by
    refine congrArg List.reverse (List.map_congr_left fun node hn => ?_)
    obtain ⟨m, hm⟩ := mem_ancestry hn
    rw [nameOf, nameOf, hs m node hm]
  refine List.map_congr_left fun n _ => ?_
  rw [entry, entry, Path.name, Path.name, hnames]

theorem Named.sameNames {h h' : Heap} (hn : f.Named h) (e : h.Extends h') : f.SameNames h h' := by
  intro n node hnode
  obtain ⟨text, ht⟩ := hn n node hnode
  rw [ht, e.asText? ht]

theorem Named.of_same {h h' : Heap} (hn : f.Named h) (hs : f.SameNames h h') : f.Named h' := by
  intro n node hnode
  rw [hs n node hnode]
  exact hn n node hnode

/-- The names on the way through a node. -/
theorem Sound.names_pathTo (hf : f.Sound) {h : Heap} {n : Nat} {node : Node} (hn : f.node? n = some node)
    {text : String} (ht : node.name.asText? h = some text) :
    (f.pathTo h n).names = (f.pathBelow h (f.parent? n)).names ++ [text] := by
  have hlt : n < f.size := (Array.getElem?_eq_some_iff.mp hn).1
  rw [← hf.through_pathBelow h hlt, through, hn]
  simp [Path.enter, nameOf, ht]

theorem contentsAll_map {h : Heap} {above : List String} {ns : List NodeId} {outline : NodeId → Outline}
    {contents : NodeId → Contents} (hc : ∀ n ∈ ns, (outline n).contents h above = some (contents n)) :
    Outline.contentsAll h above (ns.map outline) = some (ns.flatMap contents) := by
  induction ns with
  | nil => rfl
  | cons n rest ih =>
    rw [List.map_cons, Outline.contentsAll, hc n List.mem_cons_self,
      ih fun m hm => hc m (List.mem_cons_of_mem _ hm), List.flatMap_cons]
    rfl

/-- An outline that goes deep enough lists the walk down from its node. -/
theorem Sound.outlineIn_contents (hf : f.Sound) {h : Heap} (hn : f.Named h) {d n : Nat} (hd : f.size ≤ n + d)
    (hlt : n < f.size) : (f.outlineIn d n).contents h (f.pathBelow h (f.parent? n)).names =
      some ((f.walk n).map (f.entry h)) := by
  induction d generalizing n with
  | zero => omega
  | succ d ih =>
    obtain ⟨node, hnode⟩ := exists_node hlt
    obtain ⟨text, htext⟩ := hn n node hnode
    have hpath := hf.names_pathTo hnode htext
    have hchildren : f.children n = node.children := by rw [children, hnode]; rfl
    have hspecs : f.specs n = node.specs := by rw [specs, hnode]; rfl
    have hinner : Outline.contentsAll h (f.pathTo h n).names (node.children.map (f.outlineIn d)) =
        some ((f.children n).flatMap fun c => (f.walk c).map (f.entry h)) := by
      rw [← hchildren]
      refine contentsAll_map fun c hc => ?_
      have hbelow := ih (by have := hf.lt_size hc; omega) (hf.lt_size hc).2
      rwa [hf.listed.mp hc] at hbelow
    rw [outlineIn, hnode, hf.walk_eq, List.map_cons, List.map_flatMap, entry, Path.name, hspecs]
    simp only [Outline.contents, htext, ← hpath, hinner, Option.bind_eq_bind, Option.bind_some]
    rfl

/-- The outlines of a forest list its groups in the order of the walk. -/
theorem Sound.outlines_contents (hf : f.Sound) {h : Heap} (hn : f.Named h) :
    Outline.contentsAll h [] f.outlines = some (f.contents h) := by
  rw [outlines, contents, preorder, List.map_flatMap]
  refine contentsAll_map fun r hr => ?_
  have hroot := hf.outlineIn_contents hn (Nat.le_add_left _ _) (hf.root.mp hr).1
  rwa [(hf.root.mp hr).2] at hroot

end Forest

/-! ### The outlines as values -/

theorem Act.outlines_apply (f : Forest) (s : Session) : outlines f s =
    (.ok (Outline.toValues s.heap f.outlines).2,
      { s with heap := (Outline.toValues s.heap f.outlines).1 }) := rfl

/-- The mappings that stand for a forest read as its groups, now and later. -/
theorem Forest.Sound.written_contents {f : Forest} (hf : f.Sound) {h h' : Heap} (hn : f.Named h)
    (e : (Outline.toValues h f.outlines).1.Extends h') :
    h'.contents (Outline.toValues h f.outlines).2 = some (f.contents h) := by
  obtain ⟨hextends, hwritten⟩ := Outline.toValues_reads h f.outlines
  have hsame := hn.sameNames (hextends.trans e)
  rw [Heap.contents, Outline.WrittenAs.all hwritten e e.size_le, hf.outlines_contents (hn.of_same hsame),
    hsame.contents]

end Exemplar
