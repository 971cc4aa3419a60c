import Exemplar.Proofs.DeepEqual
import Exemplar.Proofs.Equality

/-! Object graphs.

A part of the store is a `Heap.Graph` if each of its values is a leaf, a list, a tuple, a
dictionary, a set or a plain object, with all its parts in the graph. Parts may be shared, and
lists, dictionaries and objects may contain themselves; keys and items of sets are acyclic.

What a node holds is the same whether it is the actual or the expected value (`Value.Node.of_entries`
and its siblings), so in a graph everything that has to be compared by `==` can be compared, and
structural equality answers (`Heap.Graph.deepEqual_iff`). -/
namespace Exemplar

/-- Classes whose objects are compared by identity or by their attributes. -/
def ObjectClass.isPlain : ObjectClass → Bool
  | point | otherPoint | box => true
  | _ => false

namespace Value

variable (h : Heap)

/-- Plain data without parts. -/
inductive IsScalar : Value → Prop
  | null : IsScalar .null
  | bool (b : Bool) : IsScalar (.bool b)
  | int (i : Int) : IsScalar (.int i)
  | text (s : String) : IsScalar (.text s)
  | bytes (bs : List UInt8) : IsScalar (.bytes bs)
  | float {v x} : h.cell? v = some (.float x) → IsScalar v

/-- Objects that keep attributes, of which they have none, and have content besides: texts and
integers of classes of their own, and errors. -/
inductive IsSealed : Value → Prop
  | text {v s} : h.cell? v = some (.ownText s) → IsSealed v
  | int {v i} : h.cell? v = some (.ownInt i) → IsSealed v
  | error {v kind args} : h.cell? v = some (.error kind args) → kind.isLocated = false → IsSealed v

/-- Values without parts. -/
def IsLeaf (v : Value) : Prop := v.IsScalar h ∨ v.IsSealed h

/-- The types of plain data, which keeps no attributes. -/
def builtinTypes : List String :=
  ["NoneType", "bool", "int", "str", "bytes", "float", "list", "tuple", "dict", "set", "frozenset"]

/-- One value of an object graph, with its parts in `G`. -/
inductive Node (G : Value → Prop) : Value → Prop
  | leaf {v} : v.IsLeaf h → Node G v
  | list {v items} : h.cell? v = some (.list false items) → (∀ x ∈ items, G x) → Node G v
  | tuple {v items} : h.cell? v = some (.tuple false items) → (∀ x ∈ items, G x) → Node G v
  | mapping {v entries} : h.cell? v = some (.mapping false entries) → Keyed h Prod.fst (Ground h) entries →
      (∀ e ∈ entries, G e.2) → Node G v
  | set {v frozen items} : h.cell? v = some (.set frozen items) → Keyed h id (Ground h) items → Node G v
  | object {v c attributes} : h.cell? v = some (.record c attributes) → c.isPlain = true →
      (attributes.map (·.1)).Nodup → (∀ e ∈ attributes, G e.2) → Node G v

end Value

/-- Every value of `G` is a node, and its parts are in `G`. -/
def Heap.Graph (h : Heap) (G : Value → Prop) : Prop := ∀ v, G v → v.Node h G

namespace Value

variable {h : Heap} {G : Value → Prop} {v x y : Value}

theorem typeName_of_cell {c : Cell} (hv : h.cell? v = some c) : v.typeName h = c.typeName := by
  obtain ⟨r, rfl⟩ := eq_object_of_cell hv
  rw [typeName, hv]
  rfl

/-! ### Leaves -/

theorem IsSimple.of_cell {c : Cell} (hv : h.cell? v = some c) (hc : ∀ cls attributes, c ≠ .record cls attributes)
    (hatom : c.face.isAtom = true) (htidy : c.face.Tidy h) : v.IsSimple h where
  passive := passive_of_cell hv hc
  atom := by rw [face_of_cell hv, hatom]
  tidy := by rwa [face_of_cell hv]

theorem IsScalar.simple (hv : v.IsScalar h) : v.IsSimple h := by
  cases hv with
  | float hcell => exact .of_cell hcell nofun rfl ⟨Binary64.exact_isProper _, Nat.one_ne_zero⟩
  | null => exact ⟨nofun, rfl, trivial⟩
  | bool => exact ⟨nofun, rfl, Nat.one_ne_zero, Nat.one_ne_zero⟩
  | int => exact ⟨nofun, rfl, Nat.one_ne_zero, Nat.one_ne_zero⟩
  | text => exact ⟨nofun, rfl, trivial⟩
  | bytes => exact ⟨nofun, rfl, trivial⟩

theorem IsSealed.simple (hv : v.IsSealed h) : v.IsSimple h := by
  cases hv with
  | text hcell => exact .of_cell hcell nofun rfl trivial
  | int hcell => exact .of_cell hcell nofun rfl ⟨Nat.one_ne_zero, Nat.one_ne_zero⟩
  | error hcell _ => exact .of_cell hcell nofun rfl trivial

theorem IsScalar.manner (hv : v.IsScalar h) : v.manner h = .equality := by
  cases hv with
  | float hcell =>
    obtain ⟨r, rfl⟩ := eq_object_of_cell hcell
    simp only [Value.manner, attributes?, hcell]
  | _ => rfl

theorem IsScalar.attributes (hv : v.IsScalar h) : v.attributes? h = none := by
  cases hv with
  | float hcell =>
    obtain ⟨r, rfl⟩ := eq_object_of_cell hcell
    simp only [attributes?, hcell]
  | _ => rfl

theorem IsScalar.typeName (hv : v.IsScalar h) : v.typeName h ∈ builtinTypes := by
  cases hv with
  | float hcell =>
    rw [typeName_of_cell hcell]
    simp [Cell.typeName, builtinTypes]
  | _ => simp [Value.typeName, builtinTypes]

theorem IsSealed.attributes (hv : v.IsSealed h) : v.attributes? h = some [] := by
  cases hv with
  | text hcell | int hcell =>
    obtain ⟨r, rfl⟩ := eq_object_of_cell hcell
    simp only [attributes?, hcell]
  | error hcell hkind =>
    obtain ⟨r, rfl⟩ := eq_object_of_cell hcell
    simp [attributes?, hcell, hkind]

theorem IsSealed.typeName (hv : v.IsSealed h) : v.typeName h ∉ builtinTypes := by
  cases hv with
  | text hcell | int hcell =>
    rw [typeName_of_cell hcell]
    simp [Cell.typeName, builtinTypes]
  | @error kind args hcell _ =>
    rw [typeName_of_cell hcell]
    cases kind <;> simp [Cell.typeName, ErrorKind.name, builtinTypes]

theorem IsSealed.manner (hv : v.IsSealed h) : v.manner h = .attributes [] := by
  have hattributes := hv.attributes
  cases hv with
  | text hcell | int hcell | error hcell _ =>
    obtain ⟨r, rfl⟩ := eq_object_of_cell hcell
    simp [Value.manner, hattributes, hcell, isCallable]

theorem IsLeaf.simple (hv : v.IsLeaf h) : v.IsSimple h := hv.elim IsScalar.simple IsSealed.simple

/-- What is no container has neither entries nor items. -/
theorem of_isAtom (hv : (v.face h).isAtom = true) :
    v.entries? h = none ∧ v.items? h = none ∧ v.isSet h = false := by
  unfold entries? items? isSet
  cases hcell : h.cell? v with
  | none => exact ⟨rfl, rfl, rfl⟩
  | some c =>
    rw [face_of_cell hcell] at hv
    cases c <;> first | exact ⟨rfl, rfl, rfl⟩ | cases hv

/-! ### Nodes -/

section Cells

variable {own frozen ordered : Bool} {items : List Value} {entries : List (Value × Value)} {c : ObjectClass}
  {attributes : List (String × Value)}

theorem manner_of_list (hv : h.cell? v = some (.list own items)) : v.manner h = .items items := by
  rw [manner, hv]

theorem manner_of_tuple (hv : h.cell? v = some (.tuple own items)) : v.manner h = .items items := by
  rw [manner, hv]

theorem manner_of_mapping (hv : h.cell? v = some (.mapping ordered entries)) : v.manner h = .entries entries := by
  rw [manner, hv]

theorem manner_of_set (hv : h.cell? v = some (.set frozen items)) : v.manner h = .set := by
  rw [manner, hv]

theorem attributes_of_object (hv : h.cell? v = some (.record c attributes)) (hc : c.isPlain = true) :
    v.attributes? h = some attributes := by
  obtain ⟨r, rfl⟩ := eq_object_of_cell hv
  have hkeeps : c.hasAttributes = true := by cases c <;> first | rfl | cases hc
  simp only [attributes?, hv, hkeeps, if_true]

theorem manner_of_object (hv : h.cell? v = some (.record c attributes)) (hc : c.isPlain = true) :
    v.manner h = .attributes attributes := by
  have hattributes := attributes_of_object hv hc
  obtain ⟨r, rfl⟩ := eq_object_of_cell hv
  have hcall : (object r).isCallable h = false := by
    cases c <;> try cases hc
    all_goals simp [isCallable, hv]
  rw [manner, hv]
  simp [hattributes, hcall]

end Cells

theorem face_of_entries {es : List (Value × Value)} (hes : x.entries? h = some es) :
    ∃ ordered, x.face h = .mapping ordered es := by
  unfold entries? at hes
  split at hes
  · rename_i hcell
    cases hes
    exact ⟨_, face_of_cell hcell⟩
  · cases hes

theorem items_of_face {items : List Value}
    (hx : x.face h = .list items ∨ x.face h = .tuple items) : x.items? h = some items := by
  unfold items?
  rcases hx with hx | hx
  · obtain ⟨own, hcell⟩ := cell_of_list hx
    rw [hcell]
  · obtain ⟨own, hcell⟩ := cell_of_tuple hx
    rw [hcell]

theorem attributes_of_manner {attributes : List (String × Value)} (hx : x.manner h = .attributes attributes) :
    x.attributes? h = some attributes := by
  unfold manner at hx
  split at hx
  case h_5 =>
    split at hx
    · rename_i hattributes
      split at hx
      · cases hx
      · cases hx
        exact hattributes
    · cases hx
  all_goals cases hx

theorem isSet_of_manner (hx : x.manner h = .set) : x.isSet h = true := by
  unfold manner at hx
  split at hx
  case h_4 =>
    rename_i hcell
    rw [isSet, hcell]
  case h_5 =>
    split at hx
    · split at hx <;> cases hx
    · cases hx
  all_goals cases hx

/-! ### What a node holds -/

namespace Node

theorem passive (hx : x.Node h G) : x.Passive h := by
  cases hx with
  | leaf hx => exact hx.simple.passive
  | list hcell _ | tuple hcell _ | mapping hcell _ _ | set hcell _ => exact passive_of_cell hcell nofun
  | @object c attributes hcell hc _ _ =>
    intro c' attributes' hrecord
    rw [hcell] at hrecord
    cases hrecord
    cases c <;> first | rfl | cases hc

/-- The containers of a graph keep no attributes. -/
theorem bare (hx : x.Node h G) (hface : (x.face h).isAtom = false) :
    x.attributes? h = none ∧ x.typeName h ∈ builtinTypes := by
  cases hx with
  | leaf hx => simp [hx.simple.atom] at hface
  | object hcell _ _ _ =>
    rw [face_of_cell hcell] at hface
    cases hface
  | @set frozen items hcell _ =>
    rw [typeName_of_cell hcell]
    obtain ⟨r, rfl⟩ := eq_object_of_cell hcell
    cases frozen <;> simp [attributes?, hcell, Cell.typeName, builtinTypes]
  | list hcell _ | tuple hcell _ | mapping hcell _ _ =>
    rw [typeName_of_cell hcell]
    obtain ⟨r, rfl⟩ := eq_object_of_cell hcell
    simp [attributes?, hcell, Cell.typeName, builtinTypes]

theorem of_entries (hx : x.Node h G) {es : List (Value × Value)}
    (hes : x.entries? h = some es) :
    x.manner h = .entries es ∧ Keyed h Prod.fst (Ground h) es ∧ ∀ e ∈ es, G e.2 := by
  cases hx with
  | leaf hx => simp [(of_isAtom hx.simple.atom).1] at hes
  | mapping hcell hkeys hvalues =>
    rw [entries?, hcell] at hes
    cases hes
    exact ⟨manner_of_mapping hcell, hkeys, hvalues⟩
  | list hcell _ | tuple hcell _ | set hcell _ | object hcell _ _ _ => simp [entries?, hcell] at hes

theorem of_items (hx : x.Node h G) {items : List Value}
    (hitems : x.items? h = some items) : x.manner h = .items items ∧ ∀ v ∈ items, G v := by
  cases hx with
  | leaf hx => simp [(of_isAtom hx.simple.atom).2.1] at hitems
  | list hcell hall =>
    rw [items?, hcell] at hitems
    cases hitems
    exact ⟨manner_of_list hcell, hall⟩
  | tuple hcell hall =>
    rw [items?, hcell] at hitems
    cases hitems
    exact ⟨manner_of_tuple hcell, hall⟩
  | mapping hcell _ _ | set hcell _ | object hcell _ _ _ => simp [items?, hcell] at hitems

/-- The type of a sequence in a graph tells its face. -/
theorem sequence (hx : x.Node h G) {items : List Value}
    (hitems : x.items? h = some items) :
    x.typeName h = "list" ∧ x.face h = .list items ∨ x.typeName h = "tuple" ∧ x.face h = .tuple items := by
  cases hx with
  | leaf hx => simp [(of_isAtom hx.simple.atom).2.1] at hitems
  | list hcell _ =>
    rw [items?, hcell] at hitems
    cases hitems
    exact .inl ⟨typeName_of_cell hcell, face_of_cell hcell⟩
  | tuple hcell _ =>
    rw [items?, hcell] at hitems
    cases hitems
    exact .inr ⟨typeName_of_cell hcell, face_of_cell hcell⟩
  | mapping hcell _ _ | set hcell _ | object hcell _ _ _ => simp [items?, hcell] at hitems

theorem of_isSet (hx : x.Node h G) (hset : x.isSet h = true) :
    x.manner h = .set ∧ x.Ground h := by
  cases hx with
  | leaf hx => simp [(of_isAtom hx.simple.atom).2.2] at hset
  | set hcell hitems => exact ⟨manner_of_set hcell, .set hcell hitems.distinct hitems.keys⟩
  | list hcell _ | tuple hcell _ | mapping hcell _ _ | object hcell _ _ _ => simp [isSet, hcell] at hset

theorem of_attributes (hx : x.Node h G) {as : List (String × Value)}
    (has : x.attributes? h = some as) :
    x.manner h = .attributes as ∧ (as.map (·.1)).Nodup ∧ ∀ e ∈ as, G e.2 := by
  have hbare := hx.bare
  cases hx with
  | leaf hx =>
    rcases hx with hx | hx
    · simp [hx.attributes] at has
    · rw [hx.attributes] at has
      cases has
      exact ⟨hx.manner, .nil, nofun⟩
  | object hcell hc hnames hvalues =>
    rw [attributes_of_object hcell hc] at has
    cases has
    exact ⟨manner_of_object hcell hc, hnames, hvalues⟩
  | list hcell _ | tuple hcell _ | mapping hcell _ _ | set hcell _ =>
    simp [(hbare (by rw [face_of_cell hcell]; rfl)).1] at has

theorem of_equality (hx : x.Node h G) (hm : x.manner h = .equality) :
    x.IsScalar h := by
  cases hx with
  | leaf hx => exact hx.resolve_right fun hsealed => by rw [hsealed.manner] at hm; cases hm
  | list hcell _ => rw [manner_of_list hcell] at hm; cases hm
  | tuple hcell _ => rw [manner_of_tuple hcell] at hm; cases hm
  | mapping hcell _ _ => rw [manner_of_mapping hcell] at hm; cases hm
  | set hcell _ => rw [manner_of_set hcell] at hm; cases hm
  | object hcell hc _ _ => rw [manner_of_object hcell hc] at hm; cases hm

theorem key_ground (hx : x.Node h G) {k : Value} (hk : k ∈ x.keys h) : k.Ground h := by
  cases hes : x.entries? h with
  | none => simp [Value.keys, hes] at hk
  | some es =>
    obtain ⟨e, he, rfl⟩ : ∃ e ∈ es, e.1 = k := by simpa [Value.keys, hes] using hk
    exact (hx.of_entries hes).2.1.keys e he

/-- The type tells whether a value keeps attributes. -/
theorem attributes_iff (hx : x.Node h G) :
    (∃ as, x.attributes? h = some as) ↔ x.typeName h ∉ builtinTypes := by
  have hbare := hx.bare
  cases hx with
  | leaf hx =>
    rcases hx with hx | hx
    · exact iff_of_false (by simp [hx.attributes]) (not_not.mpr hx.typeName)
    · exact iff_of_true ⟨_, hx.attributes⟩ hx.typeName
  | @object c attributes hcell hc _ _ =>
    refine iff_of_true ⟨_, attributes_of_object hcell hc⟩ ?_
    rw [typeName_of_cell hcell]
    cases c <;> try cases hc
    all_goals simp [Cell.typeName, ObjectClass.name, builtinTypes]
  | list hcell _ | tuple hcell _ | mapping hcell _ _ | set hcell _ =>
    obtain ⟨hnone, htype⟩ := hbare (by rw [face_of_cell hcell]; rfl)
    exact iff_of_false (by simp [hnone]) (not_not.mpr htype)

end Node

/-! ### Equality with a leaf -/

/-- Whatever it is compared with, a value that is no container is equal to what has an equal face. -/
theorem equal_atom (hx : x.Passive h) (hy : y.Passive h) (hatom : (y.face h).isAtom = true) :
    ∃ r, x.equal h y = .ok r ∧ (r = true → x = y ∨ (x.face h).Equal h (y.face h)) := by
  obtain ⟨d, hd, -⟩ := exists_depth h
  rw [equal, hd, equalIn_succ hx hy]
  cases hf : x.face h <;> cases hg : y.face h <;> rw [hg] at hatom <;> try cases hatom
  case number.number re im re' im' =>
    exact ⟨_, rfl, fun hr => .inr (Bool.and_eq_true_iff.mp hr)⟩
  case text.text s t => exact ⟨decide (s = t), rfl, fun hr => .inr (of_decide_eq_true hr : s = t)⟩
  all_goals exact ⟨_, rfl, fun hr => .inl (of_decide_eq_true hr)⟩

theorem Node.leaf_of_face (hx : x.Node h G) (hatom : (y.face h).isAtom = true)
    (hxy : (x.face h).Equal h (y.face h)) : x.IsLeaf h := by
  have hatom := hxy.isAtom hatom
  cases hx with
  | leaf hx => exact hx
  | list hcell _ | tuple hcell _ | mapping hcell _ _ | set hcell _ =>
    rw [face_of_cell hcell] at hatom
    cases hatom
  | object hcell _ _ _ =>
    rw [face_of_cell hcell] at hxy
    exact hxy.elim

/-- Only a leaf is the same as a leaf. -/
theorem Node.leaf_of_same (hx : x.Node h G) (hy : y.IsLeaf h) (hxy : x.Same h y) : x.IsLeaf h := by
  rcases Value.same_iff.mp hxy with rfl | hequal
  · exact hy
  · obtain ⟨r, hr, hface⟩ := equal_atom hx.passive hy.simple.passive hy.simple.atom
    rw [hequal] at hr
    cases hr
    rcases hface rfl with rfl | hface
    · exact hy
    · exact hx.leaf_of_face hy.simple.atom hface

theorem IsLeaf.ground (hv : v.IsLeaf h) : v.Ground h := .leaf hv.simple

/-- Acyclic values of leaves are a graph. -/
theorem BuiltFrom.node {leaf : Value → Prop} (hleaf : ∀ v, leaf v → v.IsLeaf h) (hv : v.BuiltFrom h leaf) :
    v.Node h (BuiltFrom h leaf) := by
  have hground : ∀ {x : Value}, x.BuiltFrom h leaf → x.Ground h := fun hx =>
    hx.mono fun v hv => (hleaf v hv).simple
  cases hv with
  | leaf hv => exact .leaf (hleaf v hv)
  | list hcell hitems => exact .list hcell hitems
  | tuple hcell hitems => exact .tuple hcell hitems
  | mapping hcell hdistinct hkeys hvalues =>
    exact .mapping hcell ⟨hdistinct, fun e he => hground (hkeys e he)⟩ hvalues
  | set hcell hdistinct hitems => exact .set hcell ⟨hdistinct, fun x hx => hground (hitems x hx)⟩

end Value

/-! ### Entries under the same keys -/

section Entries

variable {h : Heap} {R : Value → Value → Prop} {as bs : List (Value × Value)}

theorem entriesAgree_iff_matched (has : Keyed h Prod.fst (Value.Ground h) as)
    (hbs : Keyed h Prod.fst (Value.Ground h) bs) :
    EntriesAgree h R as bs ↔ Matched h Prod.fst (fun a b => R a.2 b.2) as bs := by
  have hE := h.equalityOn_ground
  constructor
  · rintro ⟨hkeys, hvalues⟩
    refine ⟨hkeys.1, fun b hb => ?_⟩
    obtain ⟨x, hx, hR⟩ := hvalues b hb
    obtain ⟨a, ha, hkey, rfl⟩ := findEntry_mem hx
    exact ⟨a, ha, hkey, hR⟩
  · intro hm
    refine ⟨⟨hm.1, fun a ha => ?_⟩, fun b hb => ?_⟩
    · obtain ⟨b, hb, hkey, -⟩ := (hE.matched_flip has hbs hm).2 a ha
      exact ⟨b, hb, hkey⟩
    · obtain ⟨a, ha, hkey, hR⟩ := hm.2 b hb
      exact ⟨a.2, (hE.findEntry_iff has (hbs.keys b hb)).mpr ⟨a, ha, hkey, rfl⟩, hR⟩

theorem keyed_attributeEntries {attributes : List (String × Value)}
    (hnames : (attributes.map (·.1)).Nodup) :
    Keyed h Prod.fst (Value.Ground h) (attributeEntries attributes) where
  distinct := by
    refine List.pairwise_map.mpr ((List.pairwise_map.mp hnames).imp fun hne hsame => hne ?_)
    rw [Value.Same, Value.sameItem_text] at hsame
    simpa using hsame
  keys := by
    intro e he
    obtain ⟨a, -, rfl⟩ := List.mem_map.mp he
    exact .leaf (Value.IsScalar.text a.1).simple

end Entries

/-! ### Structural equality in a graph -/

namespace Heap.Graph

variable {h : Heap} {G : Value → Prop} {a b : Value}

theorem comparable (hG : h.Graph G) : h.Comparable G where
  closed := by
    intro x hx v hv
    have hnode := hG x hx
    rcases List.mem_append.mp hv with hv | hv
    · rcases List.mem_append.mp hv with hv | hv
      · cases hes : x.entries? h with
        | none => simp [hes] at hv
        | some es =>
          obtain ⟨e, he, rfl⟩ : ∃ e ∈ es, e.2 = v := by simpa [hes] using hv
          exact (hnode.of_entries hes).2.2 e he
      · cases hitems : x.items? h with
        | none => simp [hitems] at hv
        | some items => exact (hnode.of_items hitems).2 v (by simpa [hitems] using hv)
    · cases hattributes : x.attributes? h with
      | none => simp [Value.attributeTable, hattributes, attributeEntries] at hv
      | some attributes =>
        obtain ⟨e, he, rfl⟩ : ∃ e ∈ attributes, e.2 = v := by
          simpa [Value.attributeTable, hattributes, attributeEntries] using hv
        exact (hnode.of_attributes hattributes).2.2 e he
  leaves := by
    intro x y hx hy hm
    have hleaf := ((hG y hy).of_equality hm).simple
    obtain ⟨r, hr, -⟩ := Value.equal_atom (hG x hx).passive hleaf.passive hleaf.atom
    exact ⟨r, hr⟩
  sets := by
    intro x y hx hy hm hset
    have hx := ((hG x hx).of_isSet hset).2
    have hy := ((hG y hy).of_isSet (Value.isSet_of_manner hm)).2
    exact hx.equal_answers hy
  keys := by
    intro x y hx hy k hk k' hk'
    exact h.equalityOn_ground.answers k k' ((hG x hx).key_ground hk) ((hG y hy).key_ground hk')

/-- Structural equality answers in a graph, and it answers whether the values are bisimilar. -/
theorem deepEqual_iff (hG : h.Graph G) (ha : G a) (hb : G b) :
    ∃ r, a.deepEqual h b = .ok r ∧ (r = true ↔ Bisimilar h a b) := by
  obtain ⟨r, hr⟩ := hG.comparable.deepEqual_answers ha hb
  exact ⟨r, hr, (Value.deepEqual_explores hr).answer⟩

end Heap.Graph
end Exemplar
