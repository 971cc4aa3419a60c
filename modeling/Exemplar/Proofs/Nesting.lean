import Exemplar.Proofs.Depth
import Exemplar.Proofs.Lookups

/-! How deep `==` goes.

`==` knows a value by its `Face`: the number or the text it is, or the items, entries and fields it
holds, unless its class decides itself (`Value.equalIn_succ`). Values that are `BuiltFrom` leaves are
acyclic, so they nest no deeper than there are objects (`Value.Ground.nests`), and the depth
that `==` is given is never used up: one comparison passes the contents on to comparisons of the
same kind (`Value.Ground.equal_eq`). -/
namespace Exemplar

/-! ### Faces -/

/-- What `==` sees of a value. -/
inductive Face
  | number (re im : Exact)
  | text (s : String)
  | list (items : List Value)
  | tuple (items : List Value)
  | mapping (ordered : Bool) (entries : List (Value × Value))
  | set (items : List Value)
  | element (model : String) (fields : List (Value × Value))
  | other

namespace Face

/-- What is compared in turn. -/
def contents : Face → List Value
  | list items | tuple items | set items => items
  | mapping _ entries | element _ entries => entries.flatMap fun e => [e.1, e.2]
  | number .. | text _ | other => []

theorem mem_contents_mapping {ordered : Bool} {entries : List (Value × Value)} {x : Value} :
    x ∈ (mapping ordered entries).contents ↔ ∃ e ∈ entries, x = e.1 ∨ x = e.2 := by
  simp [contents]

theorem mem_contents_mapping_iff {ordered : Bool} {entries : List (Value × Value)} {x : Value} :
    x ∈ (mapping ordered entries).contents ↔ x ∈ entries.map Prod.fst ∨ x ∈ entries.map Prod.snd := by
  rw [mem_contents_mapping, List.mem_map, List.mem_map, ← exists_or]
  refine exists_congr fun e => ?_
  rw [← and_or_left, eq_comm (a := x), eq_comm (a := x)]

theorem key_mem_contents {ordered : Bool} {entries : List (Value × Value)} {e : Value × Value}
    (he : e ∈ entries) : e.1 ∈ (mapping ordered entries).contents :=
  mem_contents_mapping.mpr ⟨e, he, .inl rfl⟩

theorem value_mem_contents {ordered : Bool} {entries : List (Value × Value)} {e : Value × Value}
    (he : e ∈ entries) : e.2 ∈ (mapping ordered entries).contents :=
  mem_contents_mapping.mpr ⟨e, he, .inr rfl⟩

/-- Whether the face shows no container, an empty one included. -/
def isAtom : Face → Bool
  | number .. | text _ | other => true
  | _ => false

theorem contents_of_isAtom {f : Face} (hf : f.isAtom = true) : f.contents = [] := by
  cases f with
  | number | text | other => rfl
  | _ => cases hf

/-- The comparison of two faces: contents are compared by `same`, and what has no face of its own
is equal if it is identical. -/
def equal (same : Value → Value → Except Failure Bool) (identical : Bool) : Face → Face → Except Failure Bool
  | list as, list bs => if as.length ≠ bs.length then .ok false else allPairs same as bs
  | tuple as, tuple bs => do
    if ← allPairs same as bs then return as.length = bs.length else return false
  | mapping o as, mapping p bs => do
    if as.length ≠ bs.length then return false
    if ← allEntries same bs as then
      if o && p then allPairs same (as.map (·.1)) (bs.map (·.1)) else return true
    else return false
  | set as, set bs => if as.length ≠ bs.length then .ok false else allItems same bs as
  | element model as, element model' bs =>
    if model ≠ model' || as.length ≠ bs.length then .ok false else allEntries same bs as
  | number re im, number re' im' => .ok (re.same re' && im.same im')
  | text s, text t => .ok (s = t)
  | _, _ => .ok identical

end Face

def Cell.face : Cell → Face
  | .float x => .number x.exact (.ofInt 0)
  | .fraction x => .number x.exact (.ofInt 0)
  | .decimal x => .number x.exact (.ofInt 0)
  | .complex z => .number z.re.exact z.im.exact
  | .ownText s => .text s
  | .ownInt i => .number (.ofInt i) (.ofInt 0)
  | .list _ items => .list items
  | .tuple _ items => .tuple items
  | .mapping ordered entries => .mapping ordered entries
  | .set _ items => .set items
  | .element model fields => .element model (attributeEntries fields)
  | .record .. | .error .. | .procedure _ => .other

namespace Value

variable (h : Heap)

def face : Value → Face
  | .bool b => .number (.ofInt (if b then 1 else 0)) (.ofInt 0)
  | .int i => .number (.ofInt i) (.ofInt 0)
  | .text s => .text s
  | .object r => ((h.get? r).map Cell.face).getD .other
  | _ => .other

/-- The class of the value does not decide itself what the value is equal to. -/
def Passive (v : Value) : Prop :=
  ∀ c attributes, h.cell? v = some (.record c attributes) → c.hasEquality = false

/-- Two values that a container takes for one: they are the same object, or equal. -/
def Same (x y : Value) : Prop := x.sameItem h y = .ok true

variable {h} {a b v : Value}

theorem eq_object_of_cell {c : Cell} (hv : h.cell? v = some c) : ∃ r, v = .object r := by
  cases v with
  | object r => exact ⟨r, rfl⟩
  | _ => cases hv

theorem face_of_cell {c : Cell} (hv : h.cell? v = some c) : v.face h = c.face := by
  obtain ⟨r, rfl⟩ := eq_object_of_cell hv
  have hr : h.get? r = some c := hv
  rw [face, hr]
  rfl

/-- A value with contents is an object of the store. -/
theorem exists_cell_of_face (hv : (v.face h).isAtom = false) :
    ∃ r c, v = .object r ∧ h.get? r = some c ∧ v.face h = c.face := by
  cases v with
  | object r =>
    cases hr : h.get? r with
    | none => simp [face, hr, Face.isAtom] at hv
    | some c => exact ⟨r, c, rfl, hr, face_of_cell hr⟩
  | _ => cases hv

theorem number?_eq (h : Heap) (v : Value) :
    v.number? h = match v.face h with
      | .number re im => some (re, im)
      | _ => none := by
  cases v with
  | object r =>
    cases hr : h.get? r with
    | none => simp [number?, face, Heap.cell?, hr]
    | some c => cases c <;> simp [number?, face, Cell.face, Heap.cell?, hr]
  | _ => rfl

theorem asText?_eq (h : Heap) (v : Value) :
    v.asText? h = match v.face h with
      | .text s => some s
      | _ => none := by
  cases v with
  | object r =>
    cases hr : h.get? r with
    | none => simp [asText?, face, Heap.cell?, hr]
    | some c => cases c <;> simp [asText?, face, Cell.face, Heap.cell?, hr]
  | _ => rfl

theorem cell_of_list {items : List Value} (hv : v.face h = .list items) :
    ∃ own, h.cell? v = some (.list own items) := by
  obtain ⟨r, c, rfl, hr, hc⟩ := exists_cell_of_face (by rw [hv]; rfl)
  rw [hc] at hv
  cases c <;> cases hv
  exact ⟨_, hr⟩

theorem cell_of_tuple {items : List Value} (hv : v.face h = .tuple items) :
    ∃ own, h.cell? v = some (.tuple own items) := by
  obtain ⟨r, c, rfl, hr, hc⟩ := exists_cell_of_face (by rw [hv]; rfl)
  rw [hc] at hv
  cases c <;> cases hv
  exact ⟨_, hr⟩

theorem cell_of_mapping {ordered : Bool} {entries : List (Value × Value)}
    (hv : v.face h = .mapping ordered entries) : h.cell? v = some (.mapping ordered entries) := by
  obtain ⟨r, c, rfl, hr, hc⟩ := exists_cell_of_face (by rw [hv]; rfl)
  rw [hc] at hv
  cases c <;> cases hv
  exact hr

theorem cell_of_set {items : List Value} (hv : v.face h = .set items) :
    ∃ frozen, h.cell? v = some (.set frozen items) := by
  obtain ⟨r, c, rfl, hr, hc⟩ := exists_cell_of_face (by rw [hv]; rfl)
  rw [hc] at hv
  cases c <;> cases hv
  exact ⟨_, hr⟩

theorem cell_of_element {model : String} {fields : List (Value × Value)} (hv : v.face h = .element model fields) :
    ∃ attributes, h.cell? v = some (.element model attributes) ∧ fields = attributeEntries attributes := by
  obtain ⟨r, c, rfl, hr, hc⟩ := exists_cell_of_face (by rw [hv]; rfl)
  rw [hc] at hv
  cases c <;> cases hv
  exact ⟨_, hr, rfl⟩

theorem Passive.decides? (hv : v.Passive h) (operation : Operation) : v.decides? h operation = none := by
  unfold Value.decides?
  split
  · rename_i hcell
    cases hv _ _ hcell
  · rename_i hcell
    rw [hv _ _ hcell]
    rfl
  · rfl

theorem Passive.decider? (ha : a.Passive h) (hb : b.Passive h) (operation : Operation) :
    decider? h operation a b = none := by
  rw [Exemplar.decider?, ha.decides?, hb.decides?]
  rfl

/-- Where no class decides, `==` goes by the faces of the values. -/
theorem plainEqual_eq (h : Heap) (same : Value → Value → Except Failure Bool) (a b : Value) :
    plainEqual h same a b = Face.equal same (a = b) (a.face h) (b.face h) := by
  unfold plainEqual
  split
  · rename_i hx hy
    rw [face_of_cell hx, face_of_cell hy]
    rfl
  · rename_i hx hy
    rw [face_of_cell hx, face_of_cell hy]
    rfl
  · rename_i hx hy
    rw [face_of_cell hx, face_of_cell hy]
    rfl
  · rename_i hx hy
    rw [face_of_cell hx, face_of_cell hy]
    rfl
  · rename_i hx hy
    rw [face_of_cell hx, face_of_cell hy]
    simp [Cell.face, Face.equal, attributeEntries]
    rfl
  · rename_i hlist htuple hmapping hset helement
    rw [number?_eq, number?_eq, asText?_eq, asText?_eq]
    -- containers of one kind were compared before
    cases hx : a.face h <;> cases hy : b.face h <;> try rfl
    case list.list =>
      obtain ⟨own, hx⟩ := cell_of_list hx
      obtain ⟨own', hy⟩ := cell_of_list hy
      exact (hlist _ _ _ _ hx hy).elim
    case tuple.tuple =>
      obtain ⟨own, hx⟩ := cell_of_tuple hx
      obtain ⟨own', hy⟩ := cell_of_tuple hy
      exact (htuple _ _ _ _ hx hy).elim
    case mapping.mapping => exact (hmapping _ _ _ _ (cell_of_mapping hx) (cell_of_mapping hy)).elim
    case set.set =>
      obtain ⟨frozen, hx⟩ := cell_of_set hx
      obtain ⟨frozen', hy⟩ := cell_of_set hy
      exact (hset _ _ _ _ hx hy).elim
    case element.element =>
      obtain ⟨attributes, hx, -⟩ := cell_of_element hx
      obtain ⟨attributes', hy, -⟩ := cell_of_element hy
      exact (helement _ _ _ _ hx hy).elim

/-- `==` goes by the faces of the values, unless a class decides. -/
theorem equalIn_succ (ha : a.Passive h) (hb : b.Passive h) (depth : Nat) :
    a.equalIn h (depth + 1) b =
      Face.equal (fun x y => if x = y then .ok true else equalIn h depth x y) (a = b)
        (a.face h) (b.face h) := by
  generalize hsame : (fun x y => if x = y then .ok true else equalIn h depth x y) = same
  rw [← plainEqual_eq]
  rw [equalIn, Comparing.equalIn, Comparing.still_bind, ha.decider? hb]
  show (plainEqual h (fun x y => if x = y then .ok true else equalIn h depth x y) a b >>=
    fun r => pure (Answer.bool r)) >>= (Comparing.still h).holds = _
  rw [hsame]
  cases plainEqual h same a b <;> rfl

end Value

theorem Face.equal_congr {same same' : Value → Value → Except Failure Bool} {identical : Bool} {f g : Face}
    (hs : ∀ x ∈ f.contents, ∀ y ∈ g.contents, same x y = same' x y ∧ same y x = same' y x) :
    f.equal same identical g = f.equal same' identical g := by
  cases f <;> cases g
  case list.list as bs =>
    have hpairs : allPairs same as bs = allPairs same' as bs := allPairs_congr fun a ha b hb => (hs a ha b hb).1
    rw [Face.equal, Face.equal, hpairs]
  case tuple.tuple as bs =>
    have hpairs : allPairs same as bs = allPairs same' as bs := allPairs_congr fun a ha b hb => (hs a ha b hb).1
    rw [Face.equal, Face.equal, hpairs]
  case set.set as bs =>
    have hitems : allItems same bs as = allItems same' bs as := allItems_congr fun a ha b hb => (hs a ha b hb).2
    rw [Face.equal, Face.equal, hitems]
  case mapping.mapping o as p bs =>
    have hentries : allEntries same bs as = allEntries same' bs as :=
      allEntries_congr fun e he e' he' =>
        ⟨(hs e.1 (key_mem_contents he) e'.1 (key_mem_contents he')).2,
          (hs e.2 (value_mem_contents he) e'.2 (value_mem_contents he')).1⟩
    have horder : allPairs same (as.map (·.1)) (bs.map (·.1)) = allPairs same' (as.map (·.1)) (bs.map (·.1)) := by
      refine allPairs_congr fun a ha b hb => ?_
      obtain ⟨e, he, rfl⟩ := List.mem_map.mp ha
      obtain ⟨e', he', rfl⟩ := List.mem_map.mp hb
      exact (hs e.1 (key_mem_contents he) e'.1 (key_mem_contents he')).1
    rw [Face.equal, Face.equal, hentries, horder]
  case element.element model as model' bs =>
    have hentries : allEntries same bs as = allEntries same' bs as :=
      allEntries_congr fun e he e' he' =>
        ⟨(hs e.1 (List.mem_flatMap.mpr ⟨e, he, by simp⟩) e'.1 (List.mem_flatMap.mpr ⟨e', he', by simp⟩)).2,
          (hs e.2 (List.mem_flatMap.mpr ⟨e, he, by simp⟩) e'.2 (List.mem_flatMap.mpr ⟨e', he', by simp⟩)).1⟩
    rw [Face.equal, Face.equal, hentries]
  all_goals rfl

/-! ### Values built from leaves -/

namespace Value

/-- Acyclic values: leaves, and the lists, tuples, mappings and sets that are built from values of
this kind. A mapping has each key once, and a set each item. -/
inductive BuiltFrom (h : Heap) (leaf : Value → Prop) : Value → Prop
  | leaf {v} : leaf v → BuiltFrom h leaf v
  | list {v items} : h.cell? v = some (.list false items) → (∀ x ∈ items, BuiltFrom h leaf x) →
      BuiltFrom h leaf v
  | tuple {v items} : h.cell? v = some (.tuple false items) → (∀ x ∈ items, BuiltFrom h leaf x) →
      BuiltFrom h leaf v
  | mapping {v entries} : h.cell? v = some (.mapping false entries) →
      entries.Pairwise (fun e e' => ¬ e.1.Same h e'.1) → (∀ e ∈ entries, BuiltFrom h leaf e.1) →
      (∀ e ∈ entries, BuiltFrom h leaf e.2) → BuiltFrom h leaf v
  | set {v frozen items} : h.cell? v = some (.set frozen items) →
      items.Pairwise (fun x y => ¬ x.Same h y) → (∀ x ∈ items, BuiltFrom h leaf x) → BuiltFrom h leaf v

end Value

/-- A number that is a proper quotient, or none at all. -/
def Exact.IsProper : Exact → Prop
  | .ratio _ den => den ≠ 0
  | _ => True

/-- Quotients are proper, and no mapping and no set has one key or item twice. Elements are left out. -/
def Face.Tidy (h : Heap) : Face → Prop
  | .number re im => re.IsProper ∧ im.IsProper
  | .mapping ordered entries => ordered = false ∧ entries.Pairwise fun e e' => ¬ e.1.Same h e'.1
  | .set items => items.Pairwise fun x y => ¬ x.Same h y
  | .element .. => False
  | _ => True

namespace Value

/-- No container, and compared by number, text or identity. -/
structure IsSimple (h : Heap) (v : Value) : Prop where
  passive : v.Passive h
  atom : (v.face h).isAtom = true
  tidy : (v.face h).Tidy h

/-- Acyclic values of any simple leaves. -/
def Ground (h : Heap) (v : Value) : Prop := v.BuiltFrom h (IsSimple h)

variable {h : Heap} {leaf leaf' : Value → Prop} {v : Value}

theorem BuiltFrom.mono (hleaf : ∀ v, leaf v → leaf' v) (hv : v.BuiltFrom h leaf) : v.BuiltFrom h leaf' := by
  induction hv with
  | leaf hv => exact .leaf (hleaf _ hv)
  | list hcell _ ih => exact .list hcell ih
  | tuple hcell _ ih => exact .tuple hcell ih
  | mapping hcell hkeys _ _ ihk ihv => exact .mapping hcell hkeys ihk ihv
  | set hcell hitems _ ih => exact .set hcell hitems ih

theorem passive_of_cell {c : Cell} (hv : h.cell? v = some c) (hc : ∀ cls attributes, c ≠ .record cls attributes) :
    v.Passive h := by
  intro cls attributes hrecord
  rw [hv] at hrecord
  exact (hc _ _ (Option.some.inj hrecord)).elim

namespace Ground

theorem passive (hv : v.Ground h) : v.Passive h := by
  cases hv with
  | leaf hv => exact hv.passive
  | list hcell _ => exact passive_of_cell hcell nofun
  | tuple hcell _ => exact passive_of_cell hcell nofun
  | mapping hcell _ _ _ => exact passive_of_cell hcell nofun
  | set hcell _ _ => exact passive_of_cell hcell nofun

theorem tidy (hv : v.Ground h) : (v.face h).Tidy h := by
  cases hv with
  | leaf hv => exact hv.tidy
  | list hcell _ => rw [face_of_cell hcell]; trivial
  | tuple hcell _ => rw [face_of_cell hcell]; trivial
  | mapping hcell hkeys _ _ => rw [face_of_cell hcell]; exact ⟨rfl, hkeys⟩
  | set hcell hitems _ => rw [face_of_cell hcell]; exact hitems

theorem contents (hv : v.Ground h) : ∀ x ∈ (v.face h).contents, x.Ground h := by
  cases hv with
  | leaf hv =>
    rw [Face.contents_of_isAtom hv.atom]
    exact fun x hx => absurd hx List.not_mem_nil
  | list hcell hitems => rw [face_of_cell hcell]; exact hitems
  | tuple hcell hitems => rw [face_of_cell hcell]; exact hitems
  | mapping hcell _ hkeys hvalues =>
    rw [face_of_cell hcell]
    intro x hx
    obtain ⟨e, he, rfl | rfl⟩ := Face.mem_contents_mapping.mp hx
    · exact hkeys e he
    · exact hvalues e he
  | set hcell _ hitems => rw [face_of_cell hcell]; exact hitems

end Ground

/-! ### Depth -/

/-- `x` is one of the contents of `v`. -/
def Within (h : Heap) (x v : Value) : Prop := x ∈ (v.face h).contents

theorem Ground.acc (hv : v.Ground h) : Acc (Within h) v := by
  induction hv with
  | @leaf v hv =>
    refine .intro v fun x hx => ?_
    rw [Within, Face.contents_of_isAtom hv.atom] at hx
    exact absurd hx List.not_mem_nil
  | @list v items hcell _ ih =>
    refine .intro v fun x hx => ih x ?_
    rwa [Within, face_of_cell hcell] at hx
  | @tuple v items hcell _ ih =>
    refine .intro v fun x hx => ih x ?_
    rwa [Within, face_of_cell hcell] at hx
  | @mapping v entries hcell _ _ _ ihk ihv =>
    refine .intro v fun x hx => ?_
    rw [Within, face_of_cell hcell] at hx
    obtain ⟨e, he, rfl | rfl⟩ := Face.mem_contents_mapping.mp hx
    · exact ihk e he
    · exact ihv e he
  | @set v frozen items hcell _ _ ih =>
    refine .intro v fun x hx => ih x ?_
    rwa [Within, face_of_cell hcell] at hx

/-- Only objects of the store have contents. -/
theorem encloses_within (h : Heap) : h.Encloses (Within h) := by
  intro x v hx
  have hface : (v.face h).isAtom = false := by
    by_contra hatom
    rw [Within, Face.contents_of_isAtom (Bool.eq_true_of_not_eq_false hatom)] at hx
    exact List.not_mem_nil hx
  obtain ⟨i, c, rfl, hi, -⟩ := exists_cell_of_face hface
  exact ⟨i, (Array.getElem?_eq_some_iff.mp hi).1, rfl⟩

theorem Ground.nests (hv : v.Ground h) : v.Nests (Within h) (h.size + 1) := (encloses_within h).nests hv.acc

/-! ### One comparison -/

theorem exists_depth (h : Heap) : ∃ d, h.depth = d + 1 ∧ h.size + 1 ≤ d := by
  have hle : h.size + 2 ≤ (h.size + 2) * (h.size + 2) := Nat.le_mul_of_pos_left _ (by omega)
  refine ⟨h.depth - 1, ?_, ?_⟩ <;> unfold Heap.depth <;> omega

/-- Any two depths that the values do not exceed give the same answer. -/
theorem equalIn_stable {n : Nat} {a b : Value} (ha : a.Ground h) (hb : b.Ground h) (han : a.Nests (Within h) n)
    (hbn : b.Nests (Within h) n) {d k : Nat} (hd : n ≤ d) (hk : n ≤ k) : a.equalIn h d b = a.equalIn h k b := by
  induction n generalizing a b d k with
  | zero => exact han.elim
  | succ n ih =>
    obtain ⟨d, rfl⟩ : ∃ m, d = m + 1 := ⟨d - 1, by omega⟩
    obtain ⟨k, rfl⟩ : ∃ m, k = m + 1 := ⟨k - 1, by omega⟩
    rw [equalIn_succ ha.passive hb.passive, equalIn_succ ha.passive hb.passive]
    refine Face.equal_congr fun x hx y hy => ?_
    have hgx := ha.contents x hx
    have hgy := hb.contents y hy
    rw [ih hgx hgy (han x hx) (hbn y hy) (d := d) (k := k) (by omega) (by omega),
      ih hgy hgx (hbn y hy) (han x hx) (d := d) (k := k) (by omega) (by omega)]
    exact ⟨rfl, rfl⟩

/-- `==` of acyclic values passes their contents on to comparisons of the same kind. -/
theorem Ground.equal_eq {a b : Value} (ha : a.Ground h) (hb : b.Ground h) :
    a.equal h b = Face.equal (sameItem h) (a = b) (a.face h) (b.face h) := by
  obtain ⟨d, hd, hsize⟩ := exists_depth h
  have hcontents : ∀ {x y : Value}, x.Ground h → y.Ground h →
      (if x = y then .ok true else x.equalIn h d y) = x.sameItem h y := by
    intro x y hx hy
    rw [sameItem, equal, equalIn_stable hx hy hx.nests hy.nests hsize (by omega : h.size + 1 ≤ h.depth)]
  rw [equal, hd, equalIn_succ ha.passive hb.passive]
  refine Face.equal_congr fun x hx y hy => ?_
  exact ⟨hcontents (ha.contents x hx) (hb.contents y hy), hcontents (hb.contents y hy) (ha.contents x hx)⟩

end Value

end Exemplar
