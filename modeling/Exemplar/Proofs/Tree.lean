import Exemplar.Example.Statement
import Mathlib.Data.List.Nodup

/-! Forests whose links agree.

A forest is `Sound` if every node but the roots is listed once by its parent, and by no other,
and parents are made before their children. Opening a group and filling one keep a forest
sound. In a sound forest the way up from a node ends at a root, and the walks down from the
roots meet every node exactly once. -/
namespace Exemplar.Forest

/-- The parent links and the children lists of a forest agree. -/
structure Sound (f : Forest) : Prop where
  earlier : ∀ {n p : Nat}, f.parent? n = some p → p < n
  listed : ∀ {n p}, n ∈ f.children p ↔ f.parent? n = some p
  root : ∀ {n : Nat}, n ∈ f.roots ↔ n < f.size ∧ f.parent? n = none
  once : ∀ p, (f.children p).Nodup
  rootsOnce : f.roots.Nodup

theorem lt_size_of_parent? {f : Forest} {n p : Nat} (h : f.parent? n = some p) : n < f.size := by
  by_cases hn : n < f.size
  · exact hn
  · simp [parent?, node?, Array.getElem?_eq_none (Nat.le_of_not_lt hn)] at h

theorem empty_sound : Sound {} where
  earlier h := absurd (lt_size_of_parent? h) (by simp [size])
  listed := by simp [children, parent?, node?]
  root := by simp [size]
  once := by simp [children, node?]
  rootsOnce := by simp

/-! ### Adding a node -/

section Add

variable (f : Forest) (name : Value)

@[simp] theorem add_snd (cursor : Option NodeId) : (f.add name cursor).2 = f.size := by
  cases cursor <;> rfl

@[simp] theorem size_add (cursor : Option NodeId) : (f.add name cursor).1.size = f.size + 1 := by
  cases cursor <;> simp [add, modify, size]

theorem node?_modify (m n : NodeId) (change : Node → Node) :
    (f.modify m change).node? n = if m = n then (f.node? n).map change else f.node? n :=
  Array.getElem?_modify

theorem node?_push (node : Node) (roots : List NodeId) (n : NodeId) :
    Forest.node? ⟨f.nodes.push node, roots⟩ n = if n = f.size then some node else f.node? n :=
  Array.getElem?_push

theorem parent?_add (cursor : Option NodeId) (n : NodeId) :
    (f.add name cursor).1.parent? n = if n = f.size then cursor else f.parent? n := by
  cases cursor with
  | none =>
    show (Forest.node? ⟨f.nodes.push { name, parent := none }, _⟩ n).bind _ = _
    rw [node?_push]
    split <;> rfl
  | some p =>
    show (Option.bind ((Forest.modify _ p _).node? n) _) = _
    rw [node?_modify, node?_push]
    split <;> split <;> cases h : f.node? n <;> simp [parent?, h]

theorem children_add {cursor : Option NodeId} (hc : ∀ p, cursor = some p → p < f.size) (n : NodeId) :
    (f.add name cursor).1.children n = f.children n ++ if cursor = some n then [f.size] else [] := by
  have hnew : f.children f.size = [] := by simp [children, node?, size]
  cases cursor with
  | none =>
    show ((Forest.node? ⟨f.nodes.push { name, parent := none }, _⟩ n).map _).getD [] = _
    rw [node?_push]
    split
    · rename_i hn
      simp [hn, hnew]
    · simp [children]
  | some p =>
    have hp := hc p rfl
    show (((Forest.modify _ p _).node? n).map _).getD [] = _
    rw [node?_modify, node?_push]
    split
    · rename_i hn
      subst hn
      obtain ⟨node, hnode⟩ : ∃ node, f.node? p = some node := ⟨_, Array.getElem?_eq_getElem hp⟩
      simp [children, hnode, Nat.ne_of_lt hp]
    · rename_i hn
      split
      · rename_i hs
        simp [hs, hnew, Nat.ne_of_lt hp]
      · simp [children, hn]

theorem roots_add (cursor : Option NodeId) :
    (f.add name cursor).1.roots = f.roots ++ if cursor = none then [f.size] else [] := by
  cases cursor <;> simp [add, modify]

end Add

theorem Sound.lt_size {f : Forest} (h : f.Sound) {n p : Nat} (hn : n ∈ f.children p) :
    p < n ∧ n < f.size := by
  have := h.listed.mp hn
  exact ⟨h.earlier this, lt_size_of_parent? this⟩

theorem Sound.add {f : Forest} (h : f.Sound) (name : Value) {cursor : Option NodeId}
    (hc : ∀ p, cursor = some p → p < f.size) : (f.add name cursor).1.Sound where
  earlier {n p} hp := by
    rw [parent?_add] at hp
    split at hp
    · rename_i hn
      exact hn ▸ hc p hp
    · exact h.earlier hp
  listed {n p} := by
    rw [children_add f name hc, parent?_add, List.mem_append]
    by_cases hn : n = f.size
    · subst hn
      have : f.size ∉ f.children p := fun hm => Nat.lt_irrefl _ (h.lt_size hm).2
      by_cases hp : cursor = some p <;> simp [this, hp]
    · simp only [if_neg hn, h.listed]
      split <;> simp [hn]
  root {n} := by
    rw [roots_add, parent?_add, size_add, List.mem_append, h.root]
    by_cases hn : n = f.size
    · subst hn
      by_cases hp : cursor = none <;> simp [hp]
    · have : n < f.size + 1 ↔ n < f.size := Nat.lt_succ_iff_lt_or_eq.trans (or_iff_left hn)
      simp only [if_neg hn, this]
      split <;> simp [hn]
  once p := by
    rw [children_add f name hc]
    refine (h.once p).append (by split <;> simp) fun n hn hs => ?_
    split at hs
    · exact Nat.lt_irrefl _ (List.mem_singleton.mp hs ▸ (h.lt_size hn).2)
    · exact absurd hs List.not_mem_nil
  rootsOnce := by
    rw [roots_add]
    refine h.rootsOnce.append (by split <;> simp) fun n hn hs => ?_
    split at hs
    · exact Nat.lt_irrefl _ (List.mem_singleton.mp hs ▸ (h.root.mp hn).1)
    · exact absurd hs List.not_mem_nil

/-! ### Filling a node -/

theorem parent?_modify {f : Forest} {change : Node → Node} (hc : ∀ x, (change x).parent = x.parent)
    (m n : NodeId) : (f.modify m change).parent? n = f.parent? n := by
  simp only [parent?, node?_modify]
  split <;> cases f.node? n <;> simp [hc]

theorem children_modify {f : Forest} {change : Node → Node} (hc : ∀ x, (change x).children = x.children)
    (m n : NodeId) : (f.modify m change).children n = f.children n := by
  simp only [children, node?_modify]
  split <;> cases f.node? n <;> simp [hc]

@[simp] theorem size_modify (f : Forest) (m : NodeId) (change : Node → Node) :
    (f.modify m change).size = f.size := Array.size_modify

theorem Sound.modify {f : Forest} (h : f.Sound) {change : Node → Node}
    (hp : ∀ x, (change x).parent = x.parent) (hc : ∀ x, (change x).children = x.children) (m : NodeId) :
    (f.modify m change).Sound where
  earlier hn := h.earlier (parent?_modify hp m _ ▸ hn)
  listed {n p} := by
    rw [children_modify hc, parent?_modify hp]
    exact h.listed
  root {n} := by
    rw [parent?_modify hp, size_modify]
    exact h.root
  once p := by
    rw [children_modify hc]
    exact h.once p
  rootsOnce := h.rootsOnce

/-! ### The way up -/

section Up

variable {f : Forest} (h : f.Sound)
include h

/-- Induction from the roots down. -/
theorem Sound.climb {P : NodeId → Prop} (root : ∀ n, f.parent? n = none → P n)
    (child : ∀ n p, f.parent? n = some p → P p → P n) (n : NodeId) : P n := by
  induction n using Nat.strongRecOn with
  | ind n ih =>
    cases hp : f.parent? n with
    | none => exact root n hp
    | some p => exact child n p hp (ih p (h.earlier hp))

/-- No way up is longer than the number of the node. -/
theorem Sound.lineageIn_eq {d d' n : Nat} (hd : n ≤ d) (hd' : n ≤ d') :
    f.lineageIn d n = f.lineageIn d' n := by
  induction d generalizing n d' with
  | zero =>
    have hroot : f.parent? n = none := Option.eq_none_iff_forall_ne_some.mpr fun p hp =>
      absurd (h.earlier hp) (by omega)
    cases d' <;> simp [lineageIn, hroot]
  | succ d ih =>
    cases hp : f.parent? n with
    | none => cases d' <;> simp [lineageIn, hp]
    | some p =>
      have hlt := h.earlier hp
      cases d' with
      | zero => omega
      | succ d' =>
        have hup : f.lineageIn d p = f.lineageIn d' p := ih (by omega) (by omega)
        simp only [lineageIn, hp, hup]

omit h in
theorem lineage_root {n : Nat} (hp : f.parent? n = none) : f.lineage n = [n] := by
  unfold lineage
  cases f.size with
  | zero => rfl
  | succ d => simp [lineageIn, hp]

theorem Sound.lineage_child {n p : Nat} (hp : f.parent? n = some p) :
    f.lineage n = n :: f.lineage p := by
  have hn := lt_size_of_parent? hp
  have hlt := h.earlier hp
  unfold lineage
  cases hs : f.size with
  | zero => omega
  | succ d =>
    have hup : f.lineageIn d p = f.lineageIn (d + 1) p := h.lineageIn_eq (by omega) (by omega)
    rw [lineageIn, hp, ← hup]

theorem Sound.self_mem_lineage (n : NodeId) : n ∈ f.lineage n := by
  cases hp : f.parent? n with
  | none => simp [lineage_root hp]
  | some p => simp [h.lineage_child hp]

/-- Above a node of the way up, the way up is that node's. -/
theorem Sound.lineage_suffix {m n : NodeId} (hm : m ∈ f.lineage n) : f.lineage m <:+ f.lineage n := by
  induction n using h.climb with
  | root n hp =>
    rw [lineage_root hp, List.mem_singleton] at hm
    subst hm
    exact List.suffix_refl _
  | child n p hp ih =>
    have hup := h.lineage_child hp
    rw [hup] at hm
    rcases List.mem_cons.mp hm with rfl | hm
    · exact List.suffix_refl _
    · rw [hup]
      exact (ih hm).trans (List.suffix_cons n _)

theorem Sound.le_of_mem_lineage {m n : Nat} (hm : m ∈ f.lineage n) : m ≤ n := by
  induction n using h.climb with
  | root n hp =>
    rw [lineage_root hp, List.mem_singleton] at hm
    exact Nat.le_of_eq hm
  | child n p hp ih =>
    rw [h.lineage_child hp] at hm
    have hlt := h.earlier hp
    rcases List.mem_cons.mp hm with hm | hm
    · exact Nat.le_of_eq hm
    · exact Nat.le_of_lt (Nat.lt_of_le_of_lt (ih hm) hlt)

/-- The way up ends at a root. -/
theorem Sound.lineage_ends {n : Nat} (hn : n < f.size) :
    ∃ r ∈ f.roots, (f.lineage n).getLast? = some r := by
  induction n using h.climb with
  | root n hp => exact ⟨n, h.root.mpr ⟨hn, hp⟩, by simp [lineage_root hp]⟩
  | child n p hp ih =>
    obtain ⟨r, hr, hl⟩ := ih (Nat.lt_trans (h.earlier hp) hn)
    exact ⟨r, hr, by rw [h.lineage_child hp, List.getLast?_cons, hl]; rfl⟩

/-- Two nodes on one way up have the same parent only if they are the same. -/
theorem Sound.eq_of_lineage {m n k : Nat} (hm : m ∈ f.lineage k) (hn : n ∈ f.lineage k)
    (hp : f.parent? m = f.parent? n) : m = n := by
  -- the longer of the two ways up passes the other node, unless it starts with it
  have hone : ∀ {m n : Nat}, f.parent? m = f.parent? n → f.lineage m <:+ f.lineage n → m = n := by
    intro m n hp hs
    have hmem := hs.subset (h.self_mem_lineage m)
    cases hq : f.parent? n with
    | none =>
      rw [lineage_root hq] at hmem
      exact List.mem_singleton.mp hmem
    | some p =>
      rw [h.lineage_child hq] at hmem
      rcases List.mem_cons.mp hmem with hmem | hmem
      · exact hmem
      · have := h.le_of_mem_lineage hmem
        have := h.earlier (hp.trans hq)
        omega
  rcases List.suffix_or_suffix_of_suffix (h.lineage_suffix hm) (h.lineage_suffix hn) with hs | hs
  · exact hone hp hs
  · exact (hone hp.symm hs).symm

end Up

/-! ### The walk down -/

/-- All nodes below the roots, each before its children. -/
def preorder (f : Forest) : List NodeId := f.roots.flatMap f.walk

section Down

variable {f : Forest} (h : f.Sound)
include h

/-- Induction from the leaves up. -/
theorem Sound.descend {P : NodeId → Prop} (step : ∀ n, (∀ c ∈ f.children n, P c) → P n) (n : Nat) :
    P n := by
  induction hk : f.size - n using Nat.strongRecOn generalizing n with
  | ind k ih =>
    refine step n fun c hc => ih (f.size - c) ?_ c rfl
    have := h.lt_size hc
    omega

theorem Sound.walkIn_eq {d d' n : Nat} (hd : f.size ≤ n + d) (hd' : f.size ≤ n + d') :
    f.walkIn d n = f.walkIn d' n := by
  induction d generalizing n d' with
  | zero =>
    have hleaf : f.children n = [] := List.eq_nil_iff_forall_not_mem.mpr fun c hc => by
      have := h.lt_size hc
      omega
    cases d' <;> simp [walkIn, hleaf]
  | succ d ih =>
    cases d' with
    | zero =>
      have hleaf : f.children n = [] := List.eq_nil_iff_forall_not_mem.mpr fun c hc => by
        have := h.lt_size hc
        omega
      simp [walkIn, hleaf]
    | succ d' =>
      have hdown : (f.children n).flatMap (f.walkIn d) = (f.children n).flatMap (f.walkIn d') :=
        List.flatMap_congr fun c hc => by
          have := h.lt_size hc
          exact ih (by omega) (by omega)
      simp only [walkIn, hdown]

theorem Sound.walk_eq (n : Nat) : f.walk n = n :: (f.children n).flatMap f.walk := by
  unfold walk
  cases hs : f.size with
  | zero =>
    have hleaf : f.children n = [] := List.eq_nil_iff_forall_not_mem.mpr fun c hc => by
      have := h.lt_size hc
      omega
    simp [walkIn, hleaf]
  | succ d =>
    have hdown : (f.children n).flatMap (f.walkIn d) = (f.children n).flatMap (f.walkIn (d + 1)) :=
      List.flatMap_congr fun c hc => by
        have := h.lt_size hc
        exact h.walkIn_eq (by omega) (by omega)
    rw [walkIn, hdown]

theorem Sound.mem_walk_child {k m p : NodeId} (hp : p ∈ f.walk k) (hm : m ∈ f.children p) :
    m ∈ f.walk k := by
  induction k using h.descend with
  | step k ih =>
    rw [h.walk_eq, List.mem_cons, List.mem_flatMap] at hp ⊢
    refine .inr ?_
    rcases hp with rfl | ⟨c, hc, hp⟩
    · exact ⟨m, hm, by rw [h.walk_eq]; exact List.mem_cons_self⟩
    · exact ⟨c, hc, ih c hc hp⟩

/-- A node is on the walks down from the nodes on its way up. -/
theorem Sound.mem_walk {m n : NodeId} : m ∈ f.walk n ↔ n ∈ f.lineage m := by
  constructor
  · intro hm
    induction n using h.descend with
    | step n ih =>
      rw [h.walk_eq, List.mem_cons, List.mem_flatMap] at hm
      rcases hm with rfl | ⟨c, hc, hm⟩
      · exact h.self_mem_lineage m
      · refine (h.lineage_suffix (ih c hc hm)).subset ?_
        rw [h.lineage_child (h.listed.mp hc)]
        exact List.mem_cons_of_mem _ (h.self_mem_lineage n)
  · intro hn
    have hself : m ∈ f.walk m := by rw [h.walk_eq]; exact List.mem_cons_self
    induction m using h.climb with
    | root m hp =>
      rw [lineage_root hp, List.mem_singleton] at hn
      exact hn ▸ hself
    | child m p hp ih =>
      rw [h.lineage_child hp] at hn
      rcases List.mem_cons.mp hn with rfl | hn
      · exact hself
      · exact h.mem_walk_child (ih hn (by rw [h.walk_eq]; exact List.mem_cons_self)) (h.listed.mpr hp)

/-- Walks down from nodes with one parent have no node in common. -/
theorem Sound.walk_disjoint {c d : Nat} (hp : f.parent? c = f.parent? d) (hne : c ≠ d) :
    (f.walk c).Disjoint (f.walk d) := fun _ hc hd =>
  hne (h.eq_of_lineage (h.mem_walk.mp hc) (h.mem_walk.mp hd) hp)

theorem Sound.walks_nodup {ns : List NodeId} (hn : ns.Nodup) {p : Option NodeId}
    (hp : ∀ n ∈ ns, f.parent? n = p) (hw : ∀ n ∈ ns, (f.walk n).Nodup) : (ns.flatMap f.walk).Nodup := by
  refine List.nodup_flatMap.mpr ⟨hw, hn.imp_of_mem fun {c d} hc hd hne => ?_⟩
  exact h.walk_disjoint ((hp c hc).trans (hp d hd).symm) hne

theorem Sound.walk_nodup (n : NodeId) : (f.walk n).Nodup := by
  induction n using h.descend with
  | step n ih =>
    rw [h.walk_eq, List.nodup_cons]
    refine ⟨fun hn => ?_, h.walks_nodup (h.once n) (fun c hc => h.listed.mp hc) ih⟩
    obtain ⟨c, hc, hn⟩ := List.mem_flatMap.mp hn
    have := h.le_of_mem_lineage (h.mem_walk.mp hn)
    have := h.lt_size hc
    omega

/-- The walks down from the roots meet every node exactly once. -/
theorem Sound.preorder_nodup : f.preorder.Nodup :=
  h.walks_nodup h.rootsOnce (fun _ hr => (h.root.mp hr).2) fun r _ => h.walk_nodup r

theorem Sound.mem_preorder {n : Nat} : n ∈ f.preorder ↔ n < f.size := by
  constructor
  · intro hn
    obtain ⟨r, hr, hn⟩ := List.mem_flatMap.mp hn
    cases hp : f.parent? n with
    | none =>
      have := h.mem_walk.mp hn
      rw [lineage_root hp, List.mem_singleton] at this
      exact this ▸ (h.root.mp hr).1
    | some p => exact lt_size_of_parent? hp
  · intro hn
    obtain ⟨r, hr, hl⟩ := h.lineage_ends hn
    exact List.mem_flatMap.mpr ⟨r, hr, h.mem_walk.mpr (List.mem_of_getLast? hl)⟩

end Down

/-! ### Siblings, and the way up while the forest grows -/

/-- The children of a node, or the roots. -/
def siblings (f : Forest) : Option NodeId → List NodeId
  | some p => f.children p
  | none => f.roots

/-- The way up from the cursor. -/
def lineageOf (f : Forest) : Option NodeId → List NodeId
  | some n => f.lineage n
  | none => []

theorem siblings_add {f : Forest} {name : Value} {cursor : Option NodeId}
    (hc : ∀ p, cursor = some p → p < f.size) (outer : Option NodeId) :
    (f.add name cursor).1.siblings outer = f.siblings outer ++ if cursor = outer then [f.size] else [] := by
  cases outer with
  | none => exact roots_add f name cursor
  | some p => exact children_add f name hc p

theorem Sound.parent_of_sibling {f : Forest} (h : f.Sound) {n : NodeId} {outer : Option NodeId}
    (hn : n ∈ f.siblings outer) : f.parent? n = outer := by
  cases outer with
  | none => exact (h.root.mp hn).2
  | some p => exact h.listed.mp hn

theorem lineageIn_congr {f g : Forest} (hp : ∀ n, g.parent? n = f.parent? n) (d n : NodeId) :
    g.lineageIn d n = f.lineageIn d n := by
  induction d generalizing n with
  | zero => rfl
  | succ d ih =>
    simp only [lineageIn, hp]
    split <;> simp only [ih]

/-- The way up from an old node does not lead to a new one. -/
theorem Sound.lineage_add {f : Forest} (h : f.Sound) (name : Value) {cursor : Option NodeId}
    (hc : ∀ p, cursor = some p → p < f.size) {n : Nat} (hn : n < f.size) :
    (f.add name cursor).1.lineage n = f.lineage n := by
  have hadd := h.add name hc
  have hold : ∀ {n : Nat}, n < f.size → (f.add name cursor).1.parent? n = f.parent? n := fun hn => by
    rw [parent?_add, if_neg (Nat.ne_of_lt hn)]
  induction n using h.climb with
  | root n hp => rw [lineage_root hp, lineage_root ((hold hn).trans hp)]
  | child n p hp ih =>
    rw [h.lineage_child hp, hadd.lineage_child ((hold hn).trans hp),
      ih (Nat.lt_trans (h.earlier hp) hn)]

theorem Sound.lineage_new {f : Forest} (h : f.Sound) (name : Value) {cursor : Option NodeId}
    (hc : ∀ p, cursor = some p → p < f.size) :
    (f.add name cursor).1.lineage f.size = f.size :: f.lineageOf cursor := by
  have hp : (f.add name cursor).1.parent? f.size = cursor := by rw [parent?_add, if_pos rfl]
  cases cursor with
  | none => exact lineage_root hp
  | some p => rw [(h.add name hc).lineage_child hp, h.lineage_add name hc (hc p rfl)]; rfl

theorem lineage_modify {f : Forest} {change : Node → Node} (hc : ∀ x, (change x).parent = x.parent)
    (m n : NodeId) : (f.modify m change).lineage n = f.lineage n := by
  rw [lineage, size_modify, lineageIn_congr (parent?_modify hc m), lineage]

theorem siblings_modify {f : Forest} {change : Node → Node} (hc : ∀ x, (change x).children = x.children)
    (m : NodeId) (outer : Option NodeId) : (f.modify m change).siblings outer = f.siblings outer := by
  cases outer with
  | none => rfl
  | some p => exact children_modify hc m p

theorem specs_modify (f : Forest) (m n : NodeId) (change : Node → Node) :
    (f.modify m change).specs n =
      if m = n then ((f.node? n).map fun x => (change x).specs).getD [] else f.specs n := by
  simp only [specs, node?_modify]
  split <;> simp [Function.comp_def]

theorem specs_add (f : Forest) (name : Value) (cursor : Option NodeId) (n : NodeId) :
    (f.add name cursor).1.specs n = f.specs n := by
  have hnew : f.specs f.size = [] := by simp [specs, node?, size]
  cases cursor with
  | none =>
    show ((Forest.node? ⟨f.nodes.push { name, parent := none }, _⟩ n).map _).getD [] = _
    rw [node?_push]
    split
    · rename_i hn
      rw [hn, hnew]
      rfl
    · rfl
  | some p =>
    show (((Forest.modify _ p _).node? n).map _).getD [] = _
    rw [node?_modify, node?_push]
    split <;> split
    · rename_i hn
      rw [hn, hnew]
      rfl
    · simp [specs, Function.comp_def]
    · rename_i hn
      rw [hn, hnew]
      rfl
    · rfl

end Exemplar.Forest
