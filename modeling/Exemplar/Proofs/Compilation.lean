import Exemplar.Proofs.Reachable
import Exemplar.Proofs.Traversal

/-! Compilation from the top down.

The compiler rolls names and hooks up through the parent links. Its meaning goes the other way:
from the roots down through the children, with the names and hooks on the path. In a sound
forest whose names are texts and whose hooks can be called the two agree, and every node gives
one block of statements, its group and its own specs, in the order of the walk down. -/
namespace Exemplar

/-- What is carried down to a group. -/
structure Path where
  names : List String := []
  befores : List Value := []
  afters : List Value := []

namespace Path

/-- The path goes on through a group. -/
def enter (p : Path) (name : String) (node : Node) : Path where
  names := p.names ++ [name]
  befores := p.befores ++ [node.setup]
  afters := node.teardown :: p.afters

/-- The qualified name of the group at the end of a path. -/
def name (p : Path) : String := Forest.nameSeparator.intercalate p.names

/-- The group at the end of a path. -/
def group (p : Path) : Statement := .group p.name p.befores p.afters

end Path

/-- A group is what it has to be: its name is a text and its hooks can be called. -/
structure Node.Declarable (h : Heap) (node : Node) : Prop where
  name : ∃ text, node.name.asText? h = some text
  setup : node.setup.isCallable h = true
  teardown : node.teardown.isCallable h = true

namespace Forest

variable {f : Forest}

/-- The name of a node as a text. -/
def nameOf (h : Heap) (node : Node) : String := (node.name.asText? h).getD ""

/-- The path that goes on through a node. -/
def through (h : Heap) (f : Forest) (p : Path) (n : NodeId) : Path :=
  match f.node? n with
  | some node => p.enter (nameOf h node) node
  | none => p

/-- The statements of a node that is reached on a path: its group, its specs, then its children,
each with all that is below it. -/
def topDown (h : Heap) (f : Forest) (hf : f.Sound) (p : Path) (n : Nat) : List Statement :=
  (f.through h p n).group :: f.tests n ++
    (f.children n).attach.flatMap fun c => topDown h f hf (f.through h p n) c.1
termination_by f.size - n
decreasing_by
  have := hf.lt_size c.2
  omega

theorem topDown_eq (h : Heap) (hf : f.Sound) (p : Path) (n : NodeId) :
    f.topDown h hf p n = (f.through h p n).group :: f.tests n ++
      (f.children n).flatMap (f.topDown h hf (f.through h p n)) := by
  rw [topDown, List.flatMap_def, List.flatMap_def, List.attach_map_val]

/-! ### Paths and ways up -/

/-- The path that leads to a node and through it. -/
def pathTo (h : Heap) (f : Forest) (n : NodeId) : Path where
  names := ((f.ancestry n).map (nameOf h)).reverse
  befores := f.effectiveSetup n
  afters := f.effectiveTeardown n

/-- The path to what is below a node, or to the roots. -/
def pathBelow (h : Heap) (f : Forest) : Option NodeId → Path
  | some p => f.pathTo h p
  | none => {}

theorem exists_node {n : Nat} (hn : n < f.size) : ∃ node, f.node? n = some node :=
  ⟨f.nodes[n], Array.getElem?_eq_getElem hn⟩

/-- Entering a node from above is rolling up from it. -/
theorem Sound.through_pathBelow (hf : f.Sound) (h : Heap) {n : Nat} (hn : n < f.size) :
    f.through h (f.pathBelow h (f.parent? n)) n = f.pathTo h n := by
  obtain ⟨node, hnode⟩ := exists_node hn
  have hancestry : f.ancestry n =
      node :: match f.parent? n with
        | some p => f.ancestry p
        | none => [] := by
    cases hp : f.parent? n with
    | none => simp [ancestry, lineage_root hp, hnode]
    | some p => simp [ancestry, hf.lineage_child hp, hnode]
  simp only [through, hnode, pathTo, effectiveSetup, effectiveTeardown, hancestry]
  cases f.parent? n with
  | none => simp [pathBelow, Path.enter]
  | some p => simp [pathBelow, Path.enter, pathTo, effectiveSetup, effectiveTeardown]

/-- The statements of one node. -/
def block (h : Heap) (f : Forest) (n : NodeId) : List Statement := (f.pathTo h n).group :: f.tests n

theorem Sound.topDown_blocks (hf : f.Sound) (h : Heap) {n : Nat} (hn : n < f.size) :
    f.topDown h hf (f.pathBelow h (f.parent? n)) n = (f.walk n).flatMap (f.block h) := by
  induction n using hf.descend with
  | step n ih =>
    have hchildren : (f.children n).flatMap (f.topDown h hf (f.pathTo h n)) =
        (f.children n).flatMap fun c => (f.walk c).flatMap (f.block h) :=
      List.flatMap_congr fun c hc => by
        have hp : f.pathTo h n = f.pathBelow h (f.parent? c) := by rw [hf.listed.mp hc]; rfl
        rw [hp, ih c hc (hf.lt_size hc).2]
    rw [topDown_eq, hf.through_pathBelow h hn, hchildren, hf.walk_eq, List.flatMap_cons, List.flatMap_assoc]
    rfl

/-! ### The compiler -/

/-- Nothing keeps a forest from being compiled: names are texts, hooks can be called. -/
structure Compilable (h : Heap) (f : Forest) : Prop where
  name : ∀ n node, f.node? n = some node → ∃ text, node.name.asText? h = some text
  setup : ∀ n node, f.node? n = some node → node.setup.isCallable h = true
  teardown : ∀ n node, f.node? n = some node → node.teardown.isCallable h = true

theorem joinTexts_ok {h : Heap} {vs : List Value} (hv : ∀ v ∈ vs, ∃ text, v.asText? h = some text)
    (separator : String) :
    joinTexts h separator vs = .ok (separator.intercalate (vs.map fun v => (v.asText? h).getD "")) := by
  have hcollect : ∀ index, joinTexts.collect h index vs = .ok (vs.map fun v => (v.asText? h).getD "") := by
    induction vs with
    | nil => exact fun _ => rfl
    | cons v rest ih =>
      intro index
      obtain ⟨text, ht⟩ := hv v List.mem_cons_self
      simp only [joinTexts.collect, ht, ih (fun u hu => hv u (List.mem_cons_of_mem _ hu)) (index + 1)]
      simp [Except.map, ht]
  rw [joinTexts, hcollect]
  rfl

theorem hookIssues_nil {h : Heap} {hooks : List Value} (hc : ∀ v ∈ hooks, v.isCallable h = true)
    (field : String) (index : Nat) : hookIssues h field index hooks = [] := by
  induction hooks generalizing index with
  | nil => rfl
  | cons v rest ih =>
    simp only [hookIssues, if_pos (hc v List.mem_cons_self)]
    exact ih (fun u hu => hc u (List.mem_cons_of_mem _ hu)) (index + 1)

theorem mem_ancestry {n : NodeId} {node : Node} (hn : node ∈ f.ancestry n) :
    ∃ m, f.node? m = some node := by
  obtain ⟨m, -, hm⟩ := List.mem_filterMap.mp hn
  exact ⟨m, hm⟩

theorem Compilable.declarable {h : Heap} (hc : f.Compilable h) {n : NodeId} {node : Node}
    (hn : f.node? n = some node) : node.Declarable h :=
  ⟨hc.name n node hn, hc.setup n node hn, hc.teardown n node hn⟩

theorem qualifiedName_ok {h : Heap} {n : NodeId}
    (ha : ∀ node ∈ f.ancestry n, ∃ text, node.name.asText? h = some text) :
    f.qualifiedName h n = .ok (f.pathTo h n).name := by
  rw [qualifiedName, joinTexts_ok fun v hv => ?_, List.map_reverse, List.map_map]
  · rfl
  · obtain ⟨node, hn, rfl⟩ := List.mem_map.mp (List.mem_reverse.mp hv)
    exact ha node hn

theorem declare_ok {h : Heap} {n : NodeId} (ha : ∀ node ∈ f.ancestry n, node.Declarable h) (name : String) :
    Statement.declare h name (f.effectiveSetup n) (f.effectiveTeardown n) =
      .ok (.group name (f.effectiveSetup n) (f.effectiveTeardown n)) := by
  have hbefores : hookIssues h "befores" 0 (f.effectiveSetup n) = [] := hookIssues_nil (fun v hv => by
    obtain ⟨node, hn, rfl⟩ := List.mem_map.mp (List.mem_reverse.mp hv)
    exact (ha node hn).setup) _ _
  have hafters : hookIssues h "afters" 0 (f.effectiveTeardown n) = [] := hookIssues_nil (fun v hv => by
    obtain ⟨node, hn, rfl⟩ := List.mem_map.mp hv
    exact (ha node hn).teardown) _ _
  rw [Statement.declare, hbefores, hafters]
  rfl

theorem Compilable.ancestry {h : Heap} (hc : f.Compilable h) (n : NodeId) :
    ∀ node ∈ f.ancestry n, node.Declarable h := fun node hn => by
  obtain ⟨m, hm⟩ := mem_ancestry hn
  exact hc.declarable hm

theorem Sound.compileIn_ok (hf : f.Sound) {h : Heap} (hc : f.Compilable h) {d n : Nat}
    (hd : f.size ≤ n + d) (hn : n < f.size) : f.compileIn h d n = .ok ((f.walk n).flatMap (f.block h)) := by
  induction d generalizing n with
  | zero => omega
  | succ d ih =>
    have hinner : (f.children n).mapM (f.compileIn h d) =
        .ok ((f.children n).map fun c => (f.walk c).flatMap (f.block h)) := mapM_ok fun c hc => by
      have := hf.lt_size hc
      exact ih (by omega) this.2
    have hblocks : (f.walk n).flatMap (f.block h) =
        f.block h n ++ ((f.children n).map fun c => (f.walk c).flatMap (f.block h)).flatten := by
      rw [hf.walk_eq, List.flatMap_cons, List.flatMap_assoc, ← List.flatMap_def]
    have hname := qualifiedName_ok fun node hnode => (hc.ancestry n node hnode).name
    simp only [compileIn, hname, declare_ok (hc.ancestry n), hinner, hblocks]
    rfl

theorem Sound.compile_ok (hf : f.Sound) {h : Heap} (hc : f.Compilable h) :
    f.compile h = .ok (f.preorder.flatMap (f.block h)) := by
  have hroots : f.roots.mapM (f.compileNode h) =
      .ok (f.roots.map fun r => (f.walk r).flatMap (f.block h)) :=
    mapM_ok fun r hr => hf.compileIn_ok hc (Nat.le_add_left _ _) (hf.root.mp hr).1
  rw [compile, hroots, preorder, List.flatMap_assoc, List.flatMap_def]
  rfl

theorem Sound.topDown_roots (hf : f.Sound) (h : Heap) :
    f.roots.flatMap (f.topDown h hf {}) = f.preorder.flatMap (f.block h) := by
  rw [preorder, List.flatMap_assoc]
  refine List.flatMap_congr fun r hr => ?_
  have hp := (hf.root.mp hr).2
  rw [← hf.topDown_blocks h (hf.root.mp hr).1, hp]
  rfl

/-! ### What is compiled can be compiled -/

theorem joinTexts_eq_ok {h : Heap} {separator text : String} {vs : List Value}
    (ht : joinTexts h separator vs = .ok text) : ∀ v ∈ vs, ∃ text, v.asText? h = some text := by
  have hcollect : ∀ index r, joinTexts.collect h index vs = .ok r →
      ∀ v ∈ vs, ∃ text, v.asText? h = some text := by
    clear ht
    induction vs with
    | nil => exact fun _ _ _ _ hv => absurd hv List.not_mem_nil
    | cons v rest ih =>
      intro index r hr
      rw [joinTexts.collect] at hr
      cases hv : v.asText? h with
      | none => simp [hv] at hr
      | some s =>
        rw [hv] at hr
        cases hrest : joinTexts.collect h (index + 1) rest with
        | error f => simp [hrest, Except.map] at hr
        | ok more =>
          intro u hu
          rcases List.mem_cons.mp hu with rfl | hu
          · exact ⟨s, hv⟩
          · exact ih _ _ hrest u hu
  rw [joinTexts] at ht
  cases hr : joinTexts.collect h 0 vs with
  | error f => simp [hr, Except.map] at ht
  | ok r => exact hcollect 0 r hr

theorem hookIssues_eq_nil {h : Heap} {field : String} {index : Nat} {hooks : List Value}
    (hi : hookIssues h field index hooks = []) : ∀ v ∈ hooks, v.isCallable h = true := by
  induction hooks generalizing index with
  | nil => exact fun _ hv => absurd hv List.not_mem_nil
  | cons v rest ih =>
    simp only [hookIssues] at hi
    split at hi
    · rename_i hv
      intro u hu
      rcases List.mem_cons.mp hu with rfl | hu
      · exact hv
      · exact ih hi u hu
    · cases hi

theorem declare_eq_ok {h : Heap} {name : String} {befores afters : List Value} {s : Statement}
    (hs : Statement.declare h name befores afters = .ok s) :
    (∀ v ∈ befores, v.isCallable h = true) ∧ ∀ v ∈ afters, v.isCallable h = true := by
  rw [Statement.declare] at hs
  split at hs
  · rename_i hnil
    obtain ⟨hbefores, hafters⟩ := List.append_eq_nil_iff.mp hnil
    exact ⟨hookIssues_eq_nil hbefores, hookIssues_eq_nil hafters⟩
  · cases hs

/-- What a compiled node needs. -/
theorem Sound.compileIn_eq_ok (hf : f.Sound) {h : Heap} {d n : Nat} (hd : f.size ≤ n + d) (hn : n < f.size)
    {statements : List Statement} (hs : f.compileIn h d n = .ok statements) :
    ∀ m ∈ f.walk n, ∀ node, f.node? m = some node → (∃ text, node.name.asText? h = some text) ∧
      node.setup.isCallable h = true ∧ node.teardown.isCallable h = true := by
  induction d generalizing n statements with
  | zero => omega
  | succ d ih =>
    rw [compileIn] at hs
    obtain ⟨name, hname, hs⟩ := bind_eq_ok_iff.mp hs
    obtain ⟨group, hgroup, hs⟩ := bind_eq_ok_iff.mp hs
    obtain ⟨inner, hinner, -⟩ := bind_eq_ok_iff.mp hs
    obtain ⟨hbefores, hafters⟩ := declare_eq_ok hgroup
    intro m hm node hnode
    rw [hf.walk_eq, List.mem_cons, List.mem_flatMap] at hm
    rcases hm with rfl | ⟨c, hc, hm⟩
    · have hself : node ∈ f.ancestry m := List.mem_filterMap.mpr ⟨m, hf.self_mem_lineage m, hnode⟩
      exact ⟨joinTexts_eq_ok hname _ (List.mem_reverse.mpr (List.mem_map_of_mem hself)),
        hbefores _ (List.mem_reverse.mpr (List.mem_map_of_mem hself)),
        hafters _ (List.mem_map_of_mem hself)⟩
    · have hlt := hf.lt_size hc
      obtain ⟨below, hbelow⟩ := mapM_eq_ok hinner c hc
      exact ih (by omega) hlt.2 hbelow m hm node hnode

theorem Sound.compilable (hf : f.Sound) {h : Heap} {statements : List Statement}
    (hs : f.compile h = .ok statements) : f.Compilable h := by
  rw [compile] at hs
  obtain ⟨blocks, hblocks, -⟩ := bind_eq_ok_iff.mp hs
  have hall : ∀ n node, f.node? n = some node → (∃ text, node.name.asText? h = some text) ∧
      node.setup.isCallable h = true ∧ node.teardown.isCallable h = true := fun n node hn => by
    have hlt : n < f.size := (Array.getElem?_eq_some_iff.mp hn).1
    obtain ⟨r, hr, hw⟩ := List.mem_flatMap.mp (hf.mem_preorder.mpr hlt)
    obtain ⟨below, hbelow⟩ := mapM_eq_ok hblocks r hr
    exact hf.compileIn_eq_ok (Nat.le_add_left _ _) (hf.root.mp hr).1 hbelow n hw node hn
  exact ⟨fun n node hn => (hall n node hn).1, fun n node hn => (hall n node hn).2.1,
    fun n node hn => (hall n node hn).2.2⟩

end Forest

theorem compile_apply (b : BuildId) (u : Session) :
    Act.compile b u = ((u.build b).forest.compile u.heap, u) := by
  show (Act.ofExcept ((u.build b).forest.compile u.heap) : Act (List Statement)) u = _
  cases (u.build b).forest.compile u.heap <;> rfl

/-- A built forest compiles to what the recursion from the roots down gives: the blocks of its
nodes, each node once, in the order of the walk down. -/
theorem compile_topDown {K : List Opening} {s : Session} (hs : Reachable K s) (b : BuildId) (h : Heap)
    (hc : (s.build b).forest.Compilable h) :
    let f := (s.build b).forest
    f.compile h = .ok (f.roots.flatMap (f.topDown h (hs.fits.builds b).sound {})) ∧
    f.roots.flatMap (f.topDown h (hs.fits.builds b).sound {}) = f.preorder.flatMap (f.block h) ∧
    f.preorder.Nodup ∧ ∀ n : Nat, n ∈ f.preorder ↔ n < f.size := by
  have hf := (hs.fits.builds b).sound
  have hdown := hf.topDown_roots h
  exact ⟨by rw [hdown, hf.compile_ok hc], hdown, hf.preorder_nodup, fun n => hf.mem_preorder⟩

/-- A group within a group. -/
def Session.nested : Session := (Session.opened (Session.entering {}) 0 (.text "a")).opened 0 (.text "b")

theorem compile_topDown_nested :
    Reachable [.group 0 1 (some 0), .group 0 0 none, .build none] Session.nested ∧
    (Session.nested.build 0).forest.Compilable {} ∧
    (Session.nested.build 0).forest.compile {} =
      .ok [.group "a" [.noop] [.noop], .group "a, b" [.noop, .noop] [.noop, .noop]] := by
  have hstart : Reachable [] {} := .start (fun _ => rfl) nofun nofun
  have h := (hstart.enterBuild.openGroup (b := 0) (.text "a") rfl).openGroup (b := 0) (.text "b") rfl
  have hnode : ∀ n node, (Session.nested.build 0).forest.node? n = some node →
      (node.name = .text "a" ∨ node.name = .text "b") ∧ node.setup = .noop ∧ node.teardown = .noop := by
    intro n node hn
    match n, hn with
    | 0, hn => cases hn; decide
    | 1, hn => cases hn; decide
  have hc : (Session.nested.build 0).forest.Compilable {} := by
    refine ⟨fun n node hn => ?_, fun n node hn => ?_, fun n node hn => ?_⟩
    · rcases (hnode n node hn).1 with hname | hname <;> exact ⟨_, by rw [hname]; rfl⟩
    · rw [(hnode n node hn).2.1]
      rfl
    · rw [(hnode n node hn).2.2]
      rfl
  obtain ⟨hcompile, hblocks, -⟩ := compile_topDown h 0 {} hc
  exact ⟨h, hc, hcompile.trans (congrArg Except.ok (hblocks.trans (by decide)))⟩

end Exemplar
