import Exemplar.Proofs.Compilation
import Exemplar.Proofs.Later

/-! Forests that are refused.

Verbs take any name of a group and any hook; the compiler does not. It goes through the nodes of a
forest in the order of the walk down (`Forest.Sound.compile_walks`), and fails with the refusal of
the first one that it can not declare, because of that node's own name or hooks
(`Forest.Sound.compile_refused`). Specs, which their verb has looked at, are never refused. -/
namespace Exemplar

open Act

/-- What the hooks of a group at this depth are complained of for. -/
def Node.issues (h : Heap) (depth : Nat) (node : Node) : List Issue :=
  hookIssues h "befores" depth [node.setup] ++ hookIssues h "afters" 0 [node.teardown]

/-- Why a group at this depth can not be declared, if all above it can: its name is no text, or one
of its hooks can not be called. -/
def Node.refusal? (h : Heap) (depth : Nat) (node : Node) : Option Failure :=
  match node.name.asText? h with
  | none => some (.fault (.joinItem depth (node.name.fullTypeName h)))
  | some _ => if node.issues h depth = [] then none else some (.invalid "DeclareGroup" (node.issues h depth))

theorem Node.issues_eq_nil {h : Heap} {depth : Nat} {node : Node} :
    node.issues h depth = [] ↔ node.setup.isCallable h = true ∧ node.teardown.isCallable h = true := by
  simp only [issues, List.append_eq_nil_iff, hookIssues]
  by_cases hs : node.setup.isCallable h = true <;> by_cases ht : node.teardown.isCallable h = true <;>
    simp [hs, ht]

theorem Node.refusal?_eq_none {h : Heap} {depth : Nat} {node : Node} :
    node.refusal? h depth = none ↔ node.Declarable h := by
  unfold Node.refusal?
  cases hname : node.name.asText? h with
  | none => exact ⟨nofun, fun hd => by obtain ⟨text, ht⟩ := hd.name; cases hname.symm.trans ht⟩
  | some text =>
    dsimp only
    split
    · rename_i hnil
      obtain ⟨hs, ht⟩ := issues_eq_nil.mp hnil
      exact iff_of_true rfl ⟨⟨text, hname⟩, hs, ht⟩
    · rename_i hissues
      exact iff_of_false nofun fun hd => hissues (issues_eq_nil.mpr ⟨hd.setup, hd.teardown⟩)

namespace Forest

variable {f : Forest} {h : Heap}

/-- Why a node can not be declared, if all above it can. -/
def refusal? (h : Heap) (f : Forest) (n : NodeId) : Option Failure :=
  (f.node? n).bind (·.refusal? h (f.depth n))

/-! ### The compiler as a traversal -/

/-- The statements of a node, with what is rolled up to it. -/
def blockOf (h : Heap) (f : Forest) (n : NodeId) : Except Failure (List Statement) := do
  return (← Statement.declare h (← f.qualifiedName h n) (f.effectiveSetup n) (f.effectiveTeardown n)) :: f.tests n

theorem Sound.compileIn_walks (hf : f.Sound) {d n : Nat} (hd : f.size ≤ n + d) (hn : n < f.size) :
    f.compileIn h d n = ((f.walk n).mapM (f.blockOf h)).map List.flatten := by
  induction d generalizing n with
  | zero => omega
  | succ d ih =>
    have hinner : (f.children n).mapM (f.compileIn h d) =
        ((f.children n).mapM fun c => (f.walk c).mapM (f.blockOf h)).map (List.map List.flatten) :=
      mapM_map fun c hc => by
        have := hf.lt_size hc
        exact ih (by omega) this.2
    rw [hf.walk_eq, List.mapM_cons, mapM_flatMap, compileIn, hinner, blockOf]
    cases f.qualifiedName h n with
    | error e => rfl
    | ok name =>
      cases hg : Statement.declare h name (f.effectiveSetup n) (f.effectiveTeardown n) with
      | error e => simp [bind, Except.bind, hg, Except.map]
      | ok group =>
        cases (f.children n).mapM fun c => (f.walk c).mapM (f.blockOf h) with
        | error e => simp [bind, Except.bind, hg, Except.map, pure, Except.pure]
        | ok blocks => simp [bind, Except.bind, hg, Except.map, pure, Except.pure, List.flatten_flatten]

/-- The compiler goes through the nodes in the order of the walk down. -/
theorem Sound.compile_walks (hf : f.Sound) :
    f.compile h = (f.preorder.mapM (f.blockOf h)).map List.flatten := by
  have hroots : f.roots.mapM (f.compileNode h) =
      (f.roots.mapM fun r => (f.walk r).mapM (f.blockOf h)).map (List.map List.flatten) :=
    mapM_map fun r hr => hf.compileIn_walks (Nat.le_add_left _ _) (hf.root.mp hr).1
  rw [compile, hroots, preorder, mapM_flatMap]
  cases f.roots.mapM fun r => (f.walk r).mapM (f.blockOf h) with
  | error e => rfl
  | ok blocks => simp [bind, Except.bind, Except.map, pure, Except.pure, List.flatten_flatten]

/-! ### The order of the walk -/

theorem flatMap_split {α β : Type} {k : α → List β} {l : List α} {before after : List β} {y : β}
    (hl : l.flatMap k = before ++ y :: after) :
    ∃ x ∈ l, ∃ first rest, k x = first ++ y :: rest ∧ first ⊆ before := by
  induction l generalizing before with
  | nil => simp at hl
  | cons x tail ih =>
    rw [List.flatMap_cons] at hl
    rcases List.append_eq_append_iff.mp hl with ⟨mid, hbefore, htail⟩ | ⟨mid, hx, hrest⟩
    · obtain ⟨x', hx', first, rest, hk, hsub⟩ := ih htail
      exact ⟨x', List.mem_cons_of_mem _ hx', first, rest, hk, fun z hz => by
        rw [hbefore]; exact List.mem_append_right _ (hsub hz)⟩
    · cases mid with
      | nil =>
        have htail : tail.flatMap k = [] ++ y :: after := hrest.symm
        obtain ⟨x', hx', first, rest, hk, hsub⟩ := ih htail
        exact ⟨x', List.mem_cons_of_mem _ hx', first, rest, hk, fun z hz => absurd (hsub hz) List.not_mem_nil⟩
      | cons z mid =>
        obtain ⟨rfl, -⟩ := List.cons.inj hrest
        exact ⟨x, List.mem_cons_self, before, mid, hx, List.Subset.refl _⟩

/-- In the walk from a node what is above another one comes before it. -/
theorem Sound.walk_parent (hf : f.Sound) {r n p : NodeId} {before after : List NodeId}
    (hw : f.walk r = before ++ n :: after) (hp : f.parent? n = some p) (hr : f.parent? r ≠ some p) :
    p ∈ before := by
  induction r using hf.descend generalizing before after with
  | step r ih =>
    rw [hf.walk_eq] at hw
    cases before with
    | nil =>
      obtain ⟨rfl, -⟩ := List.cons.inj hw
      exact absurd hp hr
    | cons m before =>
      obtain ⟨rfl, hbelow⟩ := List.cons.inj (hw.trans (List.cons_append ..))
      obtain ⟨c, hc, first, rest, hk, hsub⟩ := flatMap_split hbelow
      by_cases hparent : p = r
      · exact hparent ▸ List.mem_cons_self
      · refine List.mem_cons_of_mem _ (hsub (ih c hc hk ?_))
        rw [hf.listed.mp hc]
        exact fun h => hparent (Option.some.inj h).symm

theorem Sound.preorder_parent (hf : f.Sound) {n p : NodeId} {before after : List NodeId}
    (hw : f.preorder = before ++ n :: after) (hp : f.parent? n = some p) : p ∈ before := by
  obtain ⟨r, hr, first, rest, hk, hsub⟩ := flatMap_split hw
  refine hsub (hf.walk_parent hk hp ?_)
  rw [(hf.root.mp hr).2]
  nofun

/-! ### The first refusal -/

theorem joinTexts_refused {h : Heap} {vs : List Value} (hv : ∀ v ∈ vs, ∃ text, v.asText? h = some text)
    {v : Value} (hnone : v.asText? h = none) (separator : String) :
    joinTexts h separator (vs ++ [v]) = .error (.fault (.joinItem vs.length (v.fullTypeName h))) := by
  have hcollect : ∀ index, joinTexts.collect h index (vs ++ [v]) =
      .error (.fault (.joinItem (index + vs.length) (v.fullTypeName h))) := by
    induction vs with
    | nil => exact fun index => by simp [joinTexts.collect, hnone]
    | cons u rest ih =>
      intro index
      obtain ⟨text, ht⟩ := hv u List.mem_cons_self
      have hrest := ih (fun w hw => hv w (List.mem_cons_of_mem _ hw)) (index + 1)
      simp only [List.cons_append, joinTexts.collect, ht, hrest, List.length_cons, Except.map,
        Nat.add_right_comm index 1, Nat.add_assoc]
  rw [joinTexts, hcollect, Nat.zero_add]
  rfl

theorem hookIssues_append {h : Heap} {field : String} {index : Nat} (vs ws : List Value) :
    hookIssues h field index (vs ++ ws) =
      hookIssues h field index vs ++ hookIssues h field (index + vs.length) ws := by
  induction vs generalizing index with
  | nil => rfl
  | cons v rest ih =>
    have hindex : index + 1 + rest.length = index + (rest.length + 1) := by omega
    simp only [List.cons_append, hookIssues, ih, List.length_cons, hindex]
    split <;> rfl

/-- The nodes above a node, innermost first. -/
def above (f : Forest) (n : NodeId) : List Node := (f.ancestry n).tail

section Above

variable {n p : NodeId} {node : Node} (hf : f.Sound)
include hf

omit hf in
theorem ancestry_root (hp : f.parent? n = none) (hn : f.node? n = some node) : f.ancestry n = [node] := by
  simp [ancestry, lineage_root hp, hn]

theorem Sound.ancestry_child (hp : f.parent? n = some p) (hn : f.node? n = some node) :
    f.ancestry n = node :: f.ancestry p := by
  simp [ancestry, hf.lineage_child hp, hn]

theorem Sound.ancestry_node (hn : f.node? n = some node) : f.ancestry n = node :: f.above n := by
  cases hp : f.parent? n with
  | none => rw [above, ancestry_root hp hn, List.tail_cons]
  | some p => rw [above, hf.ancestry_child hp hn, List.tail_cons]

theorem Sound.above_child (hp : f.parent? n = some p) (hn : f.node? n = some node) :
    f.above n = f.ancestry p := by
  rw [above, hf.ancestry_child hp hn, List.tail_cons]

theorem Sound.length_above (hn : f.node? n = some node) : (f.above n).length = f.depth n := by
  induction n using hf.climb generalizing node with
  | root n hp =>
    rw [above, ancestry_root hp hn, depth, lineage_root hp]
    rfl
  | child n p hp ih =>
    obtain ⟨parent, hparent⟩ := exists_node (Nat.lt_trans (hf.earlier hp) (lt_size_of_parent? hp))
    have hself := List.length_pos_of_mem (hf.self_mem_lineage p)
    have hdepth := ih hparent
    rw [depth] at hdepth
    rw [hf.above_child hp hn, hf.ancestry_node hparent, List.length_cons, hdepth, depth, hf.lineage_child hp,
      List.length_cons]
    omega

end Above

section First

variable {n : NodeId} {node : Node} (hf : f.Sound)
include hf

/-- A node that can not be declared is refused for its own sake if all above it can be. -/
theorem Sound.blockOf_refused (hn : f.node? n = some node) (ha : ∀ a ∈ f.above n, a.Declarable h)
    {e : Failure} (he : f.refusal? h n = some e) : f.blockOf h n = .error e := by
  have hnames : (f.ancestry n).map (·.name) = node.name :: (f.above n).map (·.name) := by
    rw [hf.ancestry_node hn, List.map_cons]
  have htexts : ∀ v ∈ ((f.above n).map (·.name)).reverse, ∃ text, v.asText? h = some text := fun v hv => by
    obtain ⟨a, hmem, rfl⟩ := List.mem_map.mp (List.mem_reverse.mp hv)
    exact (ha a hmem).name
  rw [refusal?, hn, Option.bind_some, Node.refusal?, ← hf.length_above hn] at he
  rw [blockOf, qualifiedName, hnames, List.reverse_cons]
  cases hname : node.name.asText? h with
  | none =>
    rw [hname] at he
    obtain rfl := Option.some.inj he
    rw [joinTexts_refused htexts hname, List.length_reverse, List.length_map]
    rfl
  | some text =>
    have hsetups : hookIssues h "befores" 0 (f.effectiveSetup n) =
        hookIssues h "befores" (f.above n).length [node.setup] := by
      rw [effectiveSetup, hf.ancestry_node hn, List.map_cons, List.reverse_cons, hookIssues_append,
        hookIssues_nil (fun v hv => ?_), List.length_reverse, List.length_map, Nat.zero_add, List.nil_append]
      obtain ⟨a, hmem, rfl⟩ := List.mem_map.mp (List.mem_reverse.mp hv)
      exact (ha a hmem).setup
    have hteardowns : hookIssues h "afters" 0 (f.effectiveTeardown n) =
        hookIssues h "afters" 0 [node.teardown] := by
      rw [effectiveTeardown, hf.ancestry_node hn, List.map_cons, ← List.singleton_append, hookIssues_append,
        hookIssues_nil (fun v hv => ?_) _ (0 + _), List.append_nil]
      obtain ⟨a, hmem, rfl⟩ := List.mem_map.mp hv
      exact (ha a hmem).teardown
    have hall : ∀ v ∈ ((f.above n).map (·.name)).reverse ++ [node.name], ∃ text, v.asText? h = some text :=
      List.forall_mem_append.mpr ⟨htexts, List.forall_mem_singleton.mpr ⟨text, hname⟩⟩
    rw [joinTexts_ok hall]
    rw [hname] at he
    dsimp only at he
    split at he
    · cases he
    · rename_i hissues
      obtain rfl := Option.some.inj he
      have hdeclare : ∀ name, Statement.declare h name (f.effectiveSetup n) (f.effectiveTeardown n) =
          .error (.invalid "DeclareGroup" (node.issues h (f.above n).length)) := fun name => by
        rw [Statement.declare, hsetups, hteardowns]
        split
        · rename_i hnil
          exact absurd hnil hissues
        · rfl
      exact congrArg (· >>= fun group => pure (group :: f.tests n)) (hdeclare _)

/-- Up to the first node that can not be declared, all above a node can be. -/
theorem Sound.above_declarable {before after : List NodeId} (hw : f.preorder = before ++ n :: after)
    (hb : ∀ m ∈ before, f.refusal? h m = none) : ∀ a ∈ f.above n, a.Declarable h := by
  induction n using hf.climb generalizing before after with
  | root n hp =>
    obtain ⟨node, hn⟩ := exists_node (hf.mem_preorder.mp (hw ▸ List.mem_append_right _ List.mem_cons_self))
    rw [above, ancestry_root hp hn]
    exact fun _ ha => absurd ha List.not_mem_nil
  | child n p hp ih =>
    obtain ⟨node, hn⟩ := exists_node (lt_size_of_parent? hp)
    obtain ⟨parent, hparent⟩ := exists_node (Nat.lt_trans (hf.earlier hp) (lt_size_of_parent? hp))
    have hmem := hf.preorder_parent hw hp
    have hnone := hb p hmem
    rw [refusal?, hparent] at hnone
    obtain ⟨first, rest, rfl⟩ := List.append_of_mem hmem
    rw [hf.above_child hp hn, hf.ancestry_node hparent]
    have hw' : f.preorder = first ++ p :: (rest ++ n :: after) := by
      rw [hw, List.append_assoc, List.cons_append]
    exact List.forall_mem_cons.mpr ⟨Node.refusal?_eq_none.mp hnone,
      ih hw' fun m hm => hb m (List.mem_append_left _ hm)⟩

/-- The compiler fails with the first refusal in the order of the walk down. -/
theorem Sound.compile_refused : f.compile h =
    match f.preorder.findSome? (f.refusal? h) with
    | some e => .error e
    | none => .ok (f.preorder.flatMap (f.block h)) := by
  cases hfirst : f.preorder.findSome? (f.refusal? h) with
  | none =>
    have hnone := List.findSome?_eq_none_iff.mp hfirst
    have hdeclarable : ∀ n node, f.node? n = some node → node.Declarable h := fun n node hn => by
      have hrefusal := hnone n (hf.mem_preorder.mpr (Array.getElem?_eq_some_iff.mp hn).1)
      rw [refusal?, hn] at hrefusal
      exact Node.refusal?_eq_none.mp hrefusal
    exact hf.compile_ok ⟨fun n node hn => (hdeclarable n node hn).name,
      fun n node hn => (hdeclarable n node hn).setup, fun n node hn => (hdeclarable n node hn).teardown⟩
  | some e =>
    obtain ⟨before, n, after, hw, he, hb⟩ := List.findSome?_eq_some_iff.mp hfirst
    obtain ⟨node, hn⟩ := exists_node (hf.mem_preorder.mp (hw ▸ List.mem_append_right _ List.mem_cons_self))
    have hblock := hf.blockOf_refused hn (hf.above_declarable hw hb) he
    have hblocks : ∀ m ∈ before, ∃ block, f.blockOf h m = .ok block := fun m hm => by
      obtain ⟨first, rest, rfl⟩ := List.append_of_mem hm
      have hw' : f.preorder = first ++ m :: (rest ++ n :: after) := by
        rw [hw, List.append_assoc, List.cons_append]
      obtain ⟨node', hm'⟩ := exists_node (hf.mem_preorder.mp (hw' ▸ List.mem_append_right _ List.mem_cons_self))
      have hnone := hb m hm
      rw [refusal?, hm'] at hnone
      have hall : ∀ a ∈ f.ancestry m, a.Declarable h := by
        rw [hf.ancestry_node hm']
        exact List.forall_mem_cons.mpr ⟨Node.refusal?_eq_none.mp hnone,
          hf.above_declarable hw' fun k hk => hb k (List.mem_append_left _ hk)⟩
      rw [blockOf, qualifiedName_ok fun node hn => (hall node hn).name]
      exact ⟨_, congrArg (· >>= fun group => pure (group :: f.tests m)) (declare_ok hall _)⟩
    rw [hf.compile_walks, hw, mapM_refused hblocks hblock]
    rfl

end First

end Forest

/-! ### Built forests -/

theorem Forest.refusal?_kind {f : Forest} {h : Heap} {n : NodeId} {e : Failure} (he : f.refusal? h n = some e) :
    e.kind = .typeError ∨ e.kind = .validationError := by
  obtain ⟨node, -, he⟩ := Option.bind_eq_some_iff.mp he
  unfold Node.refusal? at he
  split at he
  · obtain rfl := Option.some.inj he
    exact .inl rfl
  · split at he
    · cases he
    · obtain rfl := Option.some.inj he
      exact .inr rfl

/-- A hook is not looked at when it is set: only a group has to be open. -/
theorem Act.hook_taken (b : BuildId) (hook : Value) (s : Session) :
    (before b hook s).1 = (openGroup b "before" s).1.map (fun _ => ()) ∧
      (after b hook s).1 = (openGroup b "after" s).1.map fun _ => () := by
  constructor
  · unfold before
    rcases hopen : openGroup b "before" s with ⟨e | n, t⟩
    · rw [bind_error hopen]
      rfl
    · rw [bind_ok hopen]
      rfl
  · unfold after
    rcases hopen : openGroup b "after" s with ⟨e | n, t⟩
    · rw [bind_error hopen]
      rfl
    · rw [bind_ok hopen]
      rfl

theorem BuilderFunction.Programmed.reachable {fn : BuilderFunction} (hfn : fn.Programmed) {K : List Opening}
    {s : Session} (hs : Reachable K s) : Reachable K (buildForest fn s).2 :=
  (hfn.build_alike (A := Reachable.accord) ⟨id, Nat.zero_le⟩ s s hs.moment).2.reachable

/-- What is built fits the groups that are open. -/
theorem BuilderFunction.Programmed.fits {fn : BuilderFunction} (hfn : fn.Programmed) {K : List Opening}
    {s t : Session} (hs : Reachable K s) {r : Except Failure BuildId} (hb : buildForest fn s = (r, t))
    (b : BuildId) : (t.build b).Fits t.heap (Opening.groups b K) := by
  have hreachable := hfn.reachable hs
  rw [hb] at hreachable
  exact hreachable.fits.builds b

/-- A forest that a build returns is compiled to the blocks of its nodes, unless the name of one of
its groups is no text or a hook can not be called. Verbs do not mind these: then compilation fails
with the refusal of the first such group, an error of a type or of a value. Specs are never a
reason, since every one that was declared can be called. -/
theorem compile_refuses_first {K : List Opening} {s t : Session} {fn : BuilderFunction} {b : BuildId}
    (hs : Reachable K s) (hfn : fn.Programmed) (hbuild : buildForest fn s = (.ok b, t)) :
    let f := (t.build b).forest
    compile b t = (match f.preorder.findSome? (f.refusal? t.heap) with
      | some e => .error e
      | none => .ok (f.preorder.flatMap (f.block t.heap)), t) ∧
    ((∃ statements, compile b t = (.ok statements, t)) ↔ f.Compilable t.heap) ∧
    (∀ n e, f.refusal? t.heap n = some e → e.kind = .typeError ∨ e.kind = .validationError) ∧
    (∀ n, ∀ spec ∈ f.specs n, spec.body.isCallable t.heap = true) ∧
    ∀ c hook u, (before c hook u).1 = (openGroup c "before" u).1.map (fun _ => ()) ∧
      (after c hook u).1 = (openGroup c "after" u).1.map fun _ => () := by
  have hfits := hfn.fits hs hbuild b
  refine ⟨?_, ⟨fun ⟨statements, hc⟩ => ?_, fun hc => ?_⟩, fun n e => Forest.refusal?_kind,
    hfits.bodies, hook_taken⟩
  · rw [compile_apply, hfits.sound.compile_refused]
  · rw [compile_apply] at hc
    exact hfits.sound.compilable (congrArg Prod.fst hc)
  · exact ⟨_, by rw [compile_apply, hfits.sound.compile_ok hc]⟩

/-- A group with a hook that can not be called in a good one, and a group whose name is no text. -/
def Source.misused : Source where
  steps := [
    .describe none (.text "a") (.script none [
      .describe none (.text "b") (.script none [
        .before none (.value (.int 3)) false,
        .it none (.text "c") (.script none []) false]) false]) false,
    .describe none (.int 42) (.script none []) false]

/-- The session after they were declared, without an error. -/
def Session.misused : Session := (buildForest (builderIn none 0 .misused) {}).2

theorem ended_of_toOption {α : Type} {made : Except Failure α × Session} {a : α}
    (h : made.1.toOption = some a) : made = (.ok a, made.2) := by
  obtain ⟨_ | _, t⟩ := made
  · cases h
  · rw [Option.some.inj h]

theorem Session.misused_built : buildForest (builderIn none 0 .misused) {} = (.ok 0, Session.misused) :=
  ended_of_toOption (by decide +kernel)

/-- What was declared. -/
def Forest.misused : Forest where
  nodes := #[{ name := .text "a", parent := none, children := [1] },
    { name := .text "b", parent := some 0, specs := [⟨"c", .object 2⟩], setup := .int 3 },
    { name := .int 42, parent := none }]
  roots := [0, 2]

theorem Session.misused_forest : (Session.misused.build 0).forest = .misused := by decide +kernel

/-- The refusal of the hook, in the group below the first. -/
def misusedHook : Failure := .invalid "DeclareGroup" [⟨.callableType, [.field "befores", .index 1], .int 3⟩]

theorem Forest.misused_refusals (h : Heap) : Forest.misused.refusal? h 0 = none ∧
    Forest.misused.refusal? h 1 = some misusedHook ∧
    Forest.misused.refusal? h 2 = some (.fault (.joinItem 0 "int")) := by
  refine ⟨rfl, rfl, rfl⟩

theorem Forest.misused_uncompilable (h : Heap) : ¬ Forest.misused.Compilable h := fun hc => by
  obtain ⟨text, ht⟩ := hc.name 2 _ rfl
  cases ht

theorem BuilderFunction.misused_programmed : (builderIn none 0 .misused).Programmed :=
  .script .param none 0 callDepth id _

/-- The hook is refused, which stands before the group with the number in the walk down. -/
theorem compile_refuses_first_misused :
    Reachable [] {} ∧ buildForest (builderIn none 0 .misused) {} = (.ok 0, Session.misused) ∧
    compile 0 Session.misused = (.error misusedHook, Session.misused) := by
  have hstart : Reachable [] {} := .start (fun _ => rfl) nofun nofun
  obtain ⟨hcompile, -⟩ :=
    compile_refuses_first hstart BuilderFunction.misused_programmed Session.misused_built
  have hpreorder : Forest.misused.preorder = [0, 1, 2] := by decide +kernel
  obtain ⟨hfirst, hsecond, -⟩ := Forest.misused_refusals Session.misused.heap
  rw [Session.misused_forest, hpreorder, List.findSome?_cons, hfirst, List.findSome?_cons, hsecond] at hcompile
  exact ⟨hstart, Session.misused_built, hcompile⟩

/-- Not every forest that a build returns can be compiled. -/
theorem built_forest_uncompiled : ¬ ∀ (fn : BuilderFunction) (s t : Session) (b : BuildId),
    Reachable [] s → fn.Programmed → buildForest fn s = (.ok b, t) →
      ∃ statements, compile b t = (.ok statements, t) := by
  intro hall
  have hstart : Reachable [] {} := .start (fun _ => rfl) nofun nofun
  obtain ⟨statements, hc⟩ := hall _ _ _ _ hstart BuilderFunction.misused_programmed Session.misused_built
  rw [compile_apply, Session.misused_forest] at hc
  have hreachable : Reachable [] Session.misused := BuilderFunction.misused_programmed.reachable hstart
  have hsound := (hreachable.fits.builds 0).sound
  rw [Session.misused_forest] at hsound
  exact Forest.misused_uncompilable _ (hsound.compilable (congrArg Prod.fst hc))

end Exemplar
