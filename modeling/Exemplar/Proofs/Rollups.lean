import Exemplar.Proofs.Clauses
import Mathlib.Algebra.GroupWithZero.Nat

/-! The hooks that groups end up with.

Nodes are numbered in the order in which their groups are described, so the calls of a builder tell
what every node is in the end (`Clause.Grows`). From there the statements follow: each group comes
with the hooks that were set last in it and in the groups around it, whenever that was, and with a
test for each of its specs (`Clause.GivesAll`). Calling the hooks elsewhere in their groups makes no
difference (`Clause.hooks_rearranged`). -/
namespace Exemplar

open Act

/-- The path goes on through a group, whose hooks are the last ones that its calls set. -/
def Path.into (h : Heap) (p : Path) (name : Value) (cs : List Clause) : Path where
  names := p.names ++ [(name.asText? h).getD ""]
  befores := p.befores ++ [(Clause.setups cs).getLast?.getD .noop]
  afters := (Clause.teardowns cs).getLast?.getD .noop :: p.afters

/-- What a node is but for its parent and for what its specs are. -/
structure Sketch where
  name : Value
  children : List NodeId := []
  setup : Value := .noop
  teardown : Value := .noop
  specs : Nat := 0

/-- A group in which no call was made. -/
def Sketch.fresh (name : Value) : Sketch := { name }

def Node.sketch (x : Node) : Sketch := ⟨x.name, x.children, x.setup, x.teardown, x.specs.length⟩

def Forest.sketches (f : Forest) : List Sketch := f.nodes.toList.map Node.sketch

namespace Clause

/-! ### Numbers of groups and specs -/

mutual

def count : Clause → Nat
  | .describe _ cs => countAll cs + 1
  | _ => 0

/-- The number of groups, those inside groups included. -/
def countAll : List Clause → Nat
  | [] => 0
  | c :: cs => c.count + countAll cs

end

/-- The nodes that groups become if the next node is `base`. -/
def tops (base : NodeId) : List Clause → List NodeId
  | [] => []
  | .describe _ inner :: cs => base :: tops (base + (countAll inner + 1)) cs
  | _ :: cs => tops base cs

/-- The number of specs that a call adds to the open group. -/
def added : Clause → Nat
  | .it .. => 1
  | .given args _ _ => args.length
  | _ => 0

def addedAll (cs : List Clause) : Nat := (cs.map added).sum

/-- What the calls make of the group in which they are made, if the next node is `base`. -/
def fill (base : NodeId) (cs : List Clause) (x : Sketch) : Sketch where
  name := x.name
  children := x.children ++ tops base cs
  setup := (setups cs).getLast?.getD x.setup
  teardown := (teardowns cs).getLast?.getD x.teardown
  specs := x.specs + addedAll cs

mutual

def sketches (base : NodeId) : Clause → List Sketch
  | .describe name cs => fill (base + 1) cs (.fresh name) :: sketchesAll (base + 1) cs
  | _ => []

/-- The new nodes, if the next one is `base`. -/
def sketchesAll (base : NodeId) : List Clause → List Sketch
  | [] => []
  | c :: cs => c.sketches base ++ sketchesAll (base + c.count) cs

end

/-! ### Statements -/

mutual

/-- The statements of a group on a path: the group with its name and its hooks rolled up, a test for each of its
specs, and then the groups inside. -/
inductive Gives (h : Heap) : Path → Clause → List Statement → Prop
  | group {p name cs inner} (specs : List Spec) : specs.length = addedAll cs →
      GivesAll h (p.into h name cs) cs inner → Gives h p (.describe name cs)
        ((p.into h name cs).group :: (specs.map fun s => .test s.description s.body) ++ inner)
  | other {p c} : (∀ name cs, c ≠ .describe name cs) → Gives h p c []

inductive GivesAll (h : Heap) : Path → List Clause → List Statement → Prop
  | nil {p} : GivesAll h p [] []
  | cons {p c cs first rest} : Gives h p c first → GivesAll h p cs rest → GivesAll h p (c :: cs) (first ++ rest)

end

mutual

theorem length_sketches (base : NodeId) : (c : Clause) → (c.sketches base).length = c.count
  | .describe _ cs => congrArg (· + 1) (length_sketchesAll (base + 1) cs)
  | .before _ | .after _ | .it _ _ | .given _ _ _ | .interlude _ => rfl

theorem length_sketchesAll (base : NodeId) : (cs : List Clause) → (sketchesAll base cs).length = countAll cs
  | [] => rfl
  | c :: cs => by
    rw [sketchesAll, List.length_append, length_sketches, length_sketchesAll, countAll]

end

theorem tops_cons (base : NodeId) (c : Clause) (cs : List Clause) :
    tops base (c :: cs) = tops base [c] ++ tops (base + c.count) cs := by
  cases c <;> rfl

theorem fill_cons (base : NodeId) (c : Clause) (cs : List Clause) (x : Sketch) :
    fill (base + c.count) cs (fill base [c] x) = fill base (c :: cs) x := by
  have hsetups : setups (c :: cs) = setups [c] ++ setups cs := List.filterMap_append (l := [c])
  have hteardowns : teardowns (c :: cs) = teardowns [c] ++ teardowns cs := List.filterMap_append (l := [c])
  simp only [fill, tops_cons base c cs, hsetups, hteardowns, getLast?_append_getD, addedAll, List.map_cons,
    List.sum_cons, List.map_nil, List.sum_nil, List.append_assoc, Nat.add_zero, Nat.add_assoc]

/-! ### From sketches to statements -/

section Statements

variable {f : Forest}

theorem getElem?_sketches (f : Forest) (n : NodeId) : f.sketches[n]? = (f.node? n).map Node.sketch := by
  simp [Forest.sketches, Forest.node?]

/-- What is said of a node in a sketch. -/
theorem topDown_of_sketch (hf : f.Sound) (h : Heap) (p : Path) {n : NodeId} {base : NodeId} {name : Value}
    {cs : List Clause} (hn : f.sketches[n]? = some (fill base cs (.fresh name))) : ∃ specs : List Spec,
    specs.length = addedAll cs ∧ f.topDown h hf p n = (p.into h name cs).group ::
      (specs.map fun s => .test s.description s.body) ++
        (tops base cs).flatMap (f.topDown h hf (p.into h name cs)) := by
  rw [getElem?_sketches, Option.map_eq_some_iff] at hn
  obtain ⟨x, hx, hsketch⟩ := hn
  have hname : x.name = name := congrArg Sketch.name hsketch
  have hchildren : f.children n = tops base cs := by
    rw [Forest.children, hx]
    exact congrArg Sketch.children hsketch
  have hpath : f.through h p n = p.into h name cs := by
    have hsetup : x.setup = _ := congrArg Sketch.setup hsketch
    have hteardown : x.teardown = _ := congrArg Sketch.teardown hsketch
    simp only [Forest.through, hx, Path.enter, Forest.nameOf, hname, hsetup, hteardown, Path.into, fill, Sketch.fresh]
  have htests : f.tests n = x.specs.map fun s => .test s.description s.body := by
    rw [Forest.tests, Forest.specs, hx]
    rfl
  refine ⟨x.specs, ?_, ?_⟩
  · simpa [Node.sketch, fill, Sketch.fresh] using congrArg Sketch.specs hsketch
  · rw [Forest.topDown_eq, hpath, hchildren, htests]

mutual

theorem gives_of_sketches (hf : f.Sound) (h : Heap) : (c : Clause) → ∀ {p : Path} {pre post : List Sketch},
    f.sketches = pre ++ c.sketches pre.length ++ post →
    Gives h p c ((tops pre.length [c]).flatMap (f.topDown h hf p))
  | .describe name cs, p, pre, post, hs => by
    have hn : f.sketches[pre.length]? = some (fill (pre.length + 1) cs (.fresh name)) := by
      rw [hs, sketches]
      simp
    obtain ⟨specs, hspecs, htopDown⟩ := topDown_of_sketch hf h p hn
    have hinner : f.sketches = (pre ++ [fill (pre.length + 1) cs (.fresh name)]) ++
        sketchesAll (pre ++ [fill (pre.length + 1) cs (.fresh name)]).length cs ++ post := by
      rw [hs, sketches]
      simp
    have hgives := givesAll_of_sketches hf h cs (p := p.into h name cs) hinner
    rw [List.length_append, List.length_singleton] at hgives
    have hflat : (tops pre.length [.describe name cs]).flatMap (f.topDown h hf p) = f.topDown h hf p pre.length :=
      List.flatMap_singleton ..
    rw [hflat, htopDown]
    exact .group specs hspecs hgives
  | .before _, _, _, _, _ | .after _, _, _, _, _ | .it _ _, _, _, _, _ | .given _ _ _, _, _, _, _
  | .interlude _, _, _, _, _ => .other nofun

theorem givesAll_of_sketches (hf : f.Sound) (h : Heap) : (cs : List Clause) → ∀ {p : Path} {pre post : List Sketch},
    f.sketches = pre ++ sketchesAll pre.length cs ++ post →
    GivesAll h p cs ((tops pre.length cs).flatMap (f.topDown h hf p))
  | [], _, _, _, _ => .nil
  | c :: cs, p, pre, post, hs => by
    have hfirst : f.sketches = pre ++ c.sketches pre.length ++ (sketchesAll (pre.length + c.count) cs ++ post) := by
      rw [hs, sketchesAll]
      simp only [List.append_assoc]
    have hrest : f.sketches = (pre ++ c.sketches pre.length) ++
        sketchesAll (pre ++ c.sketches pre.length).length cs ++ post := by
      rw [hs, sketchesAll, List.length_append, length_sketches]
      simp only [List.append_assoc]
    have hgives := givesAll_of_sketches hf h cs (p := p) hrest
    rw [List.length_append, length_sketches] at hgives
    rw [tops_cons, List.flatMap_append]
    exact .cons (gives_of_sketches hf h c hfirst) hgives

end

end Statements

/-! ### From calls to sketches -/

/-- The open group is filled, if there is one. -/
def fillAt (cursor : Option NodeId) (base : NodeId) (cs : List Clause) (l : List Sketch) : List Sketch :=
  match cursor with
  | some n => l.modify n (fill base cs)
  | none => l

/-- The forest `f'` is `f` with what the clauses add below the cursor. -/
structure Grows (cursor : Option NodeId) (f f' : Forest) (cs : List Clause) : Prop where
  sketches : f'.sketches = fillAt cursor f.size cs f.sketches ++ sketchesAll f.size cs
  roots : f'.roots = f.roots ++ if cursor = none then tops f.size cs else []

variable {cursor : Option NodeId} {f f' f'' : Forest} {n : NodeId} {c : Clause} {cs : List Clause}

theorem length_fillAt (cursor : Option NodeId) (base : NodeId) (cs : List Clause) (l : List Sketch) :
    (fillAt cursor base cs l).length = l.length := by
  cases cursor <;> simp [fillAt]

theorem length_forest (f : Forest) : f.sketches.length = f.size := by
  simp [Forest.sketches, Forest.size]

theorem Grows.size (h : Grows cursor f f' cs) : f'.size = f.size + countAll cs := by
  rw [← length_forest, h.sketches, List.length_append, length_fillAt, length_forest, length_sketchesAll]

theorem modify_append {α : Type} {l m : List α} {n : Nat} (hn : n < l.length) (g : α → α) :
    (l ++ m).modify n g = l.modify n g ++ m := by
  induction l generalizing n with
  | nil => exact absurd hn (Nat.not_lt_zero n)
  | cons x l ih =>
    cases n with
    | zero => rfl
    | succ n => exact congrArg (x :: ·) (ih (Nat.lt_of_succ_lt_succ hn))

theorem Grows.cons (hc : ∀ n, cursor = some n → n < f.size) (h : Grows cursor f f' [c])
    (h' : Grows cursor f' f'' cs) : Grows cursor f f'' (c :: cs) where
  sketches := by
    have hsize : f'.size = f.size + c.count := h.size
    have hnew : Clause.sketchesAll f.size [c] = c.sketches f.size := List.append_nil _
    rw [h'.sketches, hsize, h.sketches, hnew, sketchesAll, ← List.append_assoc]
    congr 1
    cases cursor with
    | none => rfl
    | some n =>
      have hlt : n < (f.sketches.modify n (fill f.size [c])).length := by
        rw [List.length_modify, length_forest]
        exact hc n rfl
      simp only [fillAt]
      rw [modify_append hlt, List.modify_modify_eq]
      congr 2
      funext x
      exact fill_cons f.size c cs x
  roots := by
    have hsize : f'.size = f.size + c.count := h.size
    rw [h'.roots, h.roots, hsize, tops_cons f.size c cs]
    split <;> simp

theorem sketches_modify {change : Node → Node} {g : Sketch → Sketch} (h : ∀ x, (change x).sketch = g x.sketch)
    (f : Forest) (n : NodeId) : (f.modify n change).sketches = f.sketches.modify n g := by
  refine List.ext_getElem? fun k => ?_
  rw [getElem?_sketches, Forest.node?_modify, List.getElem?_modify, getElem?_sketches]
  by_cases hk : n = k
  · cases f.node? k <;> simp [hk, h]
  · simp [hk]

theorem sketches_push (f : Forest) (x : Node) (roots : List NodeId) :
    Forest.sketches ⟨f.nodes.push x, roots⟩ = f.sketches ++ [x.sketch] := by
  simp [Forest.sketches]

/-- A call that describes no group makes no node. -/
theorem count_plain (hc : ∀ name cs, c ≠ .describe name cs) (base : NodeId) :
    c.sketches base = [] ∧ tops base [c] = [] := by
  cases c with
  | describe name cs => exact absurd rfl (hc name cs)
  | _ => exact ⟨rfl, rfl⟩

/-- A call that sets no hook and describes no group only adds specs. -/
theorem fill_plain (hhook : c.isHook = false) (hc : ∀ name cs, c ≠ .describe name cs)
    (base : NodeId) (x : Sketch) : fill base [c] x = { x with specs := x.specs + c.added } := by
  cases c with
  | describe name cs => exact absurd rfl (hc name cs)
  | before | after => cases hhook
  | _ => simp [fill, tops, setups, teardowns, setup?, teardown?, addedAll]

/-- The open group alone is changed. -/
theorem Grows.modify {change : Node → Node} (hc : ∀ name cs, c ≠ .describe name cs)
    (h : ∀ x, (change x).sketch = fill f.size [c] x.sketch) : Grows (some n) f (f.modify n change) [c] where
  sketches := by
    rw [sketches_modify h, sketchesAll, (count_plain hc f.size).1]
    simp [fillAt, sketchesAll]
  roots := by simp [Forest.modify]

theorem Grows.refl (hc : ∀ name cs, c ≠ .describe name cs) (h : ∀ x, fill f.size [c] x = x) :
    Grows cursor f f [c] where
  sketches := by
    have hid : fill f.size [c] = id := funext h
    rw [sketchesAll, (count_plain hc f.size).1]
    cases cursor <;> simp [fillAt, sketchesAll, hid]
  roots := by simp [(count_plain hc f.size).2]

theorem modify_concat {α : Type} (l : List α) (x : α) (g : α → α) : (l ++ [x]).modify l.length g = l ++ [g x] := by
  induction l with
  | nil => rfl
  | cons y l ih => exact congrArg (y :: ·) ih

theorem sketches_add (name : Value) (cs : List Clause) (hcursor : ∀ p, cursor = some p → p < f.size) :
    (f.add name cursor).1.sketches = fillAt cursor f.size [.describe name cs] f.sketches ++ [.fresh name] := by
  cases cursor with
  | none => exact sketches_push f { name, parent := none } _
  | some p =>
    have hchild : ∀ x : Node, Node.sketch { x with children := x.children ++ [f.size] } =
        fill f.size [.describe name cs] x.sketch := fun _ => rfl
    have hlt : p < f.sketches.length := by
      rw [length_forest]
      exact hcursor p rfl
    show (Forest.modify ⟨_, _⟩ p _).sketches = _
    rw [sketches_modify hchild, sketches_push, modify_append hlt]
    rfl

/-- A group is added below the cursor, and it is filled while it is open. -/
theorem Grows.describe {name : Value} (hcursor : ∀ p, cursor = some p → p < f.size)
    (h : Grows (some f.size) (f.add name cursor).1 f' cs) : Grows cursor f f' [.describe name cs] where
  sketches := by
    have hsize := Forest.size_add f name cursor
    have hlength := (length_fillAt cursor f.size [.describe name cs] f.sketches).trans (length_forest f)
    rw [h.sketches, hsize, sketches_add name cs hcursor]
    have hfilled := modify_concat (fillAt cursor f.size [.describe name cs] f.sketches) (.fresh name)
      (fill (f.size + 1) cs)
    rw [hlength] at hfilled
    simp only [fillAt] at hfilled ⊢
    rw [hfilled, List.append_assoc]
    simp [sketchesAll, Clause.sketches]
  roots := by
    rw [h.roots, Forest.roots_add]
    split <;> simp [tops]

/-! ### Runs -/

variable {s t : Session} {b : BuildId}

theorem forest_declaringAll (hb : b < s.builds.size) (n : NodeId) (specs : List Spec) :
    ((s.declaringAll b n specs).build b).forest =
      (s.build b).forest.modify n fun x => { x with specs := x.specs ++ specs } := by
  induction specs generalizing s with
  | nil => exact (Forest.modify_same (fun x => by simp) _ n).symm
  | cons spec rest ih =>
    have hdeclared : ((s.declaring b n (.spec spec)).build b).forest = (s.build b).forest.addSpec n spec := by
      rw [Session.forest_declaring, if_pos ⟨rfl, hb⟩]
      rfl
    rw [show s.declaringAll b n (spec :: rest) = (s.declaring b n (.spec spec)).declaringAll b n rest from rfl,
      ih (by simpa [Session.declaring] using hb), hdeclared, Forest.addSpec, Forest.modify_modify]
    simp only [List.append_assoc, List.singleton_append]

theorem hook_grows (hc : c.isHook = true) (hs : s.At b cursor) (h : c.run b s = (.ok (), t)) :
    Grows cursor (s.build b).forest (t.build b).forest [c] := by
  cases cursor with
  | none => exact absurd h (hook_refused hc hs)
  | some n =>
    rw [hook_run hc hs] at h
    cases h
    rw [Session.build_hooked_eq hs.lt]
    refine .modify (fun name cs h => ?_) fun x => ?_
    · subst h
      cases hc
    · cases c with
      | before hook => simp [Node.hooked, Node.sketch, fill, tops, addedAll, added]
      | after hook => simp [Node.hooked, Node.sketch, fill, tops, addedAll, added]
      | _ => cases hc

mutual

theorem run_grows : (c : Clause) → ∀ {s t : Session} {b cursor}, s.At b cursor → c.run b s = (.ok (), t) →
    Grows cursor (s.build b).forest (t.build b).forest [c]
  | .before _, _, _, _, _, hs, h => hook_grows rfl hs h
  | .after _, _, _, _, _, hs, h => hook_grows rfl hs h
  | .it description body, s, t, b, cursor, hs, h => by
    obtain ⟨spec, u, hit, h⟩ := bind_eq_ok h
    cases h
    obtain ⟨n, h', -, hn, rfl⟩ := it_returned hit
    obtain rfl := hn.symm.trans hs.cursor_eq
    rw [Session.forest_declaring, if_pos ⟨rfl, hs.lt⟩]
    exact .modify nofun fun x => by
      rw [fill_plain (c := .it description body) rfl nofun]; simp [Node.sketch, added]
  | .given args description body, s, t, b, cursor, hs, h => by
    obtain ⟨n, h', specs, -, hn, hlength, rfl⟩ := given_returned h
    obtain rfl := hn.symm.trans hs.cursor_eq
    rw [forest_declaringAll (s := { s with heap := h' }) hs.lt]
    exact .modify nofun fun x => by
      rw [fill_plain (c := .given args description body) rfl nofun]; simp [Node.sketch, added, hlength]
  | .describe name cs, s, t, b, cursor, hs, h => by
    rw [describe_run hs.building, hs.cursor_eq] at h
    obtain ⟨hok, rfl⟩ := Prod.mk.inj h
    have hin := (runAll_at cs (hs.opened name) (Prod.ext hok rfl)).1
    have hgrows := runAll_grows cs (hs.opened name) (Prod.ext hok rfl)
    rw [(Session.opened_build hs name).1] at hgrows
    rw [Session.build_withCursor, if_pos ⟨rfl, hin.lt⟩]
    exact .describe hs.inside hgrows
  | .interlude a, s, t, b, cursor, hs, h => by
    have hbuild := a.build_eq hs.lt
    rw [show a.run s = (.ok (), t) from h] at hbuild
    rw [hbuild]
    exact .refl nofun fun x => by simp [fill_plain (c := .interlude a) rfl nofun, added]

theorem runAll_grows : (cs : List Clause) → ∀ {s t : Session} {b cursor}, s.At b cursor →
    runAll b cs s = (.ok (), t) → Grows cursor (s.build b).forest (t.build b).forest cs
  | [], s, _, b, cursor, _, h => by
    cases h
    refine ⟨?_, by simp [tops]⟩
    have hid : ∀ base, fill base [] = id := fun base => by
      funext x
      simp [fill, tops, setups, teardowns, addedAll]
    cases cursor <;> simp [fillAt, sketchesAll, hid]
  | c :: cs, s, t, b, cursor, hs, h => by
    obtain ⟨u, hu, hrest⟩ := runAll_cons.mp h
    exact .cons hs.inside (run_grows c hs hu) (runAll_grows cs (run_at c hs hu).1 hrest)

end

theorem runAll_gives (hs : s.At b none) (hempty : (s.build b).forest = {}) (h : runAll b cs s = (.ok (), t))
    (heap : Heap) {statements : List Statement} (hc : (t.build b).forest.compile heap = .ok statements) :
    GivesAll heap {} cs statements := by
  have hgrows := runAll_grows cs hs h
  have hsound := (runAll_at cs hs h).1.sound
  rw [hempty] at hgrows
  have hsketches : (t.build b).forest.sketches =
      ([] : List Sketch) ++ sketchesAll ([] : List Sketch).length cs ++ [] := by
    rw [hgrows.sketches]
    simp [fillAt, Forest.sketches, Forest.size]
  have hroots : (t.build b).forest.roots = tops 0 cs := by
    rw [hgrows.roots]
    simp [Forest.size]
  rw [hsound.compile_ok (hsound.compilable hc), ← hsound.topDown_roots, hroots] at hc
  exact Except.ok.inj hc ▸ givesAll_of_sketches hsound heap cs hsketches

/-! ### Builders -/

/-- Interludes alone describe nothing and leave the builds as they were. -/
theorem interludes_gives (hcs : ∀ c ∈ cs, ∃ a, c = .interlude a) {v : BuildId} (hb : b < s.builds.size)
    (h : runAll v cs s = (.ok (), t)) (heap : Heap) : t.build b = s.build b ∧ ∀ p, GivesAll heap p cs [] := by
  induction cs generalizing s with
  | nil =>
    cases h
    exact ⟨rfl, fun _ => .nil⟩
  | cons c cs ih =>
    obtain ⟨⟨a, rfl⟩, hrest⟩ := List.forall_mem_cons.mp hcs
    obtain ⟨u, hu, h⟩ := runAll_cons.mp h
    have hrun : a.run s = (.ok (), u) := hu
    have hbuild := a.build_eq hb
    have hgrows := a.grows s
    rw [hrun] at hbuild hgrows
    obtain ⟨hkept, hgives⟩ := ih hrest (Nat.lt_of_lt_of_le hb hgrows) h
    exact ⟨hkept.trans hbuild, fun p => .cons (c := .interlude a) (.other nofun) (hgives p)⟩

variable {fn : BuilderFunction} {cs' : List Clause} {statements : List Statement}

theorem buildForest_gives (hb : buildForest (fn.calling cs) s = (.ok b, t))
    (hc : compile b t = (.ok statements, t)) : GivesAll t.heap {} cs statements := by
  obtain ⟨v, u, w, hu, hempty, hcalls, rfl, -⟩ := buildForest_calling hb
  rw [compile_apply] at hc
  have hcompiled : (w.build b).forest.compile w.heap = .ok statements := (Prod.mk.inj hc).1
  by_cases hv : u.building = some v
  · obtain rfl : b = v := Option.some.inj (hu.building.symm.trans hv)
    exact runAll_gives hu hempty hcalls w.heap hcompiled
  · obtain ⟨hbuild, hgives⟩ := interludes_gives (interludes_of_elsewhere hv hcalls) hu.lt hcalls w.heap
    rw [hbuild, hempty] at hcompiled
    cases hcompiled
    exact hgives {}

/-- Wherever in their groups the hooks are called, the same session comes of it, and so the same statements. In these
every group has the hooks that were set last in it and in each of the groups around it. -/
theorem hooks_rearranged (h : Rearranged cs cs') (hb : buildForest (fn.calling cs) s = (.ok b, t)) :
    buildForest (fn.calling cs') s = (.ok b, t) ∧ ∀ statements, compile b t = (.ok statements, t) →
      GivesAll t.heap {} cs statements ∧ GivesAll t.heap {} cs' statements := by
  have hb' := h.buildForest hb
  exact ⟨hb', fun _ hc => ⟨buildForest_gives hb hc, buildForest_gives hb' hc⟩⟩

/-- Two procedures that can be hooks. -/
def hooking : Session := { heap := { cells := #[.procedure (.shortcut "equals"), .procedure (.shortcut "fail")] } }

/-- A group within a group, a variable that is set in between, and hooks here and there. -/
def scattered : List Clause :=
  [.describe (.text "a")
    [.before (.object 0), .it (.text "x") .noop,
      .interlude (.ofMemory (modify ({ · with stored := [("v", .int 1)] }))),
      .describe (.text "b") [.it (.text "y") .noop, .after (.object 0)], .before (.object 1)]]

/-- The same calls with the hooks first. -/
def gathered : List Clause :=
  [.describe (.text "a")
    [.before (.object 0), .before (.object 1), .it (.text "x") .noop,
      .interlude (.ofMemory (modify ({ · with stored := [("v", .int 1)] }))),
      .describe (.text "b") [.after (.object 0), .it (.text "y") .noop]]]

def sampleBuilder : BuilderFunction where
  style := .param
  saveAs := none
  module := 0
  body _ := pure ()

theorem hooks_rearranged_gathered :
    let done := buildForest (sampleBuilder.calling scattered) hooking
    Rearranged scattered gathered ∧ buildForest (sampleBuilder.calling gathered) hooking = (.ok 0, done.2) ∧
    compile 0 done.2 = (.ok [.group "a" [.object 1] [.noop], .test "x" .noop,
      .group "a, b" [.object 1, .noop] [.object 0, .noop], .test "y" .noop], done.2) := by
  intro done
  have hinner : Same (.describe (.text "b") [.it (.text "y") .noop, .after (.object 0)])
      (.describe (.text "b") [.after (.object 0), .it (.text "y") .noop]) :=
    .describe rfl rfl (.cons (.of_eq _) .nil)
  have hmoved : Rearranged scattered gathered :=
    ⟨rfl, rfl, .cons (.describe rfl rfl (.cons (.of_eq _) (.cons (.of_eq _) (.cons hinner .nil)))) .nil⟩
  have hdone : buildForest (sampleBuilder.calling scattered) hooking = (.ok 0, done.2) := rfl
  refine ⟨hmoved, (hooks_rearranged hmoved hdone).1, ?_⟩
  rfl

end Clause

end Exemplar
