import Exemplar.Proofs.Expansion

/-! Hooks may stand anywhere in their group.

A builder is told by the calls it makes (`Clause`), with anything else it does in between
(`Interlude`). No call sees the hooks of a group (`Clause.run_commutes`), so the calls of a group do
what those of them do that set no hook, and the hooks are set afterwards (`Clause.runAll_others`).
Builders that call their hooks at other places in their groups therefore leave the same session
(`Clause.Rearranged.buildForest`). -/
namespace Exemplar

open Act

/-! ### Changes of one build -/

theorem modify_unchanged {α : Type} {f : α → α} (h : ∀ x, f x = x) (xs : Array α) (i : Nat) : xs.modify i f = xs :=
  Array.ext_getElem? fun j => by
    rw [Array.getElem?_modify, funext (g := id) h]
    split <;> simp

theorem modify_twice {α : Type} (xs : Array α) (i : Nat) (f g : α → α) :
    (xs.modify i f).modify i g = xs.modify i fun x => g (f x) :=
  Array.ext_getElem? fun j => by
    simp only [Array.getElem?_modify]
    split <;> simp [Function.comp_def]

namespace Session

variable {s : Session} {b : BuildId} {f g : Build → Build}

/-- The build `b` changes. -/
def changing (s : Session) (b : BuildId) (change : Build → Build) : Session :=
  { s with builds := s.builds.modify b change }

theorem build_changing (hb : b < s.builds.size) (f : Build → Build) : (s.changing b f).build b = f (s.build b) := by
  rw [changing, build_modify, if_pos ⟨rfl, hb⟩]

/-- Only what becomes of the build as it is matters. -/
theorem changing_congr (h : f (s.build b) = g (s.build b)) : s.changing b f = s.changing b g := by
  have hbuilds : s.builds.modify b f = s.builds.modify b g := by
    refine Array.ext_getElem? fun j => ?_
    rw [Array.getElem?_modify, Array.getElem?_modify]
    by_cases hj : b = j
    · subst hj
      cases hx : s.builds[b]? with
      | none => simp
      | some x =>
        have hbuild : s.build b = x := by simp [build, Array.getD_eq_getD_getElem?, hx]
        rw [hbuild] at h
        simp [h]
    · simp [hj]
  rw [changing, changing, hbuilds]

theorem changing_self (h : f (s.build b) = s.build b) : s.changing b f = s := by
  rw [changing_congr (g := id) h, changing, modify_unchanged (f := id) fun _ => rfl]

theorem changing_changing : (s.changing b f).changing b g = s.changing b fun x => g (f x) := by
  simp only [changing, modify_twice]

end Session

namespace Act

variable {α β : Type} {s : Session} {change : Session → Session}

/-- The change makes no difference to the computation, and it is there afterwards. -/
def Commutes (a : Act α) (change : Session → Session) (s : Session) : Prop :=
  a (change s) = ((a s).1, change (a s).2)

theorem Commutes.bind {a : Act α} {k : α → Act β} (ha : Commutes a change s)
    (hk : ∀ x u, a s = (.ok x, u) → Commutes (k x) change u) : Commutes (a >>= k) change s := by
  unfold Commutes at ha ⊢
  rcases h : a s with ⟨f | x, u⟩
  · rw [h] at ha
    rw [bind_error h, bind_error ha]
  · rw [h] at ha
    rw [bind_ok h, bind_ok ha]
    exact hk x u h

/-- What is read first is the same, as far as it matters. -/
theorem Commutes.reads {a : Act α} {k : α → Act β} {x y : α} (ha : a s = (.ok x, s))
    (ha' : a (change s) = (.ok y, change s)) (hk : k y = k x) (h : Commutes (k x) change s) :
    Commutes (a >>= k) change s := by
  unfold Commutes at h ⊢
  rw [bind_ok ha, bind_ok ha', hk, h]

end Act

/-! ### Clauses -/

/-- What a builder does besides calling its verbs. It has nothing to do with the builds that are there. -/
structure Interlude where
  run : Act Unit
  oblivious : ∀ {s : Session} {b} (f : Build → Build), b < s.builds.size → Commutes run (·.changing b f) s
  building : ∀ s, (run s).2.building = s.building
  grows : ∀ s : Session, s.builds.size ≤ (run s).2.builds.size

/-- A computation on the memory. -/
def Interlude.ofMemory (a : ExceptT Failure (StateM Memory) Unit) : Interlude where
  run s := ((a s.toMemory).1, { s with toMemory := (a s.toMemory).2 })
  oblivious _ _ := rfl
  building _ := rfl
  grows _ := Nat.le_refl _

/-- A call that a builder makes, with the values it makes it with. The body of a group makes calls again. -/
inductive Clause
  | before (hook : Value)
  | after (hook : Value)
  | it (description body : Value)
  | given (args : List Value) (description body : Value)
  | describe (name : Value) (clauses : List Clause)
  | interlude (a : Interlude)

namespace Clause

mutual

def run (b : BuildId) : Clause → Act Unit
  | .before hook => Act.before b hook
  | .after hook => Act.after b hook
  | .it description body => do let _ ← Act.it b description body
  | .given args description body => do
    requireArguments b args
    let _ ← givenIt b description body args
  | .describe name clauses => do
    let _ ← Act.describe (fun _ _ _ => do runAll b clauses; return .null) b name .noop
  | .interlude a => a.run

def runAll (b : BuildId) : List Clause → Act Unit
  | [] => pure ()
  | c :: rest => do
    c.run b
    runAll b rest

end

def setup? : Clause → Option Value
  | .before hook => some hook
  | _ => none

def teardown? : Clause → Option Value
  | .after hook => some hook
  | _ => none

def isHook (c : Clause) : Bool := c.setup?.isSome || c.teardown?.isSome

/-- The hooks that are set before the tests of a group, in order. -/
def setups (cs : List Clause) : List Value := cs.filterMap setup?

/-- The hooks that are set after the tests of a group, in order. -/
def teardowns (cs : List Clause) : List Value := cs.filterMap teardown?

/-- The calls that set no hook. -/
def others (cs : List Clause) : List Clause := cs.filter (!·.isHook)

/-- The calls are the same, but for hooks at other places in groups. -/
inductive Same : Clause → Clause → Prop
  | of_eq (c : Clause) : Same c c
  | describe {name cs cs'} : setups cs = setups cs' → teardowns cs = teardowns cs' →
      List.Forall₂ Same (others cs) (others cs') → Same (.describe name cs) (.describe name cs')

/-- Hooks are called at other places among the other calls, in every group. The order of the calls of `before`
is the same, and so is that of the calls of `after` and that of the other calls. -/
structure Rearranged (cs cs' : List Clause) : Prop where
  setups : setups cs = setups cs'
  teardowns : teardowns cs = teardowns cs'
  others : List.Forall₂ Same (others cs) (others cs')

end Clause

/-- The group when the hooks of the clauses were set. -/
def Node.hooked (cs : List Clause) (x : Node) : Node :=
  { x with
    setup := (Clause.setups cs).getLast?.getD x.setup
    teardown := (Clause.teardowns cs).getLast?.getD x.teardown }

def Build.hooked (n : NodeId) (cs : List Clause) (x : Build) : Build :=
  { x with forest := x.forest.modify n (Node.hooked cs) }

def Session.hooked (s : Session) (b : BuildId) (n : NodeId) (cs : List Clause) : Session :=
  s.changing b (Build.hooked n cs)

/-! ### Forests and hooks -/

namespace Forest

variable {f : Forest} {n m : NodeId} {change change' : Node → Node}

theorem modify_same (h : ∀ x, change x = x) (f : Forest) (n : NodeId) : f.modify n change = f := by
  rw [modify, modify_unchanged h]

theorem modify_modify (f : Forest) (n : NodeId) (change change' : Node → Node) :
    (f.modify n change).modify n change' = f.modify n fun x => change' (change x) := by
  simp only [modify, modify_twice]

/-- Changes of two nodes, or of other parts of one node, may come in any order. -/
theorem modify_comm (f : Forest) (h : n = m → ∀ x, change (change' x) = change' (change x)) :
    (f.modify n change).modify m change' = (f.modify m change').modify n change := by
  have hnodes : (f.nodes.modify n change).modify m change' = (f.nodes.modify m change').modify n change :=
    Array.ext_getElem? fun j => by
      simp only [Array.getElem?_modify]
      by_cases hn : n = j
      · by_cases hm : m = j
        · simp [hn, hm, Function.comp_def, h (hn.trans hm.symm)]
        · simp [hn, hm]
      · simp [hn]
  simp only [modify, hnodes]

/-- A node is made below any other, whatever the hooks are. -/
theorem add_hooked (name : Value) (cursor : Option NodeId) (hn : n < f.size) (cs : List Clause) :
    ((f.modify n (Node.hooked cs)).add name cursor).1 = (f.add name cursor).1.modify n (Node.hooked cs) := by
  have hpush : (f.nodes.modify n (Node.hooked cs)).push { name, parent := cursor } =
      (f.nodes.push { name, parent := cursor }).modify n (Node.hooked cs) := by
    refine Array.ext_getElem? fun j => ?_
    have hne : n ≠ f.nodes.size := Nat.ne_of_lt hn
    simp only [Array.getElem?_modify, Array.getElem?_push, Array.size_modify]
    by_cases hj : j = f.nodes.size
    · simp [hj, hne]
    · simp [hj]
  have hsize : (f.modify n (Node.hooked cs)).size = f.size := size_modify ..
  have hnodes : (f.modify n (Node.hooked cs)).nodes = f.nodes.modify n (Node.hooked cs) := rfl
  simp only [add, hsize, hnodes, hpush]
  cases cursor with
  | none => rfl
  | some p => exact modify_comm ⟨f.nodes.push { name, parent := some p }, f.roots⟩ fun _ _ => rfl

theorem ancestry_hooked (f : Forest) (n m : NodeId) (cs : List Clause) :
    (f.modify n (Node.hooked cs)).ancestry m =
      (f.lineage m).filterMap fun k => if n = k then (f.node? k).map (Node.hooked cs) else f.node? k := by
  rw [ancestry, lineage_modify (show ∀ x, (Node.hooked cs x).parent = x.parent from fun _ => rfl)]
  exact List.filterMap_congr fun k _ => node?_modify ..

/-- Names are rolled up without a look at hooks. -/
theorem qualifiedName_hooked (h : Heap) (f : Forest) (n m : NodeId) (cs : List Clause) :
    (f.modify n (Node.hooked cs)).qualifiedName h m = f.qualifiedName h m := by
  have hnames : ((f.modify n (Node.hooked cs)).ancestry m).map (·.name) = (f.ancestry m).map (·.name) := by
    rw [ancestry_hooked, ancestry, List.map_filterMap, List.map_filterMap]
    refine List.filterMap_congr fun k _ => ?_
    split <;> cases f.node? k <;> rfl
  rw [qualifiedName, qualifiedName, hnames]

theorem outlineIn_hooked (f : Forest) (n : NodeId) (cs : List Clause) (d m : NodeId) :
    (f.modify n (Node.hooked cs)).outlineIn d m = f.outlineIn d m := by
  induction d generalizing m with
  | zero =>
    rw [outlineIn, outlineIn, node?_modify]
    by_cases hm : n = m <;> cases f.node? m <;> simp [hm, Node.hooked]
  | succ d ih =>
    rw [outlineIn, outlineIn, node?_modify, funext ih]
    by_cases hm : n = m <;> cases f.node? m <;> simp [hm, Node.hooked]

theorem outline_hooked (f : Forest) (n m : NodeId) (cs : List Clause) :
    (f.modify n (Node.hooked cs)).outline m = f.outline m := by
  rw [outline, size_modify, outlineIn_hooked, outline]

end Forest

theorem getLast?_append_getD {α : Type} (l m : List α) (x : α) :
    (l ++ m).getLast?.getD x = m.getLast?.getD (l.getLast?.getD x) := by
  rw [List.getLast?_append]
  cases m.getLast? <;> rfl

theorem Node.hooked_hooked (cs ds : List Clause) (x : Node) : (x.hooked cs).hooked ds = x.hooked (cs ++ ds) := by
  simp only [hooked, Clause.setups, Clause.teardowns, List.filterMap_append, getLast?_append_getD]

namespace Session

theorem hooked_hooked (s : Session) (b : BuildId) (n : NodeId) (cs ds : List Clause) :
    (s.hooked b n cs).hooked b n ds = s.hooked b n (cs ++ ds) := by
  rw [hooked, hooked, changing_changing]
  refine changing_congr ?_
  simp only [Build.hooked, Forest.modify_modify, Node.hooked_hooked]

/-- Hooks of different groups. -/
theorem hooked_comm {s : Session} {b : BuildId} {n k : NodeId} (h : n ≠ k) (cs ds : List Clause) :
    (s.hooked b n cs).hooked b k ds = (s.hooked b k ds).hooked b n cs := by
  rw [hooked, hooked, hooked, hooked, changing_changing, changing_changing]
  refine changing_congr ?_
  simp only [Build.hooked]
  rw [Forest.modify_comm _ fun hnk => absurd hnk h]

/-- Hooks are not what a session is asked for. -/
theorem build_hooked (s : Session) (b : BuildId) (n : NodeId) (cs : List Clause) :
    ((s.hooked b n cs).build b).cursor = (s.build b).cursor ∧
    (∀ h m, ((s.hooked b n cs).build b).forest.qualifiedName h m = (s.build b).forest.qualifiedName h m) ∧
    ∀ m, ((s.hooked b n cs).build b).forest.outline m = (s.build b).forest.outline m := by
  rw [hooked, changing, build_modify]
  split
  · exact ⟨rfl, fun h m => Forest.qualifiedName_hooked h _ n m cs, fun m => Forest.outline_hooked _ n m cs⟩
  · exact ⟨rfl, fun _ _ => rfl, fun _ => rfl⟩

theorem refusal?_hooked (s : Session) (b : BuildId) (n : NodeId) (cs : List Clause) (verb : String) :
    (s.hooked b n cs).refusal? b verb = s.refusal? b verb := by
  rw [refusal?, (s.build_hooked b n cs).1, refusal?]
  rfl

/-- A spec is added to a group whatever its hooks are. -/
theorem declaring_hooked (s : Session) (b : BuildId) (m n : NodeId) (spec : Spec) (cs : List Clause) :
    (s.hooked b n cs).declaring b m (.spec spec) = (s.declaring b m (.spec spec)).hooked b n cs := by
  show (s.changing b _).changing b _ = (s.changing b _).changing b _
  rw [changing_changing, changing_changing]
  refine changing_congr ?_
  simp only [Build.hooked, Forest.declare, Forest.addSpec]
  rw [Forest.modify_comm _ fun _ x => ?_]
  rfl

end Session

/-! ### Verbs pass hooks by -/

namespace Act

variable {s : Session} {b : BuildId}

section Commutes

variable (s : Session) (b : BuildId) (n : NodeId) (cs : List Clause)

theorem openGroup_commutes (verb : String) : Commutes (openGroup b verb) (·.hooked b n cs) s := by
  unfold Commutes
  cases hm : s.refusal? b verb with
  | some m => rw [openGroup_refused hm, openGroup_refused ((s.refusal?_hooked b n cs verb).trans hm)]
  | none =>
    obtain ⟨hb, k, hk⟩ := Session.refusal?_eq_none.mp hm
    rw [openGroup_apply hb hk, openGroup_apply (s := s.hooked b n cs) hb ((s.build_hooked b n cs).1.trans hk)]

theorem reading_commutes {α : Type} (f : Heap → Except Failure α) : Commutes (reading f) (·.hooked b n cs) s := by
  rw [Commutes, reading_apply, reading_apply]
  rfl

theorem givenOr_commutes (body : Value) : Commutes (givenOr stub body) (·.hooked b n cs) s := by
  unfold givenOr
  split <;> rfl

theorem givenBody_commutes (arg body : Value) : Commutes (givenBody arg body) (·.hooked b n cs) s := by
  unfold givenBody
  split
  · rfl
  · refine .reads (get_apply s) (get_apply _) rfl ?_
    dsimp only
    split <;> rfl

theorem misuseAt_commutes {α : Type} (m : Misuse) (node : Option NodeId) (spec : Value) :
    Commutes (misuseAt b m node spec : Act α) (·.hooked b n cs) s := by
  cases node with
  | none => rfl
  | some k =>
    obtain ⟨-, hname, houtline⟩ := s.build_hooked b n cs
    refine Commutes.reads (a := Act.build b) (x := s.build b) (y := (s.hooked b n cs).build b) rfl rfl ?_ ?_
    · simp only [hname, houtline]
    · exact (reading_commutes s b n cs _).bind fun _ u _ => rfl

theorem addSpec_commutes (k : NodeId) (description body : Value) :
    Commutes (addSpec b k description body) (·.hooked b n cs) s := by
  refine .reads (get_apply s) (get_apply _) rfl ?_
  dsimp only
  split
  · cases Schema.text s.heap description with
    | ok d => exact congrArg (Prod.mk _) (s.declaring_hooked b k n _ cs)
    | error kind => rfl
  · exact misuseAt_commutes s b n cs _ _ _

theorem it_commutes (description body : Value) : Commutes (it b description body) (·.hooked b n cs) s :=
  (openGroup_commutes s b n cs "it").bind fun _ u _ => (givenOr_commutes u b n cs body).bind fun _ v _ =>
    addSpec_commutes v b n cs _ description _

theorem givenSpec_commutes (description body arg : Value) :
    Commutes (givenSpec b description body arg) (·.hooked b n cs) s :=
  (reading_commutes s b n cs _).bind fun _ u _ => (givenBody_commutes u b n cs arg body).bind fun _ v _ =>
    it_commutes v b n cs _ _

theorem givenIt_commutes (description body : Value) (args : List Value) :
    Commutes (givenIt b description body args) (·.hooked b n cs) s := by
  induction args generalizing s with
  | nil => rfl
  | cons arg rest ih =>
    exact (givenSpec_commutes s b n cs description body arg).bind fun _ u _ => (ih u).bind fun _ _ _ => rfl

theorem requireArguments_commutes (args : List Value) : Commutes (requireArguments b args) (·.hooked b n cs) s := by
  unfold requireArguments
  split
  · refine Commutes.reads (a := Act.build b) (x := s.build b) (y := (s.hooked b n cs).build b) rfl rfl ?_ ?_
    · simp only [(s.build_hooked b n cs).1]
    · exact misuseAt_commutes s b n cs _ _ _
  · rfl

end Commutes

/-! ### What calls leave that return -/

section Returned

variable {t : Session} {description body arg : Value} {spec : Spec}

theorem openGroup_returned {verb : String} {n : NodeId} (h : openGroup b verb s = (.ok n, t)) :
    s.building = some b ∧ (s.build b).cursor = some n ∧ t = s := by
  cases hm : s.refusal? b verb with
  | some m =>
    rw [openGroup_refused hm] at h
    cases h
  | none =>
    obtain ⟨hb, k, hk⟩ := Session.refusal?_eq_none.mp hm
    rw [openGroup_apply hb hk] at h
    cases h
    exact ⟨hb, hk, rfl⟩

theorem misuseAt_ne_ok {α : Type} {m : Misuse} {node : Option NodeId} {a : α} :
    misuseAt b m node body s ≠ (.ok a, t) := by
  intro h
  cases node with
  | none => cases h
  | some n =>
    obtain ⟨_, _, -, h⟩ := bind_eq_ok h
    obtain ⟨_, _, -, h⟩ := bind_eq_ok h
    obtain ⟨_, _, -, h⟩ := bind_eq_ok h
    cases h

theorem it_returned (h : it b description body s = (.ok spec, t)) : ∃ n h', s.building = some b ∧
    (s.build b).cursor = some n ∧ t = ({ s with heap := h' } : Session).declaring b n (.spec spec) := by
  rw [it] at h
  obtain ⟨n, u, hopen, hrest⟩ := bind_eq_ok h
  obtain ⟨hb, hn, rfl⟩ := openGroup_returned hopen
  obtain ⟨v, w, hgiven, hadd⟩ := bind_eq_ok hrest
  have hw : ∃ h', w = { u with heap := h' } := by
    unfold givenOr at hgiven
    split at hgiven <;> cases hgiven <;> exact ⟨_, rfl⟩
  obtain ⟨h', rfl⟩ := hw
  refine ⟨n, h', hb, hn, ?_⟩
  rw [addSpec, bind_ok (get_apply _)] at hadd
  dsimp only at hadd
  split at hadd
  · cases hd : Schema.text h' description with
    | ok d =>
      simp only [hd] at hadd
      cases hadd
      rfl
    | error kind =>
      simp only [hd] at hadd
      cases hadd
  · exact absurd hadd misuseAt_ne_ok

theorem givenSpec_returned (h : givenSpec b description body arg s = (.ok spec, t)) : ∃ n h', s.building = some b ∧
    (s.build b).cursor = some n ∧ t = ({ s with heap := h' } : Session).declaring b n (.spec spec) := by
  rw [givenSpec] at h
  obtain ⟨text, u, htext, h⟩ := bind_eq_ok h
  obtain ⟨v, w, hmade, h⟩ := bind_eq_ok h
  rw [reading_apply] at htext
  obtain ⟨-, rfl⟩ := Prod.mk.inj htext
  have hw : ∃ h', w = { s with heap := h' } := by
    unfold givenBody at hmade
    split at hmade
    · cases hmade
      exact ⟨_, rfl⟩
    · rw [bind_ok (get_apply s)] at hmade
      split at hmade <;> cases hmade
      exact ⟨_, rfl⟩
  obtain ⟨h', rfl⟩ := hw
  obtain ⟨n, h'', hb, hn, rfl⟩ := it_returned h
  exact ⟨n, h'', hb, hn, rfl⟩

theorem givenIt_returned {args : List Value} {specs : List Spec}
    (h : givenIt b description body args s = (.ok specs, t)) {n : NodeId} (hn : (s.build b).cursor = some n) :
    specs.length = args.length ∧ ∃ h', t = ({ s with heap := h' } : Session).declaringAll b n specs := by
  induction args generalizing s specs with
  | nil =>
    cases h
    exact ⟨rfl, _, rfl⟩
  | cons arg rest ih =>
    rw [givenIt] at h
    obtain ⟨spec, u, hspec, h⟩ := bind_eq_ok h
    obtain ⟨more, v, hmore, h⟩ := bind_eq_ok h
    cases h
    obtain ⟨m, h', -, hm, rfl⟩ := givenSpec_returned hspec
    obtain rfl : n = m := Option.some.inj (hn.symm.trans hm)
    obtain ⟨hlength, h'', rfl⟩ := ih hmore ((Session.cursor_declaring ..).trans hn)
    exact ⟨congrArg (· + 1) hlength, h'', rfl⟩

end Returned

/-! ### Groups -/

theorem bind_pure_apply {α β : Type} (a : Act α) (g : α → β) (s : Session) :
    (a >>= fun x => pure (g x)) s = ((a s).1.map g, (a s).2) := by
  rcases h : a s with ⟨f | x, u⟩
  · rw [bind_error h]
    rfl
  · rw [bind_ok h]
    rfl

/-- The result of the body does not matter. -/
theorem bind_unit_apply {α : Type} (a : Act α) (s : Session) :
    (do let _ ← a : Act Unit) s = ((a s).1.map fun _ => (), (a s).2) := bind_pure_apply a _ s

/-- A group whose body makes the calls is open while they are made, and is closed however they end. -/
theorem describe_clauses (hb : s.building = some b) {call : Call} {body : Value} {cs : List Clause}
    (hbody : body ≠ .null) (hcalls : (do let _ ← call body [] []) = Clause.runAll b cs) (name : Value) :
    let inner := Clause.runAll b cs (s.opened b name)
    (do let _ ← Act.describe call b name body : Act Unit) s = (inner.1, inner.2.withCursor b (s.build b).cursor) := by
  intro inner
  have hinner : inner = _ := (congrFun hcalls (s.opened b name)).symm.trans (bind_unit_apply _ _)
  have hdescribe : Act.describe call b name body s =
      ((call body [] [] (s.opened b name)).1.map fun _ => .inr (s.nextNode b name),
        (call body [] [] (s.opened b name)).2.withCursor b (s.build b).cursor) := by
    unfold Act.describe
    rw [if_neg hbody, bind_ok ((requireBuilding_apply b "describe" s).trans (by rw [if_pos hb]))]
    show (ensuring (call body [] [] >>= fun _ => pure (.inr (s.nextNode b name)) : Act (Sum Value NodeId))
      (setCursor b (s.build b).cursor) (s.opened b name)) = _
    rw [ensuring_apply, bind_pure_apply]
    rfl
  rw [bind_unit_apply, hdescribe, hinner]
  rcases (call body [] [] (s.opened b name)).1 with _ | _ <;> rfl

theorem describe_run (hb : s.building = some b) (name : Value) (cs : List Clause) :
    let inner := Clause.runAll b cs (s.opened b name)
    (Clause.describe name cs).run b s = (inner.1, inner.2.withCursor b (s.build b).cursor) := by
  refine describe_clauses hb (show Value.noop ≠ .null by decide) (funext fun u => ?_) name
  rw [bind_unit_apply, bind_pure_apply]
  rcases Clause.runAll b cs u with ⟨_ | _, _⟩ <;> rfl

end Act

/-! ### Where a session stands -/

/-- The build `b` is current, with its cursor at a group or above all groups. -/
structure Session.At (s : Session) (b : BuildId) (cursor : Option NodeId) : Prop where
  building : s.building = some b
  lt : b < s.builds.size
  cursor_eq : (s.build b).cursor = cursor
  inside : ∀ n, cursor = some n → n < (s.build b).forest.size
  sound : (s.build b).forest.Sound

namespace Session

variable {s t : Session} {b : BuildId} {cursor : Option NodeId} {n : NodeId}

theorem opened_build (hs : s.At b cursor) (name : Value) :
    ((s.opened b name).build b).forest = ((s.build b).forest.add name cursor).1 ∧
    ((s.opened b name).build b).cursor = some (s.build b).forest.size := by
  rw [opened, build_modify, if_pos ⟨rfl, hs.lt⟩, nextNode, hs.cursor_eq, Forest.add_snd]
  exact ⟨rfl, rfl⟩

theorem build_hooked_eq (hb : b < s.builds.size) (n : NodeId) (cs : List Clause) :
    (s.hooked b n cs).build b = (s.build b).hooked n cs := build_changing hb _

namespace At

theorem of_eq (hs : s.At b cursor) (hbuilding : t.building = s.building) (hbuilds : s.builds.size ≤ t.builds.size)
    (hbuild : t.build b = s.build b) : t.At b cursor where
  building := hbuilding.trans hs.building
  lt := Nat.lt_of_lt_of_le hs.lt hbuilds
  cursor_eq := hbuild ▸ hs.cursor_eq
  inside := hbuild ▸ hs.inside
  sound := hbuild ▸ hs.sound

theorem changing (hs : s.At b cursor) (change : Node → Node) (hp : ∀ x, (change x).parent = x.parent)
    (hc : ∀ x, (change x).children = x.children) (n : NodeId) :
    (s.changing b fun x => { x with forest := x.forest.modify n change }).At b cursor := by
  have hbuild := build_changing hs.lt fun x => { x with forest := x.forest.modify n change }
  refine ⟨hs.building, ?_, ?_, ?_, ?_⟩
  · simpa [Session.changing] using hs.lt
  · rw [hbuild]
    exact hs.cursor_eq
  · rw [hbuild]
    simpa using hs.inside
  · rw [hbuild]
    exact hs.sound.modify hp hc n

theorem hooked (hs : s.At b cursor) (n : NodeId) (cs : List Clause) : (s.hooked b n cs).At b cursor :=
  hs.changing (Node.hooked cs) (fun _ => rfl) (fun _ => rfl) n

theorem declaring (hs : s.At b cursor) (n : NodeId) (spec : Spec) : (s.declaring b n (.spec spec)).At b cursor :=
  hs.changing (fun x => { x with specs := x.specs ++ [spec] }) (fun _ => rfl) (fun _ => rfl) n

theorem declaringAll (hs : s.At b cursor) (n : NodeId) (specs : List Spec) : (s.declaringAll b n specs).At b cursor ∧
    ((s.declaringAll b n specs).build b).forest.size = (s.build b).forest.size := by
  induction specs generalizing s with
  | nil => exact ⟨hs, rfl⟩
  | cons spec rest ih =>
    obtain ⟨hat, hsize⟩ := ih (hs.declaring n spec)
    exact ⟨hat, hsize.trans (size_declaring ..)⟩

theorem opened (hs : s.At b cursor) (name : Value) : (s.opened b name).At b (some (s.build b).forest.size) := by
  obtain ⟨hforest, hcursor⟩ := opened_build hs name
  refine ⟨hs.building, ?_, hcursor, ?_, ?_⟩
  · simpa [Session.opened] using hs.lt
  · rintro n ⟨⟩
    simp [hforest]
  · rw [hforest]
    exact hs.sound.add name hs.inside

theorem closed {inner : Option NodeId} (ht : t.At b inner) (h : ∀ n, cursor = some n → n < (t.build b).forest.size) :
    (t.withCursor b cursor).At b cursor := by
  have hbuild : (t.withCursor b cursor).build b = { t.build b with cursor } := by
    rw [build_withCursor, if_pos ⟨rfl, ht.lt⟩]
  refine ⟨ht.building, ?_, ?_, ?_, ?_⟩
  · simpa [withCursor] using ht.lt
  · rw [hbuild]
  · rw [hbuild]
    exact h
  · rw [hbuild]
    exact ht.sound

end At

/-- A group is opened in the same way, whatever the hooks are. -/
theorem opened_hooked (hs : s.At b cursor) (hn : n < (s.build b).forest.size) (name : Value) (cs : List Clause) :
    (s.hooked b n cs).opened b name = (s.opened b name).hooked b n cs := by
  show (s.changing b _).changing b _ = (s.changing b _).changing b _
  rw [changing_changing, changing_changing]
  refine changing_congr ?_
  rw [nextNode, nextNode, build_hooked_eq hs.lt]
  simp only [Build.hooked, Forest.add_snd, Forest.size_modify]
  rw [Forest.add_hooked name _ hn cs]

theorem withCursor_hooked (s : Session) (b : BuildId) (n : NodeId) (cs : List Clause) (cursor : Option NodeId) :
    (s.hooked b n cs).withCursor b cursor = (s.withCursor b cursor).hooked b n cs := by
  show (s.changing b _).changing b _ = (s.changing b _).changing b _
  rw [changing_changing, changing_changing]
  rfl

end Session

theorem Interlude.build_eq (a : Interlude) {s : Session} {b : BuildId} (hb : b < s.builds.size) :
    (a.run s).2.build b = s.build b := by
  have hsame : s.changing b (fun _ => s.build b) = s := Session.changing_self rfl
  have hrun : a.run s = _ := (congrArg a.run hsame).symm.trans (a.oblivious (fun _ => s.build b) hb)
  have hafter := congrArg (fun r => r.2.build b) hrun
  exact hafter.trans (Session.build_changing (Nat.lt_of_lt_of_le hb (a.grows s)) _)

/-! ### Runs of clauses -/

namespace Clause

variable {s t : Session} {b : BuildId} {cursor : Option NodeId} {n : NodeId}

theorem runAll_cons {c : Clause} {cs : List Clause} :
    runAll b (c :: cs) s = (.ok (), t) ↔ ∃ u, c.run b s = (.ok (), u) ∧ runAll b cs u = (.ok (), t) := by
  rw [runAll]
  constructor
  · intro h
    obtain ⟨x, u, hc, hrest⟩ := bind_eq_ok h
    exact ⟨u, hc, hrest⟩
  · rintro ⟨u, hc, hrest⟩
    rw [bind_ok hc, hrest]

/-- A hook is set in the open group. -/
theorem hook_run {c : Clause} (hc : c.isHook = true) (hs : s.At b (some n)) :
    c.run b s = (.ok (), s.hooked b n [c]) := by
  cases c with
  | before hook => exact bind_ok (openGroup_apply hs.building hs.cursor_eq "before")
  | after hook => exact bind_ok (openGroup_apply hs.building hs.cursor_eq "after")
  | _ => cases hc

/-- Above all groups there is nothing to set a hook of. -/
theorem hook_refused {c : Clause} (hc : c.isHook = true) (hs : s.At b none) : c.run b s ≠ (.ok (), t) := by
  have hrefused : ∀ verb, s.refusal? b verb = some (.outsideGroup verb) := fun verb => by
    simp [Session.refusal?, hs.building, hs.cursor_eq]
  intro h
  cases c with
  | before hook =>
    rw [show run b (.before hook) s = _ from bind_error (openGroup_refused (hrefused "before"))] at h
    cases h
  | after hook =>
    rw [show run b (.after hook) s = _ from bind_error (openGroup_refused (hrefused "after"))] at h
    cases h
  | _ => cases hc

theorem given_returned {args : List Value} {description body : Value}
    (h : (Clause.given args description body).run b s = (.ok (), t)) : ∃ n h' specs,
      s.building = some b ∧ (s.build b).cursor = some n ∧ specs.length = args.length ∧
      t = ({ s with heap := h' } : Session).declaringAll b n specs := by
  rw [run] at h
  obtain ⟨x, u, hargs, hgiven⟩ := bind_eq_ok h
  obtain ⟨specs, v, hspecs, hv⟩ := bind_eq_ok hgiven
  cases hv
  cases args with
  | nil =>
    obtain ⟨_, _, -, hmisuse⟩ := bind_eq_ok hargs
    exact absurd hmisuse misuseAt_ne_ok
  | cons arg rest =>
    cases hargs
    have hfirst := hspecs
    rw [givenIt] at hfirst
    obtain ⟨spec, w, hspec, -⟩ := bind_eq_ok hfirst
    obtain ⟨n, _, hb, hn, -⟩ := givenSpec_returned hspec
    obtain ⟨hlength, h', ht⟩ := givenIt_returned hspecs hn
    exact ⟨n, h', specs, hb, hn, hlength, ht⟩

theorem size_hooked (s : Session) (b : BuildId) (n : NodeId) (cs : List Clause) :
    ((s.hooked b n cs).build b).forest.size = (s.build b).forest.size := by
  rw [Session.hooked, Session.changing, Session.build_modify]
  split
  · exact Forest.size_modify ..
  · rfl

theorem hook_at {c : Clause} (hc : c.isHook = true) (hs : s.At b cursor) (h : c.run b s = (.ok (), t)) :
    t.At b cursor ∧ (s.build b).forest.size ≤ (t.build b).forest.size := by
  cases cursor with
  | none => exact absurd h (hook_refused hc hs)
  | some n =>
    rw [hook_run hc hs] at h
    cases h
    exact ⟨hs.hooked n [c], Nat.le_of_eq (size_hooked s b n [c]).symm⟩

mutual

/-- A call that returns leaves the cursor where it was. -/
theorem run_at : (c : Clause) → ∀ {s t : Session} {b cursor}, s.At b cursor → c.run b s = (.ok (), t) →
    t.At b cursor ∧ (s.build b).forest.size ≤ (t.build b).forest.size
  | .before hook, _, _, _, _, hs, h => hook_at rfl hs h
  | .after hook, _, _, _, _, hs, h => hook_at rfl hs h
  | .it description body, s, t, b, cursor, hs, h => by
    obtain ⟨spec, u, hit, h⟩ := bind_eq_ok h
    cases h
    obtain ⟨n, h', -, hn, rfl⟩ := it_returned hit
    have hs' : ({ s with heap := h' } : Session).At b cursor := hs.of_eq rfl (Nat.le_refl _) rfl
    exact ⟨hs'.declaring n spec, Nat.le_of_eq (Session.size_declaring { s with heap := h' } b n (.spec spec) b).symm⟩
  | .given args description body, s, t, b, cursor, hs, h => by
    obtain ⟨n, h', specs, -, -, -, rfl⟩ := given_returned h
    have hs' : ({ s with heap := h' } : Session).At b cursor := hs.of_eq rfl (Nat.le_refl _) rfl
    obtain ⟨hat, hsize⟩ := hs'.declaringAll n specs
    exact ⟨hat, Nat.le_of_eq hsize.symm⟩
  | .describe name cs, s, t, b, cursor, hs, h => by
    rw [describe_run hs.building, hs.cursor_eq] at h
    obtain ⟨hok, rfl⟩ := Prod.mk.inj h
    obtain ⟨hin, hsize⟩ := runAll_at cs (hs.opened name) (Prod.ext hok rfl)
    rw [(Session.opened_build hs name).1, Forest.size_add] at hsize
    have hle : (s.build b).forest.size ≤ ((runAll b cs (s.opened b name)).2.build b).forest.size :=
      Nat.le_of_succ_le hsize
    refine ⟨hin.closed fun n hn => Nat.lt_of_lt_of_le (hs.inside n hn) hle, ?_⟩
    rw [Session.build_withCursor, if_pos ⟨rfl, hin.lt⟩]
    exact hle
  | .interlude a, s, t, b, cursor, hs, h => by
    have hbuild := a.build_eq hs.lt
    have hbuilding := a.building s
    have hgrows := a.grows s
    rw [show a.run s = (.ok (), t) from h] at hbuild hbuilding hgrows
    exact ⟨hs.of_eq hbuilding hgrows hbuild, Nat.le_of_eq (congrArg (·.forest.size) hbuild).symm⟩

theorem runAll_at : (cs : List Clause) → ∀ {s t : Session} {b cursor}, s.At b cursor → runAll b cs s = (.ok (), t) →
    t.At b cursor ∧ (s.build b).forest.size ≤ (t.build b).forest.size
  | [], s, t, b, cursor, hs, h => by
    cases h
    exact ⟨hs, Nat.le_refl _⟩
  | c :: cs, s, t, b, cursor, hs, h => by
    obtain ⟨u, hc, hrest⟩ := runAll_cons.mp h
    obtain ⟨hu, hle⟩ := run_at c hs hc
    obtain ⟨ht, hle'⟩ := runAll_at cs hu hrest
    exact ⟨ht, Nat.le_trans hle hle'⟩

end

/-- A hook of another group than the open one. -/
theorem hook_commutes {change : NodeId → Forest → Forest} {verb : String} {c : Clause}
    (hchange : ∀ k u, changeForest b (change k) u = (.ok (), u.hooked b k [c])) (ks : List Clause)
    (hn : (s.build b).cursor ≠ some n) :
    Commutes (do let k ← openGroup b verb; changeForest b (change k)) (·.hooked b n ks) s := by
  refine (openGroup_commutes s b n ks verb).bind fun k u hopen => ?_
  obtain ⟨-, hk, rfl⟩ := openGroup_returned hopen
  have hne : n ≠ k := fun h => hn (h ▸ hk)
  rw [Commutes, hchange, hchange, Session.hooked_comm hne]

mutual

/-- A call does not see the hooks of a group, but that it may set hooks of the open one. -/
theorem run_commutes (ks : List Clause) : (c : Clause) → ∀ {s : Session} {b cursor n}, s.At b cursor →
    n < (s.build b).forest.size → (cursor = some n → c.isHook = false) → Commutes (c.run b) (·.hooked b n ks) s
  | .before hook, s, b, cursor, n, hs, _, hc =>
    hook_commutes (c := .before hook) (fun _ _ => rfl) ks fun h => nomatch hc (hs.cursor_eq.symm.trans h)
  | .after hook, s, b, cursor, n, hs, _, hc =>
    hook_commutes (c := .after hook) (fun _ _ => rfl) ks fun h => nomatch hc (hs.cursor_eq.symm.trans h)
  | .it description body, s, b, _, n, _, _, _ =>
    (it_commutes s b n ks description body).bind fun _ _ _ => rfl
  | .given args description body, s, b, _, n, _, _, _ =>
    (requireArguments_commutes s b n ks args).bind fun _ u _ =>
      (givenIt_commutes u b n ks description body args).bind fun _ _ _ => rfl
  | .describe name cs, s, b, cursor, n, hs, hn, _ => by
    have hin : (s.opened b name).At b (some (s.build b).forest.size) := hs.opened name
    have hlt : n < ((s.opened b name).build b).forest.size := by
      rw [(Session.opened_build hs name).1, Forest.size_add]
      exact Nat.lt_succ_of_lt hn
    have hinner := runAll_commutes ks cs hin hlt fun hc => absurd (Option.some.inj hc) (Nat.ne_of_gt hn)
    rw [Commutes, describe_run hs.building, describe_run (s := s.hooked b n ks) hs.building,
      Session.opened_hooked hs hn, hinner, (s.build_hooked b n ks).1, Session.withCursor_hooked]
  | .interlude a, s, b, _, n, hs, _, _ => a.oblivious _ hs.lt

theorem runAll_commutes (ks : List Clause) : (cs : List Clause) → ∀ {s : Session} {b cursor n}, s.At b cursor →
    n < (s.build b).forest.size → (cursor = some n → ∀ c ∈ cs, c.isHook = false) →
    Commutes (runAll b cs) (·.hooked b n ks) s
  | [], _, _, _, _, _, _, _ => rfl
  | c :: cs, s, b, cursor, n, hs, hn, hc => by
    refine (run_commutes ks c hs hn fun h => hc h c List.mem_cons_self).bind fun _ u hu => ?_
    obtain ⟨hat, hle⟩ := run_at c hs hu
    exact runAll_commutes ks cs hat (Nat.lt_of_lt_of_le hn hle) fun h d hd => hc h d (List.mem_cons_of_mem _ hd)

end

/-! ### The order of hooks -/

theorem hooked_nil (s : Session) (b : BuildId) (n : NodeId) : s.hooked b n [] = s := by
  refine Session.changing_self ?_
  have hunchanged : ∀ x, Node.hooked [] x = x := fun _ => rfl
  rw [Build.hooked, Forest.modify_same hunchanged]

theorem setups_cons {c : Clause} (hc : c.isHook = false) (cs : List Clause) : setups (c :: cs) = setups cs := by
  cases c <;> first | rfl | cases hc

theorem teardowns_cons {c : Clause} (hc : c.isHook = false) (cs : List Clause) :
    teardowns (c :: cs) = teardowns cs := by
  cases c <;> first | rfl | cases hc

/-- It is only the last hooks that count. -/
theorem hooked_congr {cs cs' : List Clause} (hsetups : setups cs = setups cs')
    (hteardowns : teardowns cs = teardowns cs') (s : Session) (b : BuildId) (n : NodeId) :
    s.hooked b n cs = s.hooked b n cs' := by
  have hnode : Node.hooked cs = Node.hooked cs' := by
    funext x
    simp only [Node.hooked, hsetups, hteardowns]
  unfold Session.hooked Build.hooked
  rw [hnode]

theorem hooked_cons {c : Clause} (hc : c.isHook = false) (s : Session) (b : BuildId) (n : NodeId) (cs : List Clause) :
    s.hooked b n (c :: cs) = s.hooked b n cs :=
  hooked_congr (setups_cons hc cs) (teardowns_cons hc cs) s b n

/-- The clauses of an open group do what those of them do that set no hook, and the hooks are set afterwards. -/
theorem runAll_others {cs : List Clause} (hs : s.At b (some n)) : runAll b cs s = (.ok (), t) ↔
    ∃ u, runAll b (others cs) s = (.ok (), u) ∧ t = u.hooked b n cs := by
  induction cs generalizing s t with
  | nil =>
    simp only [others, List.filter_nil, hooked_nil]
    exact ⟨fun h => ⟨t, h, rfl⟩, fun ⟨u, h, hu⟩ => hu ▸ h⟩
  | cons c cs ih =>
    rw [runAll_cons]
    cases hc : c.isHook with
    | true =>
      have hothers : others (c :: cs) = others cs := by simp [others, hc]
      have hcommutes : runAll b (others cs) (s.hooked b n [c]) = _ :=
        runAll_commutes [c] (others cs) hs (hs.inside n rfl) fun _ d hd => by
          simpa using (List.mem_filter.mp hd).2
      rw [hothers, hook_run hc hs]
      constructor
      · rintro ⟨_, ⟨⟩, h⟩
        obtain ⟨v, hv, rfl⟩ := (ih (hs.hooked n [c])).mp h
        rw [hcommutes] at hv
        obtain ⟨hok, rfl⟩ := Prod.mk.inj hv
        exact ⟨_, Prod.ext hok rfl, Session.hooked_hooked ..⟩
      · rintro ⟨u, hu, rfl⟩
        rw [hu] at hcommutes
        exact ⟨_, rfl, (ih (hs.hooked n [c])).mpr ⟨_, hcommutes, (u.hooked_hooked b n [c] cs).symm⟩⟩
    | false =>
      have hothers : others (c :: cs) = c :: others cs := by simp [others, hc]
      simp only [hothers, runAll_cons, hooked_cons hc]
      constructor
      · rintro ⟨u, hu, h⟩
        obtain ⟨v, hv, rfl⟩ := (ih (run_at c hs hu).1).mp h
        exact ⟨v, ⟨u, hu, hv⟩, rfl⟩
      · rintro ⟨v, ⟨u, hu, hv⟩, rfl⟩
        exact ⟨u, hu, (ih (run_at c hs hu).1).mpr ⟨v, hv, rfl⟩⟩

/-- Above all groups no hook is set. -/
theorem others_eq {cs : List Clause} (hs : s.At b none) (h : runAll b cs s = (.ok (), t)) :
    setups cs = [] ∧ teardowns cs = [] ∧ others cs = cs := by
  induction cs generalizing s with
  | nil => exact ⟨rfl, rfl, rfl⟩
  | cons c cs ih =>
    obtain ⟨u, hu, hrest⟩ := runAll_cons.mp h
    cases hc : c.isHook with
    | true => exact absurd hu (hook_refused hc hs)
    | false =>
      obtain ⟨hsetups, hteardowns, hothers⟩ := ih (run_at c hs hu).1 hrest
      refine ⟨(setups_cons hc cs).trans hsetups, (teardowns_cons hc cs).trans hteardowns, ?_⟩
      rw [others, List.filter_cons_of_pos (by simp [hc]), ← others, hothers]

theorem others_of_unhooked {cs : List Clause} (hsetups : setups cs = []) (hteardowns : teardowns cs = []) :
    others cs = cs := by
  refine List.filter_eq_self.mpr fun c hc => ?_
  have hsetup := List.filterMap_eq_nil_iff.mp hsetups c hc
  have hteardown := List.filterMap_eq_nil_iff.mp hteardowns c hc
  simp [isHook, hsetup, hteardown]

/-- From every place in the build `b` where the one call succeeds, the other does the same. -/
def Follows (b : BuildId) (c c' : Clause) : Prop :=
  ∀ {s t : Session} {cursor}, s.At b cursor → c.run b s = (.ok (), t) → c'.run b s = (.ok (), t)

theorem runAll_follows {cs cs' : List Clause} (h : List.Forall₂ Same cs cs')
    (hrun : ∀ c ∈ cs, ∀ c', c.Same c' → Follows b c c') (hs : s.At b cursor) (ht : runAll b cs s = (.ok (), t)) :
    runAll b cs' s = (.ok (), t) := by
  induction h generalizing s with
  | nil => exact ht
  | @cons c c' cs cs' hc _ ih =>
    obtain ⟨hfirst, hothers⟩ := List.forall_mem_cons.mp hrun
    obtain ⟨u, hu, hrest⟩ := runAll_cons.mp ht
    exact runAll_cons.mpr ⟨u, hfirst c' hc hs hu, ih hothers (run_at c hs hu).1 hrest⟩

theorem Rearranged.follows {cs cs' : List Clause} (h : Rearranged cs cs')
    (hrun : ∀ c ∈ cs, ∀ c', c.Same c' → Follows b c c') (hs : s.At b cursor) (ht : runAll b cs s = (.ok (), t)) :
    runAll b cs' s = (.ok (), t) := by
  cases cursor with
  | some n =>
    obtain ⟨u, hu, rfl⟩ := (runAll_others hs).mp ht
    have hothers := runAll_follows h.others (fun c hc => hrun c (List.mem_filter.mp hc).1) hs hu
    exact (runAll_others hs).mpr ⟨u, hothers, hooked_congr h.setups h.teardowns u b n⟩
  | none =>
    obtain ⟨hsetups, hteardowns, hothers⟩ := others_eq hs ht
    have hothers' := others_of_unhooked (h.setups.symm.trans hsetups) (h.teardowns.symm.trans hteardowns)
    exact runAll_follows (hothers ▸ hothers' ▸ h.others) hrun hs ht

mutual

theorem Same.follows (b : BuildId) : (c : Clause) → ∀ c', c.Same c' → Follows b c c'
  | .describe name cs, _, h, s, t, cursor, hs, ht => by
    cases h with
    | of_eq => exact ht
    | describe hsetups hteardowns hothers =>
      rw [describe_run hs.building] at ht ⊢
      obtain ⟨hok, rfl⟩ := Prod.mk.inj ht
      have hinner := Rearranged.follows ⟨hsetups, hteardowns, hothers⟩ (Same.each_follows b cs) (hs.opened name)
        (Prod.ext hok rfl)
      rw [hinner]
  | .before _, _, .of_eq _, _, _, _, _, ht => ht
  | .after _, _, .of_eq _, _, _, _, _, ht => ht
  | .it _ _, _, .of_eq _, _, _, _, _, ht => ht
  | .given _ _ _, _, .of_eq _, _, _, _, _, ht => ht
  | .interlude _, _, .of_eq _, _, _, _, _, ht => ht

theorem Same.each_follows (b : BuildId) : (cs : List Clause) → ∀ c ∈ cs, ∀ c', c.Same c' → Follows b c c'
  | [] => nofun
  | c :: cs => List.forall_mem_cons.mpr ⟨Same.follows b c, Same.each_follows b cs⟩

end

/-- Calls of hooks may stand anywhere among the other calls, in every group. -/
theorem Rearranged.runAll {cs cs' : List Clause} (h : Rearranged cs cs') (hs : s.At b cursor)
    (ht : runAll b cs s = (.ok (), t)) : Clause.runAll b cs' s = (.ok (), t) :=
  h.follows (Same.each_follows b cs) hs ht

/-- While another build is current, a verb is refused. -/
theorem interlude_of_elsewhere {c : Clause} (hb : s.building ≠ some b) (h : c.run b s = (.ok (), t)) :
    ∃ a, c = .interlude a := by
  cases c with
  | before hook =>
    obtain ⟨n, u, hopen, -⟩ := bind_eq_ok h
    exact absurd (openGroup_returned hopen).1 hb
  | after hook =>
    obtain ⟨n, u, hopen, -⟩ := bind_eq_ok h
    exact absurd (openGroup_returned hopen).1 hb
  | it description body =>
    obtain ⟨spec, u, hit, -⟩ := bind_eq_ok h
    obtain ⟨-, -, hbuilding, -⟩ := it_returned hit
    exact absurd hbuilding hb
  | given args description body =>
    obtain ⟨-, -, -, hbuilding, -⟩ := given_returned h
    exact absurd hbuilding hb
  | describe name cs =>
    rw [run, bind_error (describe_refuses hb _ name (show Value.noop ≠ .null by decide))] at h
    cases h
  | interlude a => exact ⟨a, rfl⟩

theorem interludes_of_elsewhere {cs : List Clause} (hb : s.building ≠ some b) (h : runAll b cs s = (.ok (), t)) :
    ∀ c ∈ cs, ∃ a, c = .interlude a := by
  induction cs generalizing s with
  | nil => exact nofun
  | cons c cs ih =>
    obtain ⟨u, hu, hrest⟩ := runAll_cons.mp h
    obtain ⟨a, rfl⟩ := interlude_of_elsewhere hb hu
    have hbuilding : u.building = s.building := (congrArg (·.2.building) hu).symm.trans (a.building s)
    exact List.forall_mem_cons.mpr ⟨⟨a, rfl⟩, ih (hbuilding ▸ hb) hrest⟩

theorem Same.eq_of_interludes {cs cs' : List Clause} (h : List.Forall₂ Same cs cs')
    (hcs : ∀ c ∈ cs, ∃ a, c = .interlude a) : cs' = cs := by
  induction h with
  | nil => rfl
  | @cons c c' cs cs' hc _ ih =>
    obtain ⟨⟨a, rfl⟩, hrest⟩ := List.forall_mem_cons.mp hcs
    cases hc
    rw [ih hrest]

/-- There are no hooks to move. -/
theorem eq_of_interludes {cs cs' : List Clause} (h : Rearranged cs cs') (hcs : ∀ c ∈ cs, ∃ a, c = .interlude a) :
    cs' = cs := by
  have hsetups : setups cs = [] := List.filterMap_eq_nil_iff.mpr fun c hc => by
    obtain ⟨a, rfl⟩ := hcs c hc
    rfl
  have hteardowns : teardowns cs = [] := List.filterMap_eq_nil_iff.mpr fun c hc => by
    obtain ⟨a, rfl⟩ := hcs c hc
    rfl
  have hothers := h.others
  rw [others_of_unhooked hsetups hteardowns,
    others_of_unhooked (h.setups.symm.trans hsetups) (h.teardowns.symm.trans hteardowns)] at hothers
  exact Same.eq_of_interludes hothers hcs

end Clause

/-! ### Builders -/

/-- The builder function that makes the calls. -/
def BuilderFunction.calling (fn : BuilderFunction) (cs : List Clause) : BuilderFunction :=
  { fn with body := fun frame => match frame.builder with
      | some b => Clause.runAll b cs
      | none => pure () }

namespace Clause

variable {fn : BuilderFunction} {s t : Session} {b : BuildId} {cs cs' : List Clause}

/-- The calls are made by the builder that the function sees, which has nothing to do with the calls. -/
theorem invoke_calling (h : invoke (fn.calling cs) b s = (.ok (), t)) : ∃ v u, u.builds = s.builds ∧
    u.building = s.building ∧ runAll v cs u = (.ok (), t) ∧ ∀ ds, invoke (fn.calling ds) b s = runAll v ds u := by
  have hmerge := mergeVerbs_apply fn.module b s
  have hinvoke : ∀ ds, invoke (fn.calling ds) b s = (do
      let visible ← visibleBuilder (fn.calling ds) b
      inScope (fn.calling ds) visible : Act Unit) (s.configuring (.merging fn.module b)) :=
    fun ds => bind_ok hmerge
  rw [hinvoke] at h
  obtain ⟨v, u, hvisible, h⟩ := bind_eq_ok h
  obtain ⟨⟨⟩, w, hsave, hcalls⟩ := bind_eq_ok h
  obtain ⟨hbuilds, hbuilding⟩ := Quiet.builds_eq (visibleBuilder_quiet (fn.calling cs) b) hvisible
  obtain ⟨hbuilds', hbuilding'⟩ := Quiet.builds_eq (saveBuilder_quiet (fn.calling cs).saveAs v) hsave
  refine ⟨v, w, hbuilds'.trans hbuilds, hbuilding'.trans hbuilding, hcalls, fun ds => ?_⟩
  rw [hinvoke]
  exact (bind_ok hvisible).trans (bind_ok hsave)

/-- A new build is empty. -/
theorem entering_at (s : Session) : s.entering.At s.builds.size none where
  building := rfl
  lt := by simp [Session.entering]
  cursor_eq := by rw [Session.build_entering]; simp [Session.build, Array.getD]
  inside := nofun
  sound := by
    rw [Session.build_entering]
    simp only [Session.build, Array.getD, Nat.lt_irrefl, dif_neg, not_false_iff]
    exact Forest.empty_sound

/-- A build that makes calls makes them on an empty build of its own, or it sees the builder of another one. -/
theorem buildForest_calling (h : buildForest (fn.calling cs) s = (.ok b, t)) : ∃ v u w,
    u.At b none ∧ (u.build b).forest = {} ∧ runAll v cs u = (.ok (), w) ∧ t = w.withBuilding s.building ∧
    ∀ ds w, runAll v ds u = (.ok (), w) → buildForest (fn.calling ds) s = (.ok b, w.withBuilding s.building) := by
  rw [buildForest_apply] at h
  obtain ⟨hresult, rfl⟩ := Prod.mk.inj h
  cases hinvoke : (invoke (fn.calling cs) s.builds.size s.entering).1 with
  | error f =>
    rw [hinvoke] at hresult
    cases hresult
  | ok x =>
    rw [hinvoke] at hresult
    obtain rfl : s.builds.size = b := Except.ok.inj hresult
    obtain ⟨v, u, hbuilds, hbuilding, hcalls, hothers⟩ := invoke_calling (Prod.ext hinvoke rfl)
    have hbuild : u.build s.builds.size = s.entering.build s.builds.size := by
      rw [Session.build, hbuilds, Session.build]
    refine ⟨v, u, _, (entering_at s).of_eq hbuilding (Nat.le_of_eq (by rw [hbuilds])) hbuild, ?_, hcalls, rfl, ?_⟩
    · rw [hbuild, Session.build_entering]
      simp [Session.build, Array.getD]
    · intro ds w hw
      rw [buildForest_apply, hothers, hw]
      rfl

/-- The session after the build is the same one, wherever in their groups the hooks were called. -/
theorem Rearranged.buildForest (h : Rearranged cs cs') (hb : buildForest (fn.calling cs) s = (.ok b, t)) :
    Act.buildForest (fn.calling cs') s = (.ok b, t) := by
  obtain ⟨v, u, w, hu, -, hcalls, rfl, hbuilds⟩ := buildForest_calling hb
  refine hbuilds cs' w ?_
  by_cases hv : u.building = some v
  · obtain rfl : b = v := Option.some.inj (hu.building.symm.trans hv)
    exact h.runAll hu hcalls
  · rw [eq_of_interludes h (interludes_of_elsewhere hv hcalls)]
    exact hcalls

end Clause

end Exemplar
