import Exemplar.Proofs.Program
import Exemplar.Proofs.Tree

/-! Moments of a run, and what holds of the builds at each of them.

`Reachable K s` says that programs lead to the session `s` while the calls `K` are still
running, the innermost first. Programs start and end at such moments however they end
(`Reachable.program`), and at each of them the forest of every build is sound, its cursor
stands where the groups that are open put it, and each open group is the last of its siblings
(`Reachable.fits`). -/
namespace Exemplar

open Act

/-- A call that is still running, with what it restores in the end. -/
inductive Opening
  | group (b : BuildId) (node : NodeId) (outer : Option NodeId)
  | build (outer : Option BuildId)
  | thread (building : Option BuildId) (running : Option EngineId)
  | run (outer : Option EngineId)

namespace Opening

/-- The group that a call has opened in the build `b`, and the group around it. -/
def groupIn (b : BuildId) : Opening → Option (NodeId × Option NodeId)
  | group b' node outer => if b' = b then some (node, outer) else none
  | _ => none

/-- The groups that are open in a build, the innermost first. -/
def groups (b : BuildId) (K : List Opening) : List (NodeId × Option NodeId) := K.filterMap (groupIn b)

theorem groups_group (b : BuildId) (node : NodeId) (outer : Option NodeId) (K : List Opening) :
    groups b (group b node outer :: K) = (node, outer) :: groups b K := by
  simp [groups, groupIn]

theorem groups_other {b b' : BuildId} (hb : b ≠ b') (node : NodeId) (outer : Option NodeId)
    (K : List Opening) : groups b' (group b node outer :: K) = groups b' K := by
  simp [groups, groupIn, hb]

/-- The build that is current again when the call ends. -/
def building : Opening → Option BuildId
  | build outer | thread outer _ => outer
  | _ => none

/-- The engine that is current again when the call ends. -/
def running : Opening → Option EngineId
  | run outer | thread _ outer => outer
  | _ => none

end Opening

inductive Reachable : List Opening → Session → Prop
  | start {s} : (∀ b, s.build b = {}) → (∀ b, s.building = some b → b < s.builds.size) →
      (∀ e, s.running = some e → e < s.engines.size) → Reachable [] s
  | memory {K s m} : Reachable K s → s.heap.Kept m.heap → Reachable K { s with toMemory := m }
  | engines {K s} (engines : Array Engine) : Reachable K s → s.engines.size ≤ engines.size →
      Reachable K { s with engines }
  | openGroup {K s b} (name : Value) : Reachable K s → s.building = some b →
      Reachable (.group b (s.nextNode b name) (s.build b).cursor :: K) (s.opened b name)
  | closeGroup {K s b node outer} : Reachable (.group b node outer :: K) s →
      Reachable K (s.withCursor b outer)
  | declare {K s b n d} : Reachable K s → s.building = some b → (s.build b).cursor = some n →
      d.Allowed s.heap → Reachable K (s.declaring b n d)
  | enterBuild {K s} : Reachable K s → Reachable (.build s.building :: K) s.entering
  | leaveBuild {K s outer} : Reachable (.build outer :: K) s → Reachable K (s.withBuilding outer)
  | enterThread {K s} : Reachable K s →
      Reachable (.thread s.building s.running :: K) ((s.withBuilding none).withRunning none)
  | leaveThread {K s b e} : Reachable (.thread b e :: K) s → Reachable K ((s.withRunning e).withBuilding b)
  | enterRun {K s e} : Reachable K s → e < s.engines.size →
      Reachable (.run s.running :: K) (s.withRunning (some e))
  | leaveRun {K s e} : Reachable (.run e :: K) s → Reachable K (s.withRunning e)

/-! ### Builds -/

/-- A build fits the groups that are open in it: the forest is sound, the open groups are the
way up from the cursor, and each is the last in its place. -/
structure Build.Fits (h : Heap) (opened : List (NodeId × Option NodeId)) (x : Build) : Prop where
  sound : x.forest.Sound
  bodies : ∀ n, ∀ s ∈ x.forest.specs n, s.body.isCallable h = true
  cursor : x.forest.lineageOf x.cursor = opened.map (·.1)
  inside : ∀ g ∈ opened, g.1 < x.forest.size
  last : ∀ g ∈ opened, (x.forest.siblings g.2).getLast? = some g.1

namespace Build.Fits

variable {h : Heap} {opened : List (NodeId × Option NodeId)} {x : Build}

theorem empty (h : Heap) : Fits h [] {} where
  sound := Forest.empty_sound
  bodies n s hs := by simp [Forest.specs, Forest.node?] at hs
  cursor := rfl
  inside _ hg := absurd hg List.not_mem_nil
  last _ hg := absurd hg List.not_mem_nil

theorem kept (hx : x.Fits h opened) {h' : Heap} (hk : h.Kept h') : x.Fits h' opened :=
  { hx with bodies := fun n s hs => isCallable_of_kept hk (hx.bodies n s hs) }

/-- The cursor is the innermost open group. -/
theorem cursor_eq (hx : x.Fits h opened) : x.cursor = opened.head?.map (·.1) := by
  have hc := hx.cursor
  cases hn : x.cursor with
  | none =>
    rw [hn] at hc
    rw [List.map_eq_nil_iff.mp hc.symm]
    rfl
  | some n =>
    rw [hn] at hc
    cases opened with
    | nil => exact absurd (hx.sound.self_mem_lineage n) (by simp [show x.forest.lineage n = [] from hc])
    | cons g rest =>
      have hhead := congrArg List.head? hc
      cases hp : x.forest.parent? n with
      | none => simpa [Forest.lineageOf, Forest.lineage_root hp] using hhead
      | some p => simpa [Forest.lineageOf, hx.sound.lineage_child hp] using hhead

theorem cursor_lt (hx : x.Fits h opened) {p : Nat} (hp : x.cursor = some p) : p < x.forest.size := by
  rw [hx.cursor_eq] at hp
  cases opened with
  | nil => cases hp
  | cons g rest => exact Option.some.inj hp ▸ hx.inside g List.mem_cons_self

theorem parent? (hx : x.Fits h opened) {g : NodeId × Option NodeId} (hg : g ∈ opened) :
    x.forest.parent? g.1 = g.2 :=
  hx.sound.parent_of_sibling (List.mem_of_getLast? (hx.last g hg))

/-- The cursor is not around an open group. -/
theorem cursor_ne (hx : x.Fits h opened) {g : NodeId × Option NodeId} (hg : g ∈ opened) :
    x.cursor ≠ g.2 := by
  intro hc
  have hmem : g.1 ∈ x.forest.lineageOf x.cursor := by
    rw [hx.cursor]
    exact List.mem_map_of_mem hg
  cases hp : x.cursor with
  | none =>
    rw [hp] at hmem
    exact List.not_mem_nil hmem
  | some p =>
    rw [hp] at hmem
    have hle := hx.sound.le_of_mem_lineage hmem
    have hlt := hx.sound.earlier ((hx.parent? hg).trans (hc.symm.trans hp))
    exact absurd (Nat.lt_of_lt_of_le hlt hle) (Nat.lt_irrefl p)

theorem openGroup (hx : x.Fits h opened) (name : Value) :
    Fits h ((x.forest.size, x.cursor) :: opened)
      { forest := (x.forest.add name x.cursor).1, cursor := some x.forest.size } where
  sound := hx.sound.add name fun _ => hx.cursor_lt
  bodies n s hs := hx.bodies n s (by rwa [Forest.specs_add] at hs)
  cursor := by
    show (x.forest.add name x.cursor).1.lineage x.forest.size = _
    rw [hx.sound.lineage_new name fun _ => hx.cursor_lt, hx.cursor]
    rfl
  inside g hg := by
    rw [Forest.size_add]
    rcases List.mem_cons.mp hg with rfl | hg
    · exact Nat.lt_succ_self _
    · exact Nat.lt_succ_of_lt (hx.inside g hg)
  last g hg := by
    rw [Forest.siblings_add fun _ => hx.cursor_lt]
    rcases List.mem_cons.mp hg with rfl | hg
    · simp
    · rw [if_neg (hx.cursor_ne hg), List.append_nil]
      exact hx.last g hg

theorem closeGroup {g : NodeId × Option NodeId} (hx : x.Fits h (g :: opened)) :
    Fits h opened { x with cursor := g.2 } where
  sound := hx.sound
  bodies := hx.bodies
  cursor := by
    have hc : x.cursor = some g.1 := hx.cursor_eq
    have hup := hx.cursor
    have hp := hx.parent? List.mem_cons_self
    rw [hc] at hup
    show x.forest.lineageOf g.2 = opened.map (·.1)
    cases hg : g.2 with
    | none =>
      rw [Forest.lineageOf, Forest.lineage_root (hp.trans hg)] at hup
      exact (List.cons.inj hup).2
    | some p =>
      rw [Forest.lineageOf, hx.sound.lineage_child (hp.trans hg)] at hup
      exact (List.cons.inj hup).2
  inside g hg := hx.inside g (List.mem_cons_of_mem _ hg)
  last g hg := hx.last g (List.mem_cons_of_mem _ hg)

theorem modify (hx : x.Fits h opened) (n : NodeId) (change : Node → Node)
    (hp : ∀ y, (change y).parent = y.parent) (hc : ∀ y, (change y).children = y.children)
    (hs : ∀ y, ∀ s ∈ (change y).specs, s ∈ y.specs ∨ s.body.isCallable h = true) :
    Fits h opened { x with forest := x.forest.modify n change } where
  sound := hx.sound.modify hp hc n
  bodies m s hm := by
    rw [Forest.specs_modify] at hm
    split at hm
    · cases hnode : x.forest.node? m with
      | none => simp [hnode] at hm
      | some y =>
        simp only [hnode, Option.map_some, Option.getD_some] at hm
        refine (hs y s hm).elim (fun hold => hx.bodies m s ?_) id
        simpa [Forest.specs, hnode] using hold
    · exact hx.bodies m s hm
  cursor := by
    rw [← hx.cursor]
    cases x.cursor with
    | none => rfl
    | some c => exact Forest.lineage_modify hp n c
  inside g hg := by
    rw [Forest.size_modify]
    exact hx.inside g hg
  last g hg := by
    rw [Forest.siblings_modify hc]
    exact hx.last g hg

theorem declare (hx : x.Fits h opened) (n : NodeId) {d : Declaration} (hd : d.Allowed h) :
    Fits h opened { x with forest := x.forest.declare n d } := by
  cases d with
  | setup hook =>
    exact hx.modify n ({ · with setup := hook }) (fun _ => rfl) (fun _ => rfl) fun _ _ => .inl
  | teardown hook =>
    exact hx.modify n ({ · with teardown := hook }) (fun _ => rfl) (fun _ => rfl) fun _ _ => .inl
  | spec s =>
    refine hx.modify n (fun y => { y with specs := y.specs ++ [s] }) (fun _ => rfl) (fun _ => rfl)
      fun y t ht => ?_
    rcases List.mem_append.mp ht with ht | ht
    · exact .inl ht
    · exact .inr (List.mem_singleton.mp ht ▸ hd)

end Build.Fits

/-! ### Sessions -/

/-- What the call restores in the end is there. -/
structure Opening.Restorable (o : Opening) (s : Session) : Prop where
  building : ∀ b, o.building = some b → b < s.builds.size
  running : ∀ e, o.running = some e → e < s.engines.size

/-- It stays there as builds and engines are added. -/
theorem Opening.restorable_grow {K : List Opening} {s t : Session} (h : ∀ o ∈ K, o.Restorable s)
    (hb : s.builds.size ≤ t.builds.size) (he : s.engines.size ≤ t.engines.size) :
    ∀ o ∈ K, o.Restorable t := fun o ho =>
  { building := fun b hr => Nat.lt_of_lt_of_le ((h o ho).building b hr) hb
    running := fun e hr => Nat.lt_of_lt_of_le ((h o ho).running e hr) he }

theorem Opening.restorable_same {K : List Opening} {s t : Session} (h : ∀ o ∈ K, o.Restorable s)
    (hb : t.builds.size = s.builds.size) (he : t.engines.size = s.engines.size) :
    ∀ o ∈ K, o.Restorable t := restorable_grow h (Nat.le_of_eq hb.symm) (Nat.le_of_eq he.symm)

namespace Session

theorem build_withCursor (s : Session) (b : BuildId) (cursor : Option NodeId) (b' : BuildId) :
    (s.withCursor b cursor).build b' =
      if b = b' ∧ b' < s.builds.size then { s.build b' with cursor } else s.build b' := getD_modify ..

theorem build_modify (s : Session) (b : BuildId) (change : Build → Build) (b' : BuildId) :
    ({ s with builds := s.builds.modify b change } : Session).build b' =
      if b = b' ∧ b' < s.builds.size then change (s.build b') else s.build b' := getD_modify ..

/-- A new build is empty, as one that there is not. -/
theorem build_entering (s : Session) (b : BuildId) : s.entering.build b = s.build b := by
  show (s.builds.push {}).getD b {} = s.builds.getD b {}
  simp only [Array.getD_eq_getD_getElem?, Array.getElem?_push]
  split
  · rename_i hb
    simp [hb]
  · rfl

theorem lt_of_cursor {s : Session} {b : BuildId} {n : NodeId} (h : (s.build b).cursor = some n) :
    b < s.builds.size := by
  by_cases hb : b < s.builds.size
  · exact hb
  · simp [build, Array.getD, hb] at h

/-- A session fits the calls that are running: every build fits its open groups, and the builds
and engines that are current now or when a call ends are there. -/
structure Fits (K : List Opening) (s : Session) : Prop where
  builds : ∀ b, (s.build b).Fits s.heap (Opening.groups b K)
  current : ∀ b, s.building = some b → b < s.builds.size
  driven : ∀ e, s.running = some e → e < s.engines.size
  saved : ∀ o ∈ K, o.Restorable s

namespace Fits

variable {K : List Opening} {s : Session}

theorem memory (h : s.Fits K) {m : Memory} (hk : s.heap.Kept m.heap) : Fits K { s with toMemory := m } :=
  { h with
    builds := fun b => (h.builds b).kept hk
    saved := Opening.restorable_same h.saved rfl rfl }

/-- One build changes, and maybe the groups that are open in it. -/
theorem modify (h : s.Fits K) {b : BuildId} (hb : b < s.builds.size) {change : Build → Build}
    {K' : List Opening} (hin : (change (s.build b)).Fits s.heap (Opening.groups b K'))
    (hout : ∀ b', b ≠ b' → Opening.groups b' K' = Opening.groups b' K)
    (hsaved : ∀ o ∈ K', o.Restorable s) :
    Fits K' { s with builds := s.builds.modify b change } where
  builds b' := by
    rw [build_modify]
    by_cases hbb : b = b'
    · subst hbb
      rw [if_pos ⟨rfl, hb⟩]
      exact hin
    · rw [if_neg fun hc => hbb hc.1, hout b' hbb]
      exact h.builds b'
  current b' hb' := by
    rw [Array.size_modify]
    exact h.current b' hb'
  driven := h.driven
  saved := Opening.restorable_same hsaved Array.size_modify rfl

theorem openGroup (h : s.Fits K) {b : BuildId} (hb : s.building = some b) (name : Value) :
    (s.opened b name).Fits (.group b (s.nextNode b name) (s.build b).cursor :: K) := by
  refine h.modify (h.current b hb) ?_ (fun b' hne => Opening.groups_other hne ..)
    (List.forall_mem_cons.mpr ⟨⟨nofun, nofun⟩, h.saved⟩)
  have hnode : s.nextNode b name = (s.build b).forest.size := Forest.add_snd ..
  rw [hnode, Opening.groups_group]
  exact (h.builds b).openGroup name

theorem closeGroup {b : BuildId} {node : NodeId} {outer : Option NodeId}
    (h : s.Fits (.group b node outer :: K)) : (s.withCursor b outer).Fits K := by
  have hb := h.builds b
  rw [Opening.groups_group] at hb
  exact h.modify (lt_of_cursor hb.cursor_eq) hb.closeGroup
    (fun b' hne => (Opening.groups_other hne ..).symm) fun o ho => h.saved o (List.mem_cons_of_mem _ ho)

theorem declare (h : s.Fits K) {b : BuildId} {n : NodeId} (hn : (s.build b).cursor = some n)
    {d : Declaration} (hd : d.Allowed s.heap) : (s.declaring b n d).Fits K :=
  h.modify (lt_of_cursor hn) ((h.builds b).declare n hd) (fun _ _ => rfl) h.saved

end Fits

end Session

/-- At every moment the session fits the calls that are running. -/
theorem Reachable.fits {K : List Opening} {s : Session} (h : Reachable K s) : s.Fits K := by
  induction h with
  | start hempty hcurrent hdriven =>
    exact ⟨fun b => hempty b ▸ .empty _, hcurrent, hdriven, fun _ ho => absurd ho List.not_mem_nil⟩
  | memory _ hk ih => exact ih.memory hk
  | engines _ _ hsize ih =>
    exact ⟨ih.builds, ih.current, fun e he => Nat.lt_of_lt_of_le (ih.driven e he) hsize,
      Opening.restorable_grow ih.saved (Nat.le_refl _) hsize⟩
  | openGroup name _ hb ih => exact ih.openGroup hb name
  | closeGroup _ ih => exact ih.closeGroup
  | declare _ _ hn hd ih => exact ih.declare hn hd
  | @enterBuild K s _ ih =>
    have hsize : s.entering.builds.size = s.builds.size + 1 := Array.size_push ..
    have hle : s.builds.size ≤ s.entering.builds.size := hsize ▸ Nat.le_succ _
    refine ⟨fun b => s.build_entering b ▸ ih.builds b, fun b hb => ?_, ih.driven, List.forall_mem_cons.mpr
      ⟨⟨fun b hb => Nat.lt_of_lt_of_le (ih.current b hb) hle, nofun⟩,
        Opening.restorable_grow ih.saved hle (Nat.le_refl _)⟩⟩
    rw [hsize, ← Option.some.inj hb]
    exact Nat.lt_succ_self _
  | leaveBuild _ ih =>
    obtain ⟨hinner, hsaved⟩ := List.forall_mem_cons.mp ih.saved
    exact ⟨ih.builds, hinner.building, ih.driven, Opening.restorable_same hsaved rfl rfl⟩
  | enterThread _ ih =>
    exact ⟨ih.builds, nofun, nofun, List.forall_mem_cons.mpr
      ⟨⟨ih.current, ih.driven⟩, Opening.restorable_same ih.saved rfl rfl⟩⟩
  | leaveThread _ ih =>
    obtain ⟨hinner, hsaved⟩ := List.forall_mem_cons.mp ih.saved
    exact ⟨ih.builds, hinner.building, hinner.running, Opening.restorable_same hsaved rfl rfl⟩
  | enterRun _ he ih =>
    exact ⟨ih.builds, ih.current, fun _ hr => Option.some.inj hr ▸ he, List.forall_mem_cons.mpr
      ⟨⟨nofun, ih.driven⟩, Opening.restorable_same ih.saved rfl rfl⟩⟩
  | leaveRun _ ih =>
    obtain ⟨hinner, hsaved⟩ := List.forall_mem_cons.mp ih.saved
    exact ⟨ih.builds, ih.current, hinner.running, Opening.restorable_same hsaved rfl rfl⟩

/-! ### Programs -/

/-- What is known of a moment: the calls that are running, a number of engines there are at least,
and which of them is current. -/
structure Moment where
  opened : List Opening
  engines : Nat
  running : Option EngineId

/-- The session, compared with itself, is at the moment. -/
structure Moment.Holds (m : Moment) (s s' : Session) : Prop where
  same : s = s'
  reachable : Reachable m.opened s
  engines : m.engines ≤ s.engines.size
  running : s.running = m.running
  driven : ∀ e, m.running = some e → e < m.engines

/-- Programs keep to the moments: an accord of a run with itself. -/
def Reachable.accord : Accord none none where
  World := Moment
  rel := Moment.Holds
  twin m e e' := e = e' ∧ e < m.engines
  odd _ _ _ := False
  same h := h.same ▸ .refl _ False.elim
  memory h hk _ := ⟨by rw [h.same], h.reachable.memory hk, h.engines, h.running, h.driven⟩
  scoping h _ := ⟨by rw [h.same], h.reachable.memory (.refl _), h.engines, h.running, h.driven⟩
  group {m s s' b} name h hb := by
    obtain ⟨rfl, h, hsize, hr, hd⟩ := h
    exact ⟨⟨_, m.engines, m.running⟩, ⟨rfl, h.openGroup name hb, hsize, hr, hd⟩, trivial, fun u u' hu =>
      ⟨by rw [hu.same], hu.reachable.closeGroup, hu.engines, hu.running, hd⟩⟩
  declare h hb hn hd :=
    ⟨by rw [h.same], h.reachable.declare hb hn hd, h.engines, h.running, h.driven⟩
  build {m s s'} h := by
    obtain ⟨rfl, h, hsize, hr, hd⟩ := h
    exact ⟨⟨_, m.engines, m.running⟩, ⟨rfl, h.enterBuild, hsize, hr, hd⟩, trivial, fun u u' hu =>
      ⟨by rw [hu.same], hu.reachable.leaveBuild, hu.engines, hu.running, hd⟩⟩
  thread {m s s'} h := by
    obtain ⟨rfl, h, hsize, hr, hd⟩ := h
    exact ⟨⟨_, m.engines, none⟩, ⟨rfl, h.enterThread, hsize, rfl, nofun⟩, trivial, fun u u' hu =>
      ⟨by rw [hu.same], hu.reachable.leaveThread, hu.engines, hr, hd⟩⟩
  current {m s s'} h := by
    obtain ⟨rfl, -, -, hr, hd⟩ := h
    cases he : s.running with
    | none => exact .inl ⟨rfl, rfl⟩
    | some e => exact .inr ⟨e, e, rfl, rfl, .inl ⟨rfl, hd e (hr.symm.trans he)⟩⟩
  run {m s s' e e'} h ht := by
    obtain ⟨rfl, h, hsize, hr, hd⟩ := h
    obtain ⟨rfl, he⟩ := ht
    exact ⟨⟨_, m.engines, some e⟩, ⟨rfl, h.enterRun (Nat.lt_of_lt_of_le he hsize), hsize, rfl,
        fun _ hr => Option.some.inj hr ▸ he⟩, ⟨rfl, he⟩, fun u u' hu =>
      ⟨by rw [hu.same], hu.reachable.leaveRun, hu.engines, hr, hd⟩⟩
  fresh {m s s'} kind h := by
    obtain ⟨rfl, h, hsize, hr, hd⟩ := h
    have hadding : (s.adding kind).engines.size = s.engines.size + 1 := Array.size_push ..
    exact ⟨⟨m.opened, s.engines.size + 1, m.running⟩,
      ⟨rfl, h.engines _ (hadding ▸ Nat.le_succ _), Nat.le_of_eq hadding.symm, hr,
        fun e he => Nat.lt_succ_of_le (Nat.le_trans (Nat.le_of_lt (hd e he)) hsize)⟩,
      ⟨rfl, Nat.lt_succ_self _⟩, fun u u' hu =>
      ⟨hu.same, hu.reachable, Nat.le_trans (Nat.le_succ_of_le hsize) hu.engines, hu.running, hd⟩⟩
  content h ht := by rw [h.same, ht.1]
  setting {m s s' e e'} x h ht := by
    obtain ⟨rfl, h, hsize, hr, hd⟩ := h
    obtain ⟨rfl, he⟩ := ht
    have hset : (s.withEngine e x).engines.size = s.engines.size := Array.size_setIfInBounds ..
    exact ⟨rfl, h.engines _ (Nat.le_of_eq hset.symm), hset.symm ▸ hsize, hr, hd⟩
  free _ := ⟨nofun, nofun⟩
  report _ _ h := h.elim
  pause h := h.elim
  resume h := h.elim
  wait _ _ h := h.elim
  setTitle _ h := h.elim
  declareGroup _ _ _ h := h.elim
  runTest _ _ h _ := h.elim
  specify _ h _ _ := h.elim

namespace Reachable

variable {K : List Opening} {s : Session}

/-- The moment that a session is at. -/
theorem moment (h : Reachable K s) : Moment.Holds ⟨K, s.engines.size, s.running⟩ s s :=
  ⟨rfl, h, Nat.le_refl _, rfl, h.fits.driven⟩

theorem step (h : Reachable K s) (depth : Nat) (f : Frame) (p : Step) :
    Reachable K (Step.run none (callWithin none depth) f p s).2 :=
  (accord.step_alike (accord.callWithin_alike depth) f p False.elim s s h.moment).2.reachable

theorem call (h : Reachable K s) (depth : Nat) (v : Value) (args : List Value)
    (named : List (String × Value)) :
    Reachable K (callWithin none depth v args named s).2 :=
  (accord.callWithin_alike depth _ v args named s s h.moment).2.reachable

theorem build (h : Reachable K s) {fn : BuilderFunction} (hfn : fn.Written) :
    Reachable K (buildForest fn s).2 := (hfn.alike accord ⟨id, Nat.zero_le⟩ _ s s h.moment).2.reachable

end Reachable

/-- The body of a group runs while the group is open, and then the cursor is what it was. -/
theorem Act.describe_apply {s : Session} {b : BuildId} (hb : s.building = some b) (call : Call)
    (name : Value) {body : Value} (hbody : body ≠ .null) :
    (describe call b name body s).2 =
      ((call body [] [] (s.opened b name)).2).withCursor b (s.build b).cursor := by
  unfold describe
  rw [if_neg hbody, bind_ok ((requireBuilding_apply b "describe" s).trans (by rw [if_pos hb]))]
  show (ensuring (call body [] [] >>= fun _ => pure (.inr (s.nextNode b name)) : Act (Sum Value NodeId))
    (setCursor b (s.build b).cursor) (s.opened b name)).2 = _
  rw [ensuring_apply]
  have hbind : ∀ t : Session, ((call body [] [] >>= fun _ =>
      pure (.inr (s.nextNode b name)) : Act (Sum Value NodeId)) t).2 = (call body [] [] t).2 := fun t => by
    rcases hcall : call body [] [] t with ⟨_ | _, u⟩
    · rw [bind_error hcall]
    · rw [bind_ok hcall]
      rfl
  rw [hbind]
  rfl

/-- The links of a build agree, and its cursor is the innermost of the groups that are open. -/
structure Build.Intact (opened : List NodeId) (x : Build) : Prop where
  once : x.forest.preorder.Nodup
  child : ∀ n ∈ x.forest.preorder, ∀ p, n ∈ x.forest.children p ↔ x.forest.parent? n = some p
  root : ∀ n ∈ x.forest.preorder, n ∈ x.forest.roots ↔ x.forest.parent? n = none
  ends : ∀ n ∈ x.forest.preorder, ∃ r ∈ x.forest.roots, (x.forest.lineage n).getLast? = some r
  inside : ∀ n, x.cursor = some n → n ∈ x.forest.preorder
  lineage : x.forest.lineageOf x.cursor = opened

theorem Build.Fits.intact {h : Heap} {opened : List (NodeId × Option NodeId)} {x : Build}
    (hx : x.Fits h opened) : x.Intact (opened.map (·.1)) where
  once := hx.sound.preorder_nodup
  child _ _ _ := hx.sound.listed
  root _ hn := hx.sound.root.trans (and_iff_right (hx.sound.mem_preorder.mp hn))
  ends _ hn := hx.sound.lineage_ends (hx.sound.mem_preorder.mp hn)
  inside _ hn := hx.sound.mem_preorder.mpr (hx.cursor_lt hn)
  lineage := hx.cursor

/-- Whatever programs do, at every moment every build is intact for the groups that are open in
it, the next step leads to such a moment again, and a group that was described stays the last
one below the cursor, which is where it was. -/
theorem reachable_intact {K : List Opening} {s : Session} (h : Reachable K s) (depth : Nat) :
    (∀ b, (s.build b).Intact ((Opening.groups b K).map (·.1))) ∧
    (∀ f p, Reachable K (Step.run none (callWithin none depth) f p s).2) ∧
    ∀ b name body, body ≠ .null → s.building = some b →
      let t := (describe (callWithin none depth) b name body s).2
      Reachable K t ∧ (t.build b).cursor = (s.build b).cursor ∧
        ((t.build b).forest.siblings (s.build b).cursor).getLast? = some (s.nextNode b name) := by
  refine ⟨fun b => (h.fits.builds b).intact, h.step depth, fun b name body hbody hb => ?_⟩
  have hin := (h.openGroup name hb).call depth body [] []
  have hfits := hin.fits.builds b
  rw [Opening.groups_group] at hfits
  rw [describe_apply hb _ name hbody]
  refine ⟨hin.closeGroup, ?_⟩
  rw [Session.build_withCursor, if_pos ⟨rfl, Session.lt_of_cursor hfits.cursor_eq⟩]
  exact ⟨rfl, hfits.last _ List.mem_cons_self⟩

theorem reachable_intact_open :
    Reachable [.group 0 0 none, .build none] (Session.opened (Session.entering {}) 0 (.text "a")) ∧
    ((Session.opened (Session.entering {}) 0 (.text "a")).build 0).Intact [0] := by
  have hstart : Reachable [] {} := .start (fun _ => rfl) nofun nofun
  have h := hstart.enterBuild.openGroup (b := 0) (.text "a") rfl
  exact ⟨h, (reachable_intact h 1).1 0⟩

end Exemplar
