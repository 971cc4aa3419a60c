import Exemplar.Proofs.Later

/-! Builds that are out of reach.

A build is `Aside` if it is not current and no running call will make it current again or move
its cursor. No move reaches such a build (`Aside.move`), its verbs are refused (`refuses`), and
it stays aside. Builds around a nested build are aside while that goes on
(`nested_build_isolated`), and a build that has ended is aside ever after
(`ended_build_stays`). -/
namespace Exemplar

open Act

/-! ### Verbs that are refused -/

/-- Every verb of the builder `b` that adds to its forest is refused and changes no build: used
directly, through a group that waits for its body, or through given arguments. -/
structure Session.Refuses (s : Session) (b : BuildId) : Prop where
  describe : ∀ call name body, body ≠ .null →
    Act.describe call b name body s = (.error (.misuse (.notBuilding "describe") none), s)
  group : ∀ barred call name args named filled,
    describeSignature.bind (.foreign "Builder" :: name :: args) named = .ok filled →
    received filled "fn" ≠ .null → applyProcedure barred call (.group b name) args named s =
      (.error (.misuse (.notBuilding "describe") none), s)
  before : ∀ hook, Act.before b hook s = (.error (.misuse (.notBuilding "before") none), s)
  after : ∀ hook, Act.after b hook s = (.error (.misuse (.notBuilding "after") none), s)
  it : ∀ description body, Act.it b description body s = (.error (.misuse (.notBuilding "it") none), s)
  givenIt : ∀ description body args, args ≠ [] → ∃ f t,
    Act.givenIt b description body args s = (.error f, t) ∧ t.builds = s.builds

section Refusal

variable {s : Session} {b : BuildId}

theorem requireBuilding_refuses (h : s.building ≠ some b) (verb : String) :
    requireBuilding b verb s = (.error (.misuse (.notBuilding verb) none), s) := by
  rw [requireBuilding_apply, if_neg h]

theorem openGroup_refuses (h : s.building ≠ some b) (verb : String) :
    openGroup b verb s = (.error (.misuse (.notBuilding verb) none), s) :=
  bind_error (requireBuilding_refuses h verb)

theorem describe_refuses (h : s.building ≠ some b) (call : Call) (name : Value) {body : Value}
    (hbody : body ≠ .null) :
    describe call b name body s = (.error (.misuse (.notBuilding "describe") none), s) := by
  unfold describe
  rw [if_neg hbody]
  exact bind_error (requireBuilding_refuses h "describe")

theorem it_refuses (h : s.building ≠ some b) (description body : Value) :
    it b description body s = (.error (.misuse (.notBuilding "it") none), s) :=
  bind_error (openGroup_refuses h "it")

/-- What changes memory only leaves the builds alone. -/
theorem Quiet.builds_eq {α : Type} {a : Act α} (ha : Quiet False a) {s t : Session} {r : Except Failure α}
    (h : a s = (r, t)) : t.builds = s.builds ∧ t.building = s.building := by
  obtain ⟨m, -, rfl⟩ := ha.still h
  exact ⟨rfl, rfl⟩

theorem givenSpec_refuses (h : s.building ≠ some b) (description body arg : Value) :
    ∃ f t, givenSpec b description body arg s = (.error f, t) ∧ t.builds = s.builds := by
  rw [givenSpec]
  rcases htext : reading (fun h => givenDescription h arg description) s with ⟨f | text, t⟩
  · exact ⟨f, t, bind_error htext, (Quiet.builds_eq (.reading _) htext).1⟩
  · obtain ⟨ht, htbuilding⟩ := Quiet.builds_eq (.reading _) htext
    rw [bind_ok htext]
    -- the body of the spec may be a new object, which changes memory only
    rcases hbody : givenBody arg body t with ⟨f | made, u⟩
    · exact ⟨f, u, bind_error hbody, (Quiet.builds_eq (givenBody_quiet arg body) hbody).1.trans ht⟩
    · obtain ⟨hu, hubuilding⟩ := Quiet.builds_eq (givenBody_quiet arg body) hbody
      have hne : u.building ≠ some b := by
        rw [hubuilding, htbuilding]
        exact h
      rw [bind_ok hbody, it_refuses hne (.text text) made]
      exact ⟨_, u, rfl, hu.trans ht⟩

theorem givenIt_refuses (h : s.building ≠ some b) (description body : Value) {args : List Value}
    (hargs : args ≠ []) :
    ∃ f t, givenIt b description body args s = (.error f, t) ∧ t.builds = s.builds := by
  obtain ⟨arg, rest, rfl⟩ := List.exists_cons_of_ne_nil hargs
  obtain ⟨f, t, hspec, ht⟩ := givenSpec_refuses h description body arg
  exact ⟨f, t, bind_error hspec, ht⟩

theorem Session.refuses (h : s.building ≠ some b) : s.Refuses b where
  describe call name _ hbody := describe_refuses h call name hbody
  group barred call name args named filled hfilled hfn := by
    have hbind : bindCall "Builder.describe" describeSignature (.foreign "Builder" :: name :: args) named s =
        (.ok filled, s) := by
      unfold bindCall
      rw [hfilled]
      rfl
    exact (bind_ok hbind).trans (bind_error (describe_refuses h call _ hfn))
  before _ := bind_error (openGroup_refuses h "before")
  after _ := bind_error (openGroup_refuses h "after")
  it description body := it_refuses h description body
  givenIt description body _ hargs := givenIt_refuses h description body hargs

end Refusal

/-! ### Builds that are aside -/

/-- The build that is changed or made current when the call ends. -/
def Opening.concern : Opening → Option BuildId
  | group b _ _ => some b
  | build outer | thread outer _ => outer
  | run _ => none

/-- The build exists, is not current, and no call above `base` will come back to it. -/
structure Aside (base : List Opening) (b : BuildId) (p : Instant) : Prop where
  known : b < p.2.builds.size
  idle : p.2.building ≠ some b
  calls : ∃ inner, p.1 = inner ++ base ∧ ∀ o ∈ inner, o.concern ≠ some b

namespace Session

theorem build_modify_ne (s : Session) {b b' : BuildId} (h : b ≠ b') (change : Build → Build) :
    ({ s with builds := s.builds.modify b change } : Session).build b' = s.build b' := by
  rw [build_modify, if_neg fun hc => h hc.1]

end Session

namespace Aside

variable {base : List Opening} {b : BuildId} {K : List Opening} {s : Session} {o : Opening}

/-- A call begins that will not come back to the build. -/
theorem push (h : Aside base b (K, s)) (ho : o.concern ≠ some b) {t : Session}
    (hsize : s.builds.size ≤ t.builds.size) (ht : t.building ≠ some b) : Aside base b (o :: K, t) := by
  obtain ⟨inner, hK, hinner⟩ := h.calls
  refine ⟨Nat.lt_of_lt_of_le h.known hsize, ht, o :: inner, ?_, ?_⟩
  · show o :: K = o :: inner ++ base
    rw [show K = inner ++ base from hK]
    rfl
  · simpa using ⟨ho, hinner⟩

/-- The innermost call ends. It is above `base`, as that still runs. -/
theorem pop (h : Aside base b (o :: K, s)) (hbase : base <:+ K) :
    o.concern ≠ some b ∧ ∀ t : Session, t.builds.size = s.builds.size → t.building ≠ some b →
      Aside base b (K, t) := by
  obtain ⟨inner, hK, hinner⟩ := h.calls
  cases inner with
  | nil =>
    have hlength := hbase.length_le
    rw [show base = o :: K from hK.symm, List.length_cons] at hlength
    omega
  | cons o' rest =>
    obtain ⟨rfl, hrest⟩ := List.cons.inj (show o :: K = o' :: (rest ++ base) from hK)
    refine ⟨hinner o List.mem_cons_self, fun t hsize ht => ⟨hsize ▸ h.known, ht, rest, hrest, ?_⟩⟩
    intro o ho
    exact hinner o (List.mem_cons_of_mem _ ho)

/-- The calls that are running stay the same. -/
theorem stay (h : Aside base b (K, s)) {t : Session} (hsize : t.builds.size = s.builds.size)
    (ht : t.building = s.building) : Aside base b (K, t) :=
  ⟨hsize ▸ h.known, ht ▸ h.idle, h.calls⟩

/-- No move reaches a build that is aside, and it stays aside. -/
theorem move {p q : Instant} (h : Aside base b p) (hm : Move p q) (hbase : base <:+ q.1) :
    Aside base b q ∧ q.2.build b = p.2.build b := by
  have hidle := h.idle
  cases hm with
  | memory _ => exact ⟨h.stay rfl rfl, rfl⟩
  | engines _ => exact ⟨h.stay rfl rfl, rfl⟩
  | openGroup name hb =>
    refine ⟨h.push ?_ ?_ ?_, Session.build_modify_ne _ ?_ _⟩
    · exact fun ho => hidle (hb.trans ho)
    · simp [Session.opened]
    · exact hidle
    · rintro rfl
      exact hidle hb
  | closeGroup =>
    obtain ⟨ho, hrest⟩ := h.pop hbase
    refine ⟨hrest _ ?_ hidle, Session.build_modify_ne _ ?_ _⟩
    · simp [Session.withCursor]
    · rintro rfl
      exact ho rfl
  | declare hb _ _ =>
    refine ⟨h.stay ?_ rfl, Session.build_modify_ne _ ?_ _⟩
    · simp [Session.declaring]
    · rintro rfl
      exact hidle hb
  | @enterBuild K s =>
    refine ⟨h.push (o := .build s.building) hidle ?_ ?_, s.build_entering b⟩
    · simp [Session.entering]
    · intro hb
      exact Nat.ne_of_gt h.known (Option.some.inj hb)
  | leaveBuild =>
    obtain ⟨ho, hrest⟩ := h.pop hbase
    exact ⟨hrest _ rfl ho, rfl⟩
  | @enterThread K s =>
    have hnone : none ≠ some b := (Option.some_ne_none b).symm
    exact ⟨h.push (o := .thread s.building s.running) hidle (Nat.le_refl _) hnone, rfl⟩
  | leaveThread =>
    obtain ⟨ho, hrest⟩ := h.pop hbase
    exact ⟨hrest _ rfl ho, rfl⟩
  | @enterRun K s e =>
    have hnone : none ≠ some b := (Option.some_ne_none b).symm
    exact ⟨h.push (o := .run s.running) hnone (Nat.le_refl _) hidle, rfl⟩
  | leaveRun =>
    obtain ⟨-, hrest⟩ := h.pop hbase
    exact ⟨hrest _ rfl hidle, rfl⟩

/-- A build that is aside is the same at every later moment, and still aside. -/
theorem later {p q : Instant} (h : Aside base b p) (hl : Later base p q) :
    Aside base b q ∧ q.2.build b = p.2.build b := by
  refine hl.preserves (P := fun q => Aside base b q ∧ q.2.build b = p.2.build b) ?_ ⟨h, rfl⟩
  intro q r hm _ hbase hq
  obtain ⟨hr, hbuild⟩ := hq.1.move hm hbase
  exact ⟨hr, hbuild.trans hq.2⟩

/-- The builds around a build that has just begun. -/
theorem entering {b : BuildId} {s : Session} (hb : b < s.builds.size) (K : List Opening) :
    Aside (.build s.building :: K) b (.build s.building :: K, s.entering) where
  known := by
    show b < (s.builds.push {}).size
    rw [Array.size_push]
    exact Nat.lt_succ_of_lt hb
  idle hc := Nat.ne_of_gt hb (Option.some.inj hc)
  calls := ⟨[], rfl, fun _ ho => absurd ho List.not_mem_nil⟩

/-- A build that has just ended. -/
theorem ended (h : Reachable K s) {fn : BuilderFunction} (hfn : fn.Programmed) :
    Aside [] s.builds.size (K, (buildForest fn s).2) where
  known := by
    have hgrown := (Later.invoke (.build s.building :: K) s.entering hfn s.builds.size).builds_size_le
    rw [buildForest_apply]
    refine Nat.lt_of_lt_of_le ?_ hgrown
    simp [Session.entering]
  idle hb := by
    rw [buildForest_apply] at hb
    exact Nat.lt_irrefl _ (h.fits.current _ hb)
  calls := by
    refine ⟨K, (List.append_nil K).symm, fun o ho hc => ?_⟩
    -- a group of the build can not have been open before the build was made
    have hnone : Opening.groups s.builds.size K = [] := by
      have hempty : s.build s.builds.size = {} := by simp [Session.build, Array.getD]
      have hcursor := (h.fits.builds s.builds.size).cursor
      rw [hempty] at hcursor
      exact List.map_eq_nil_iff.mp hcursor.symm
    cases o with
    | group b node outer =>
      obtain rfl := Option.some.inj hc
      have hmem : (node, outer) ∈ Opening.groups s.builds.size K :=
        List.mem_filterMap.mpr ⟨_, ho, by simp [Opening.groupIn]⟩
      rw [hnone] at hmem
      exact List.not_mem_nil hmem
    | build outer => exact Nat.lt_irrefl _ ((h.fits.saved _ ho).building _ hc)
    | thread outer e => exact Nat.lt_irrefl _ ((h.fits.saved _ ho).building _ hc)
    | run e => cases hc

end Aside

/-! ### Nested builds and ended builds -/

/-- Verbs find the same open group where the build and the current build are the same. -/
theorem openGroup_same {s t : Session} {b : BuildId} (hbuild : t.build b = s.build b)
    (hbuilding : t.building = s.building) (verb : String) :
    (openGroup b verb t).1 = (openGroup b verb s).1 := by
  by_cases hc : s.building = some b
  · have hopen : ∀ u : Session, u.building = some b → openGroup b verb u = requireCursor b verb u := by
      intro u hu
      have hrequire : requireBuilding b verb u = (.ok (), u) := by rw [requireBuilding_apply, if_pos hu]
      rw [openGroup, bind_ok hrequire]
    rw [hopen t (hbuilding.trans hc), hopen s hc]
    cases hn : (s.build b).cursor with
    | none => rw [requireCursor_none hn, requireCursor_none (hbuild ▸ hn)]
    | some n => rw [requireCursor_some hn, requireCursor_some (hbuild ▸ hn)]
  · rw [openGroup_refuses hc, openGroup_refuses (hbuilding ▸ hc)]

/-- A group that is opened becomes the same node of the same forest. -/
theorem opened_same {s t : Session} {b : BuildId} (hs : b < s.builds.size) (ht : b < t.builds.size)
    (hbuild : t.build b = s.build b) (name : Value) :
    t.nextNode b name = s.nextNode b name ∧ (t.opened b name).build b = (s.opened b name).build b := by
  have hopened : ∀ u : Session, b < u.builds.size → (u.opened b name).build b =
      { forest := ((u.build b).forest.add name (u.build b).cursor).1
        cursor := some (u.nextNode b name) } := by
    intro u hu
    show ({ u with builds := _ } : Session).build b = _
    rw [Session.build_modify, if_pos ⟨rfl, hu⟩]
  have hnext : t.nextNode b name = s.nextNode b name := by
    rw [Session.nextNode, Session.nextNode, hbuild]
  rw [hopened t ht, hopened s hs, hbuild, hnext]
  exact ⟨rfl, rfl⟩

/-- A nested build leaves every build around it as it was, and the same build current, however it
ends; the verbs of the builds around it find the same open group after it as before. Meanwhile,
at every moment, these builds are the same and their verbs are refused. -/
theorem nested_build_isolated {fn : BuilderFunction} (hfn : fn.Programmed) {s : Session} {b : BuildId}
    (hb : b < s.builds.size) (K : List Opening) :
    let t := (buildForest fn s).2
    t.build b = s.build b ∧ t.building = s.building ∧ s.heap.Kept t.heap ∧
    (∀ verb, (openGroup b verb t).1 = (openGroup b verb s).1) ∧
    (∀ name, t.nextNode b name = s.nextNode b name ∧ (t.opened b name).build b = (s.opened b name).build b) ∧
    ∀ K' u, Later (.build s.building :: K) (.build s.building :: K, s.entering) (K', u) →
      u.build b = s.build b ∧ u.Refuses b := by
  intro t
  have hwhile : ∀ K' u, Later (.build s.building :: K) (.build s.building :: K, s.entering) (K', u) →
      u.build b = s.build b ∧ u.Refuses b := by
    intro K' u hu
    obtain ⟨haside, hbuild⟩ := (Aside.entering hb K).later hu
    exact ⟨hbuild.trans (s.build_entering b), Session.refuses haside.idle⟩
  have hinvoked := Later.invoke (.build s.building :: K) s.entering hfn s.builds.size
  have ht : t = (Act.invoke fn s.builds.size s.entering).2.withBuilding s.building :=
    congrArg Prod.snd (buildForest_apply fn s)
  have hbuild : t.build b = s.build b := by
    rw [ht]
    exact (hwhile _ _ hinvoked).1
  have hbuilding : t.building = s.building := by
    rw [ht]
    rfl
  have hsize : b < t.builds.size := by
    rw [ht]
    exact ((Aside.entering hb K).later hinvoked).1.known
  have hkept : s.heap.Kept t.heap := (Later.build K s hfn).heap_kept
  exact ⟨hbuild, hbuilding, hkept, openGroup_same hbuild hbuilding, opened_same hb hsize hbuild, hwhile⟩

/-- A specification whose builder tries to add a spec through the builder kept as `"outer"`. -/
def Source.intruding : Source where
  steps := [.attempt [.it (some "outer") (.text "x") (.script none []) false],
    .describe none (.text "n") (.script none []) false]

/-- The group `"a"` is open in a build, whose builder is kept as `"outer"`. -/
def Session.outer : Session :=
  { Session.opened (Session.entering {}) 0 (.text "a") with builders := [("outer", 0)] }

theorem nested_build_isolated_intruding :
    let fn := builderIn none 0 .intruding
    let t := (buildForest fn .outer).2
    fn.Programmed ∧ 0 < Session.outer.builds.size ∧ t.build 0 = Session.outer.build 0 ∧
    t.building = some 0 ∧ (openGroup 0 "it" t).1 = .ok 0 ∧ (t.build 1).forest.size = 1 := by
  intro fn t
  have hfn : fn.Programmed := (BuilderFunction.Written.source 0 .intruding).programmed
  obtain ⟨hbuild, hbuilding, -, hopen, -⟩ :=
    nested_build_isolated hfn (s := .outer) (b := 0) (Nat.zero_lt_succ 0) [.group 0 0 none, .build none]
  exact ⟨hfn, Nat.zero_lt_succ 0, hbuild, hbuilding, hopen "it", by rfl⟩

/-- Once a build has ended, by returning or by raising, its forest is the same at every later
moment of the program, whatever runs then, and every verb of its builder is refused. -/
theorem ended_build_stays {K : List Opening} {s : Session} (h : Reachable K s) {fn : BuilderFunction}
    (hfn : fn.Programmed) {K' : List Opening} {u : Session}
    (hu : Later [] (K, (buildForest fn s).2) (K', u)) :
    let b := s.builds.size
    let t := (buildForest fn s).2
    ((buildForest fn s).1 = .ok b ∨ ∃ f, (buildForest fn s).1 = .error f) ∧
    u.build b = t.build b ∧ t.heap.Kept u.heap ∧ u.Refuses b ∧
    (∀ depth f p, Later [] (K, t) (K', (Step.run none (callWithin none depth) f p u).2)) ∧
    ∀ depth v args named, Later [] (K, t) (K', (callWithin none depth v args named u).2) := by
  intro b t
  obtain ⟨haside, hbuild⟩ := (Aside.ended h hfn).later hu
  refine ⟨?_, hbuild, hu.heap_kept, Session.refuses haside.idle, fun depth f p => ?_,
    fun depth v args named => ?_⟩
  · rw [buildForest_apply]
    cases (Act.invoke fn s.builds.size s.entering).1 with
    | ok _ => exact .inl rfl
    | error f => exact .inr ⟨f, rfl⟩
  · exact hu.trans ((Later.step K' u depth f p).weaken (List.nil_suffix ..))
  · exact hu.trans ((Later.call K' u depth v args named).weaken (List.nil_suffix ..))

/-- A specification with one spec, whose builder is kept as `"done"`. -/
def Source.kept : Source where
  steps := [.describe none (.text "a") (.script none [.it none (.text "b") (.script none []) false]) false]
  saveAs := some "done"

/-- It is built, and then its builder is used again. -/
theorem ended_build_stays_kept :
    let fn := builderIn none 0 .kept
    let t := (buildForest fn {}).2
    let u := (Step.run none call {} (.attempt [.it (some "done") (.text "c") (.script none []) false]) t).2
    Reachable [] {} ∧ fn.Programmed ∧ Later [] ([], t) ([], u) ∧
    u.build 0 = t.build 0 ∧ ((u.build 0).forest.specs 0).map (·.description) = ["b"] ∧ u.Refuses 0 := by
  intro fn t u
  have hstart : Reachable [] {} := .start (fun _ => rfl) nofun nofun
  have hfn : fn.Programmed := (BuilderFunction.Written.source 0 .kept).programmed
  have hu : Later [] ([], t) ([], u) := Later.step [] t callDepth {} _
  obtain ⟨-, hbuild, -, hrefuses, -⟩ := ended_build_stays hstart hfn hu
  exact ⟨hstart, hfn, hu, hbuild, by rfl, hrefuses⟩

end Exemplar
