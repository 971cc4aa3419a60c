import Exemplar.Proofs.Scripts
import Exemplar.Session.Basic

/-! Computations that go alike.

Two computations are `Alike` for a relation of sessions if, started in related sessions, they
end the same way and in related sessions again. With one session on both sides this is the
preservation of an invariant, with two it is a simulation, and the rules for putting
computations together are the same.

A computation is `Quiet` if engines and logs do not matter to it: it reads the memory and the
builds, and changes the memory only, to one whose store keeps every object. A quiet computation
that is `loose` does not read the scoping of verbs either. -/
namespace Exemplar

/-- How verbs are scoped: whether they are merged into modules, and the builders whose verbs were. -/
structure Scoping where
  globalMode : Bool
  modules : Namespaces

def Memory.scoping (m : Memory) : Scoping := ⟨m.globalMode, m.modules⟩

/-- No program can tell the memories apart. If `loose`, programs without helpers can not. -/
structure Memory.Matches (loose : Prop) (m m' : Memory) : Prop where
  heap : m.heap = m'.heap
  names : m.names = m'.names
  stored : m.stored = m'.stored
  handlers : m.handlers = m'.handlers
  builders : m.builders = m'.builders
  registry : m.registry = m'.registry
  clock : m.clock = m'.clock
  modules : m.modules.size = m'.modules.size
  scoping : ¬loose → m.scoping = m'.scoping
  helperless : loose → m.heap.Helperless

theorem Memory.Matches.logging {loose : Prop} {m m' : Memory} (h : m.Matches loose m')
    (log log' : List Entry) :
    Matches loose { m with log } { m' with log := log' } :=
  ⟨h.heap, h.names, h.stored, h.handlers, h.builders, h.registry, h.clock, h.modules, h.scoping,
    h.helperless⟩

namespace Session

/-- No program can tell the sessions apart except by their engines. -/
structure Matches (loose : Prop) (s s' : Session) : Prop where
  memory : s.toMemory.Matches loose s'.toMemory
  builds : s.builds = s'.builds
  building : s.building = s'.building

/-- The memory becomes `m`. What `m` logs follows what was logged before, and the scoping stays. -/
def recalling (s : Session) (m : Memory) : Session :=
  { s with toMemory :=
      { m with globalMode := s.globalMode, modules := s.modules, log := m.log ++ s.log } }

def configuring (s : Session) (change : Scoping → Scoping) : Session :=
  { s with globalMode := (change s.scoping).globalMode, modules := (change s.scoping).modules }

variable {loose : Prop} {s s' : Session}

theorem Matches.refl (s : Session) (h : loose → s.heap.Helperless) : s.Matches loose s :=
  ⟨⟨rfl, rfl, rfl, rfl, rfl, rfl, rfl, rfl, fun _ => rfl, h⟩, rfl, rfl⟩

theorem Matches.heap (h : s.Matches loose s') : s.heap = s'.heap := h.memory.heap

theorem Matches.recalling (h : s.Matches loose s') {m : Memory} (hm : loose → m.heap.Helperless) :
    (s.recalling m).Matches loose (s'.recalling m) :=
  ⟨⟨rfl, rfl, rfl, rfl, rfl, rfl, rfl, h.memory.modules, h.memory.scoping, hm⟩, h.builds, h.building⟩

/-- Memories that match are the same but for the scoping and the log. -/
theorem Matches.memory_eq (h : s.Matches loose s') : s'.toMemory =
    { s.toMemory with globalMode := s'.globalMode, modules := s'.modules, log := s'.log } := by
  obtain ⟨hheap, hnames, hstored, hhandlers, hbuilders, hregistry, hclock, -, -, -⟩ := h.memory
  rcases s with ⟨⟨⟩⟩
  rcases s' with ⟨⟨⟩⟩
  simp only at hheap hnames hstored hhandlers hbuilders hregistry hclock
  simp only [hheap, hnames, hstored, hhandlers, hbuilders, hregistry, hclock]

theorem recalling_recalling (s : Session) (m m' : Memory) :
    (s.recalling m).recalling m' = s.recalling { m' with log := m'.log ++ m.log } := by
  simp only [recalling, List.append_assoc]

end Session

namespace Act

variable {α β : Type}

/-! ### Rules for putting computations together -/

section Rules

variable {σ : Type}

theorem bind_ok {ε σ : Type} {a : ExceptT ε (StateM σ) α} {k : α → ExceptT ε (StateM σ) β} {s t : σ}
    {x : α} (h : a s = (.ok x, t)) : (a >>= k) s = k x t := by
  show ExceptT.bindCont k (a s).1 (a s).2 = _
  rw [h]
  rfl

theorem bind_error {ε σ : Type} {a : ExceptT ε (StateM σ) α} {k : α → ExceptT ε (StateM σ) β} {s t : σ}
    {f : ε} (h : a s = (.error f, t)) : (a >>= k) s = (.error f, t) := by
  show ExceptT.bindCont k (a s).1 (a s).2 = _
  rw [h]
  rfl

/-- What succeeds has succeeded in both parts. -/
theorem bind_eq_ok {ε σ : Type} {a : ExceptT ε (StateM σ) α} {k : α → ExceptT ε (StateM σ) β} {s t : σ}
    {r : β} (h : (a >>= k) s = (.ok r, t)) : ∃ x u, a s = (.ok x, u) ∧ k x u = (.ok r, t) := by
  rcases ha : a s with ⟨f | x, u⟩
  · rw [bind_error ha] at h
    cases h
  · rw [bind_ok ha] at h
    exact ⟨x, u, rfl, h⟩

/-- What is kept of every item is kept of the list. -/
theorem mapM_map_eq {ε σ γ : Type} {f : α → ExceptT ε (StateM σ) β} {g : β → γ} {g' : α → γ}
    (hf : ∀ {a s b t}, f a s = (.ok b, t) → g b = g' a) {as : List α} {bs : List β} {s t : σ}
    (h : as.mapM f s = (.ok bs, t)) : bs.map g = as.map g' := by
  induction as generalizing s bs with
  | nil =>
    rw [List.mapM_nil] at h
    cases h
    rfl
  | cons a rest ih =>
    rw [List.mapM_cons] at h
    obtain ⟨b, u, hb, h⟩ := bind_eq_ok h
    obtain ⟨bs, u', hbs, h⟩ := bind_eq_ok h
    cases h
    rw [List.map_cons, List.map_cons, hf hb, ih hbs]

/-- From these two states the computations end alike. -/
def AlikeAt (R : σ → σ → Prop) (a a' : ExceptT Failure (StateM σ) α) (s s' : σ) : Prop :=
  (a s).1 = (a' s').1 ∧ R (a s).2 (a' s').2

def Alike (R : σ → σ → Prop) (a a' : ExceptT Failure (StateM σ) α) : Prop :=
  ∀ s s', R s s' → AlikeAt R a a' s s'

variable {R Q : σ → σ → Prop} {a a' : ExceptT Failure (StateM σ) α}
  {k k' : α → ExceptT Failure (StateM σ) β} {s s' : σ}

theorem AlikeAt.get {k k' : σ → ExceptT Failure (StateM σ) β} (h : AlikeAt R (k s) (k' s') s s') :
    AlikeAt R ((MonadState.get : ExceptT Failure (StateM σ) σ) >>= k)
      ((MonadState.get : ExceptT Failure (StateM σ) σ) >>= k') s s' := h

theorem Alike.pure (x : α) : Alike (σ := σ) R (Pure.pure x) (Pure.pure x) := fun _ _ h => ⟨rfl, h⟩

theorem Alike.throw (f : Failure) : Alike R (throw f : ExceptT Failure (StateM σ) α) (throw f) :=
  fun _ _ h => ⟨rfl, h⟩

/-- Both fail and do nothing. -/
theorem Alike.refused {f : Failure} (h : ∀ s s', R s s' → a s = (.error f, s) ∧ a' s' = (.error f, s')) :
    Alike R a a' := fun s s' hR => by
  obtain ⟨ha, ha'⟩ := h s s' hR
  unfold AlikeAt
  rw [ha, ha']
  exact ⟨rfl, hR⟩

theorem Alike.ite {c : Prop} [Decidable c] {b b' : ExceptT Failure (StateM σ) α} (ht : c → Alike R a a')
    (hf : ¬c → Alike R b b') : Alike R (if c then a else b) (if c then a' else b') := by
  split
  · exact ht ‹c›
  · exact hf ‹¬c›

/-- The first computation may know more than is left of it in the end. -/
theorem AlikeAt.bind_into (ha : AlikeAt R a a' s s') (hQ : ∀ t t', R t t' → Q t t')
    (hk : ∀ x t t', R t t' → AlikeAt Q (k x) (k' x) t t') : AlikeAt Q (a >>= k) (a' >>= k') s s' := by
  obtain ⟨hr, hR⟩ := ha
  rcases h : a s with ⟨r, t⟩
  rcases h' : a' s' with ⟨r', t'⟩
  rw [h, h'] at hr hR
  subst hr
  cases r with
  | ok x =>
    unfold AlikeAt
    rw [bind_ok h, bind_ok h']
    exact hk x t t' hR
  | error f =>
    unfold AlikeAt
    rw [bind_error h, bind_error h']
    exact ⟨rfl, hQ t t' hR⟩

theorem AlikeAt.bind (ha : AlikeAt R a a' s s') (hk : ∀ x, Alike R (k x) (k' x)) :
    AlikeAt R (a >>= k) (a' >>= k') s s' := ha.bind_into (fun _ _ h => h) hk

theorem Alike.bind (ha : Alike R a a') (hk : ∀ x, Alike R (k x) (k' x)) :
    Alike R (a >>= k) (a' >>= k') := fun s s' h => (ha s s' h).bind hk

end Rules

variable {R : Session → Session → Prop}

theorem Alike.attempt {a a' : Act α} (ha : Alike R a a') : Alike R (attempt a) (attempt a') := by
  intro s s' h
  exact ⟨congrArg Except.ok (ha s s' h).1, (ha s s' h).2⟩

theorem ensuring_apply (a : Act α) (cleanup : Act Unit) (s : Session) :
    ensuring a cleanup s = match (cleanup (a s).2).1 with
      | .ok () => ((a s).1, (cleanup (a s).2).2)
      | .error f => (.error f, (cleanup (a s).2).2) := by
  simp only [ensuring]
  rcases a s with ⟨r, t⟩
  rcases h : cleanup t with ⟨_ | _, u⟩ <;> simp only [h]

/-- The cleanup may lead from one relation to another. -/
theorem AlikeAt.ensuring {Q : Session → Session → Prop} {a a' : Act α} {cleanup cleanup' : Act Unit}
    {s s' : Session} (ha : AlikeAt R a a' s s')
    (hc : ∀ t t', R t t' → AlikeAt Q cleanup cleanup' t t') :
    AlikeAt Q (ensuring a cleanup) (ensuring a' cleanup') s s' := by
  obtain ⟨hr, hR⟩ := ha
  obtain ⟨hc₁, hQ⟩ := hc _ _ hR
  unfold AlikeAt
  rw [ensuring_apply, ensuring_apply, ← hc₁, ← hr]
  split <;> exact ⟨rfl, hQ⟩

/-! ### Quiet computations -/

variable {loose : Prop}

/-- Only the memory moved on, alike on both sides. -/
def Still (loose : Prop) (s₀ s₀' s s' : Session) : Prop :=
  ∃ m : Memory, s₀.heap.Kept m.heap ∧ (loose → m.heap.Helperless) ∧
    s = s₀.recalling m ∧ s' = s₀'.recalling m

/-- Engines do not matter, and only the memory changes. -/
def Quiet (loose : Prop) (a : Act α) : Prop :=
  ∀ s₀ s₀', s₀.Matches loose s₀' → Alike (Still loose s₀ s₀') a a

/-- Where memories match, what changes the one to `m` changes the other to `m` too. -/
theorem Still.of_eq {s s' t t' : Session} (h : s.Matches loose s') {m : Memory} (hk : s.heap.Inert m.heap)
    (ht : t = s.recalling m) (ht' : t' = s'.recalling m) : Still loose s s' t t' :=
  ⟨m, hk.kept, fun hl => hk.helperless (h.memory.helperless hl), ht, ht'⟩

theorem Still.refl {s s' : Session} (h : s.Matches loose s') : Still loose s s' s s' := by
  refine .of_eq h (m := { s.toMemory with log := [] }) (.refl _) rfl ?_
  show s' = { s' with toMemory := { s.toMemory with
    globalMode := s'.globalMode, modules := s'.modules, log := [] ++ s'.log } }
  rw [List.nil_append, ← h.memory_eq]

theorem Still.trans {s₀ s₀' s s' t t' : Session} (a : Still loose s₀ s₀' s s') (b : Still loose s s' t t') :
    Still loose s₀ s₀' t t' := by
  obtain ⟨m, hm, -, rfl, rfl⟩ := a
  obtain ⟨m', hm', hl', rfl, rfl⟩ := b
  exact ⟨{ m' with log := m'.log ++ m.log }, hm.trans hm', hl', Session.recalling_recalling ..,
    Session.recalling_recalling ..⟩

theorem Still.matches {s₀ s₀' s s' : Session} (h : s₀.Matches loose s₀') (a : Still loose s₀ s₀' s s') :
    s.Matches loose s' := by
  obtain ⟨m, -, hl, rfl, rfl⟩ := a
  exact h.recalling hl

/-- It is enough to look at one run of each side. -/
theorem Quiet.of_at {a : Act α}
    (h : ∀ s s', s.Matches loose s' → AlikeAt (Still loose s s') a a s s') : Quiet loose a := by
  intro s₀ s₀' hm s s' hs
  obtain ⟨hr, hS⟩ := h s s' (hs.matches hm)
  exact ⟨hr, hs.trans hS⟩

theorem Quiet.at {a : Act α} (h : Quiet loose a) {s s' : Session} (hm : s.Matches loose s') :
    AlikeAt (Still loose s s') a a s s' := h s s' hm s s' (.refl hm)

/-- A relation that quiet changes of the memory keep is kept by quiet computations. -/
theorem Quiet.alike {R : Session → Session → Prop} {a : Act α} (h : Quiet loose a)
    (same : ∀ {s s'}, R s s' → s.Matches loose s')
    (memory : ∀ {s s'} {m : Memory}, R s s' → s.heap.Kept m.heap → (loose → m.heap.Helperless) →
      R (s.recalling m) (s'.recalling m)) : Alike R a a := by
  intro s s' hs
  obtain ⟨hr, m, hk, hl, ht, ht'⟩ := h.at (same hs)
  refine ⟨hr, ?_⟩
  rw [ht, ht']
  exact memory hs hk hl

/-- What a quiet computation leaves of a session. -/
theorem Quiet.still {a : Act α} (h : Quiet False a) {s t : Session} {r : Except Failure α}
    (ha : a s = (r, t)) : ∃ m : Memory, s.heap.Kept m.heap ∧ t = s.recalling m := by
  obtain ⟨-, m, hk, -, ht, -⟩ := h.at (.refl s False.elim)
  rw [ha] at ht
  exact ⟨m, hk, ht⟩

theorem Quiet.pure (x : α) : Quiet loose (Pure.pure x) := fun _ _ _ => .pure x

theorem Quiet.throw (f : Failure) : Quiet loose (throw f : Act α) := fun _ _ _ => .throw f

theorem Quiet.fault (f : Fault) : Quiet loose (fault f : Act α) := .throw _

theorem Quiet.bind {a : Act α} {k : α → Act β} (ha : Quiet loose a) (hk : ∀ x, Quiet loose (k x)) :
    Quiet loose (a >>= k) := fun s s' hm => (ha s s' hm).bind fun x => hk x s s' hm

/-- What is read of the session is the same for sessions that match. -/
theorem Quiet.get {k : Session → Act β} (hk : ∀ s, Quiet loose (k s))
    (he : ∀ s s', s.Matches loose s' → k s = k s') : Quiet loose ((get : Act Session) >>= k) := by
  refine Quiet.of_at fun s s' hm => ?_
  show AlikeAt (Still loose s s') (k s) (k s') s s'
  rw [← he s s' hm]
  exact (hk s).at hm

/-- A change of the memory that the scoping and the log do not matter to. -/
theorem Quiet.modify (change : Memory → Memory) (hk : ∀ m : Memory, m.heap.Inert (change m).heap)
    (hc : ∀ (m : Memory) (x : Scoping) log,
      change { m with globalMode := x.globalMode, modules := x.modules, log } =
        { change m with globalMode := x.globalMode, modules := x.modules, log } := by intros; rfl) :
    Quiet loose (modify fun s => { s with toMemory := change s.toMemory } : Act PUnit) := by
  refine Quiet.of_at fun s s' hm => ⟨rfl, .of_eq hm (m := { change s.toMemory with log := [] }) (hk _) ?_ ?_⟩
  · exact congrArg (fun m => { s with toMemory := m }) (hc s.toMemory s.scoping s.log)
  · have hs' : change s'.toMemory = _ :=
      (congrArg change hm.memory_eq).trans (hc s.toMemory s'.scoping s'.log)
    exact congrArg (fun m => { s' with toMemory := m }) hs'

theorem Quiet.ofExcept (e : Except Failure α) : Quiet loose (ofExcept e) := by
  cases e with
  | ok x => exact .pure x
  | error f => exact .throw f

theorem Quiet.reading (f : Heap → Except Failure α) : Quiet loose (reading f) :=
  .get (fun s => .ofExcept _) fun s s' hm => by rw [hm.heap]

/-- Adding to the store, with scripts that have no helpers. -/
theorem making_at {f : Heap → Heap × α} {s s' : Session} (hm : s.Matches loose s')
    (hk : s.heap.Kept (f s.heap).1) (hl : loose → (f s.heap).1.Helperless) :
    AlikeAt (Still loose s s') (making f) (making f) s s' := by
  show (Except.ok (f s.heap).2 : Except Failure α) = .ok (f s'.heap).2 ∧
    Still loose s s' { s with heap := (f s.heap).1 } { s' with heap := (f s'.heap).1 }
  rw [← hm.heap]
  refine ⟨rfl, { s.toMemory with heap := (f s.heap).1, log := [] }, hk, hl, rfl, ?_⟩
  exact congrArg (fun m => { s' with toMemory := { m with heap := (f s.heap).1 } }) hm.memory_eq

theorem Quiet.making {f : Heap → Heap × α} (hk : ∀ h : Heap, h.Inert (f h).1) : Quiet loose (making f) :=
  .of_at fun _ _ hm => making_at hm (hk _).kept fun hl => (hk _).helperless (hm.memory.helperless hl)

theorem Quiet.alloc {c : Cell} (hc : c.script? = none) : Quiet loose (alloc c) :=
  .making fun h => h.inert_alloc hc

theorem Quiet.alloc_script (arity : Option Nat) {steps : List Step} (home : Option BuildId)
    (hs : loose → Step.AllHelperless steps) :
    Quiet loose (Act.alloc (.procedure (.script arity steps home))) :=
  .of_at fun s _ hm => making_at hm (s.heap.kept_alloc _) fun hl =>
    (hm.memory.helperless hl).alloc fun _ he => Option.some.inj he ▸ hs hl

theorem Quiet.record (e : Event) : Quiet loose (record e) := by
  refine Quiet.of_at fun s s' hm =>
    ⟨rfl, .of_eq hm (m := { s.toMemory with log := [⟨s.heap, e⟩] }) (.refl _) rfl ?_⟩
  have hs' : ({ s' with log := ⟨s'.heap, e⟩ :: s'.log } : Session) =
      { s' with log := ⟨s.heap, e⟩ :: s'.log } := by rw [hm.heap]
  exact hs'.trans
    (congrArg (fun m => { s' with toMemory := { m with log := ⟨s.heap, e⟩ :: s'.log } }) hm.memory_eq)

theorem Quiet.outlines (f : Forest) : Quiet loose (outlines f) :=
  .making fun h => Outline.toValues_inert h f.outlines

theorem Quiet.build (b : BuildId) : Quiet loose (build b) :=
  .get (fun _ => .pure _) fun s s' hm => by rw [hm.builds]

/-! ### Objects that are filled after they were made -/

/-- Still, and the object `r` has the shape of `c`. -/
def Holding (loose : Prop) (s₀ s₀' : Session) (r : Ref) (c : Cell) (s s' : Session) : Prop :=
  Still loose s₀ s₀' s s' ∧ ∃ d, s.heap.get? r = some d ∧ d.shape = c.shape

theorem Quiet.holding {a : Act α} (ha : Quiet loose a) {s₀ s₀' : Session} (hm : s₀.Matches loose s₀')
    (r : Ref) (c : Cell) : Alike (Holding loose s₀ s₀' r c) a a := by
  intro s s' ⟨hs, d, hd, hc⟩
  obtain ⟨hr, hS⟩ := ha.at (hs.matches hm)
  refine ⟨hr, hs.trans hS, ?_⟩
  obtain ⟨m, hk, -, he, -⟩ := hS
  obtain ⟨d', hd', hs'⟩ := hk r d hd
  exact ⟨d', by rw [he]; exact hd', hs'.trans hc⟩

end Act

end Exemplar
