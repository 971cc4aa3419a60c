import Exemplar.Value.Plain
import Exemplar.Proofs.Elements
import Exemplar.Proofs.Surveyed

/-! When a copy of a value can be written.

What an error shows of a value is a copy of it in new objects: mappings with the same keys, lists, and what is
left as it is. Every acyclic value has such a copy (`Value.Acyclic.plainIn_copies`), and it can be written
exactly if everything that is left has a form and every key can be written (`Value.Acyclic.plain_dump_iff`).
Texts and numbers of classes of their own are left and have no form; keys are left whatever they are. -/
namespace Exemplar

namespace Value

variable {h k l : Heap} {v w x : Value}

/-! ### What is shown of a value -/

/-- Values that are left as they are. -/
def isKept (h : Heap) (v : Value) : Bool :=
  match v, h.cell? v with
  | .null, _ | .bool _, _ | .int _, _ | .text _, _ | .bytes _, _ => true
  | _, some (.ownText _) | _, some (.ownInt _) | _, some (.float _) => true
  | _, _ => false

/-- The values that are copied in turn. -/
def copied (h : Heap) (v : Value) : List Value :=
  match h.cell? v with
  | some (.list _ items) | some (.tuple _ items) => items
  | some (.mapping _ entries) => entries.map (·.2)
  | _ => []

/-- The keys, which are left as they are. -/
def keptKeys (h : Heap) (v : Value) : List Value :=
  match h.cell? v with
  | some (.mapping _ entries) => entries.map (·.1)
  | _ => []

/-- A document has a form for the value: it has none for a text or a number of a class of its own, and none
for a number with too many digits. -/
structure HasForm (h : Heap) (v : Value) : Prop where
  text : ∀ s, h.cell? v ≠ some (.ownText s)
  int : ∀ i, h.cell? v ≠ some (.ownInt i)
  digits : ∀ i, v = .int i → i.natAbs.repr.length ≤ digitLimit

/-- `x` is shown in `v`, at any depth. -/
def ShownIn (h : Heap) : Value → Value → Prop := Relation.ReflTransGen fun x v => x ∈ v.copied h

/-- Everything that is shown in the value has a form if it is left as it is, and keys that can be written. -/
def Displays (h : Heap) (v : Value) : Prop :=
  ∀ x, ShownIn h x v → x.HasForm h ∧ ∀ key ∈ x.keptKeys h, Yaml.Shows h key

/-- A value that is not inside itself, in a store that has all objects inside it. -/
structure Acyclic (h : Heap) (v : Value) : Prop where
  acc : Acc (Within h) v
  known : ∀ x, Relation.ReflTransGen (Within h) x v → h.Knows x

theorem displays_iff : Displays h v ↔ (v.HasForm h ∧ ∀ key ∈ v.keptKeys h, Yaml.Shows h key) ∧
    ∀ x ∈ v.copied h, Displays h x := forall_reflTransGen_iff

theorem Acyclic.within (hv : v.Acyclic h) (hx : Within h x v) : x.Acyclic h :=
  ⟨hv.acc.inv hx, fun y hy => hv.known y (hy.tail hx)⟩

theorem Acyclic.of_within (hv : h.Knows v) (hall : ∀ x, Within h x v → x.Acyclic h) : v.Acyclic h where
  acc := .intro v fun x hx => (hall x hx).acc
  known := forall_reflTransGen_iff.mpr ⟨hv, fun x hx => (hall x hx).known⟩

theorem within_of_copied (hx : x ∈ v.copied h) : Within h x v := by
  unfold copied at hx
  split at hx
  · rename_i hc
    rwa [Within, face_of_cell hc]
  · rename_i hc
    rwa [Within, face_of_cell hc]
  · rename_i hc
    obtain ⟨e, he, rfl⟩ := List.mem_map.mp hx
    rw [Within, face_of_cell hc]
    exact Face.value_mem_contents he
  · cases hx

theorem within_of_key (hx : x ∈ v.keptKeys h) : Within h x v := by
  unfold keptKeys at hx
  split at hx
  · rename_i hc
    obtain ⟨e, he, rfl⟩ := List.mem_map.mp hx
    rw [Within, face_of_cell hc]
    exact Face.key_mem_contents he
  · cases hx

/-! ### Values that hold others -/

theorem knows_of_cell {c : Cell} (hc : h.cell? v = some c) : h.Knows v := by
  rintro r rfl
  exact Heap.get?_lt hc

theorem Acyclic.leaf (hv : h.Knows v) (hface : (v.face h).isAtom = true) : v.Acyclic h := by
  refine .of_within hv fun x hx => ?_
  rw [Within, Face.contents_of_isAtom hface] at hx
  cases hx

theorem Acyclic.of_text {text : String} (hv : v.asText? h = some text) : v.Acyclic h := by
  refine .leaf ?_ ?_
  · cases hc : h.cell? v with
    | some c => exact knows_of_cell hc
    | none => cases v <;> simp_all [asText?, Heap.Knows]
  · rw [asText?_eq] at hv
    cases hface : v.face h <;> simp_all [Face.isAtom]

theorem Acyclic.text (h : Heap) (text : String) : (Value.text text).Acyclic h := .leaf nofun rfl

theorem Acyclic.list {own : Bool} {items : List Value} (hc : h.cell? v = some (.list own items))
    (hitems : ∀ x ∈ items, x.Acyclic h) : v.Acyclic h := by
  refine .of_within (knows_of_cell hc) fun x hx => hitems x ?_
  rwa [Within, face_of_cell hc] at hx

theorem Acyclic.mapping {ordered : Bool} {entries : List (Value × Value)}
    (hc : h.cell? v = some (.mapping ordered entries)) (hentries : ∀ e ∈ entries, e.1.Acyclic h ∧ e.2.Acyclic h) :
    v.Acyclic h := by
  refine .of_within (knows_of_cell hc) fun x hx => ?_
  rw [Within, face_of_cell hc] at hx
  obtain ⟨e, he, rfl | rfl⟩ := Face.mem_contents_mapping.mp hx
  · exact (hentries e he).1
  · exact (hentries e he).2

theorem HasForm.of_cell {c : Cell} (hc : h.cell? v = some c) (htext : ∀ s, c ≠ .ownText s)
    (hint : ∀ i, c ≠ .ownInt i) : v.HasForm h where
  text s hs := htext s (Option.some.inj (hc.symm.trans hs))
  int i hi := hint i (Option.some.inj (hc.symm.trans hi))
  digits i hi := by
    rw [hi] at hc
    cases hc

theorem HasForm.of_atom (hc : h.cell? v = none) (hint : ∀ i, v ≠ .int i) : v.HasForm h where
  text _ hs := Option.some_ne_none _ (hs.symm.trans hc)
  int _ hi := Option.some_ne_none _ (hi.symm.trans hc)
  digits i hi := absurd hi (hint i)

theorem HasForm.of_int {i : Int} (hi : i.natAbs.repr.length ≤ digitLimit) : (Value.int i).HasForm h where
  text s hs := by cases hs
  int j hj := by cases hj
  digits j hj := by
    cases hj
    exact hi

theorem hasForm_text (h : Heap) (text : String) : (Value.text text).HasForm h :=
  .of_atom rfl fun i hi => by cases hi

theorem displays_list {own : Bool} {items : List Value} (hc : h.cell? v = some (.list own items)) :
    v.Displays h ↔ ∀ x ∈ items, x.Displays h := by
  have hcopied : v.copied h = items := by rw [copied, hc]
  have hkeys : v.keptKeys h = [] := by rw [keptKeys, hc]
  rw [displays_iff, hcopied, hkeys]
  simp [HasForm.of_cell hc nofun nofun]

theorem displays_mapping {ordered : Bool} {entries : List (Value × Value)}
    (hc : h.cell? v = some (.mapping ordered entries)) :
    v.Displays h ↔ (∀ e ∈ entries, Yaml.Shows h e.1) ∧ ∀ e ∈ entries, e.2.Displays h := by
  have hcopied : v.copied h = entries.map (·.2) := by rw [copied, hc]
  have hkeys : v.keptKeys h = entries.map (·.1) := by rw [keptKeys, hc]
  rw [displays_iff, hcopied, hkeys, List.forall_mem_map, List.forall_mem_map]
  exact and_congr_left fun _ => and_iff_right (HasForm.of_cell hc nofun nofun)

/-- A text is displayed unless it is of a class of its own. -/
theorem displays_of_text {text : String} (hv : v.asText? h = some text) : v.Displays h ↔ v.HasForm h := by
  have hbare : v.copied h = [] ∧ v.keptKeys h = [] := by
    unfold copied keptKeys
    cases hc : h.cell? v with
    | none => exact ⟨rfl, rfl⟩
    | some c =>
      obtain ⟨r, rfl⟩ := eq_object_of_cell hc
      cases c <;> simp_all [asText?]
  rw [displays_iff, hbare.1, hbare.2]
  simp

/-! ### What is left as it is -/

/-- Whether something is written depends on its cell alone. -/
theorem scalar?_of_cell (hcell : k.cell? v = h.cell? v) : Yaml.scalar? k v = Yaml.scalar? h v := by
  unfold Yaml.scalar?
  rw [hcell]

theorem Acyclic.inside_iff (hv : v.Acyclic h) (e : h.Extends k) : Yaml.Inside k x v ↔ Yaml.Inside h x v := by
  rw [Yaml.inside_iff, Yaml.inside_iff, e.cell?_eq (hv.known v .refl)]

theorem Acyclic.showable_iff (hv : v.Acyclic h) (e : h.Extends k) : Yaml.Showable k v ↔ Yaml.Showable h v := by
  have hcell := e.cell?_eq (hv.known v .refl)
  unfold Yaml.Showable
  rw [Yaml.isSome_parts?, Yaml.isSome_parts?, scalar?_of_cell hcell, hcell]

/-- A key is written as before when there are more objects. -/
theorem Acyclic.shows_later (hv : v.Acyclic h) (e : h.Extends k) :
    Acc (Yaml.Inside k) v ∧ (Yaml.Shows k v ↔ Yaml.Shows h v) := by
  obtain ⟨hacc, hknown⟩ := hv
  induction hacc with
  | intro v hacc ih =>
    have hv : v.Acyclic h := ⟨.intro v hacc, hknown⟩
    have hrest : ∀ x, Yaml.Inside h x v → Acc (Yaml.Inside k) x ∧ (Yaml.Shows k x ↔ Yaml.Shows h x) :=
      fun x hx => ih x hx.within (hv.within hx.within).known
    refine ⟨.intro v fun x hx => (hrest x ((hv.inside_iff e).mp hx)).1, ?_⟩
    rw [Yaml.shows_iff, Yaml.shows_iff, hv.showable_iff e]
    refine and_congr_right fun _ => forall_congr' fun x => ?_
    rw [hv.inside_iff e]
    exact imp_congr_right fun hx => (hrest x hx).2

/-- Values that are left as they are hold nothing that is copied. -/
theorem of_isKept (hv : v.isKept h = true) :
    v.copied h = [] ∧ v.keptKeys h = [] ∧ (∀ c, h.cell? v = some c → c.isBuiltin = false) ∧
      (v.HasForm h ↔ ∃ s, Yaml.scalar? h v = .ok (some s)) := by
  cases v with
  | object r =>
    cases hc : h.cell? (.object r) with
    | none => simp [isKept, hc] at hv
    | some c =>
      have hform : (Value.object r).HasForm h ↔ (∀ s, c ≠ .ownText s) ∧ ∀ i, c ≠ .ownInt i := by
        refine ⟨fun hv => ⟨fun s hs => ?_, fun i hi => ?_⟩, fun hother => .of_cell hc hother.1 hother.2⟩
        · exact hv.text s (hc.trans (congrArg some hs))
        · exact hv.int i (hc.trans (congrArg some hi))
      rw [hform]
      cases c <;> simp [isKept, hc] at hv <;> simp [copied, keptKeys, Yaml.scalar?, hc, Cell.isBuiltin]
  | int i =>
    refine ⟨rfl, rfl, fun c hc => (by cases hc), ?_⟩
    have hform : (Value.int i).HasForm h ↔ i.natAbs.repr.length ≤ digitLimit :=
      ⟨fun hi => hi.digits i rfl, HasForm.of_int⟩
    rw [hform]
    by_cases hlong : i.natAbs.repr.length ≤ digitLimit
    · simp [Yaml.scalar?, intText, hlong]
    · simp [Yaml.scalar?, intText, hlong]
  | null | bool | text | bytes =>
    exact ⟨rfl, rfl, fun c hc => (by cases hc), fun _ => ⟨_, rfl⟩, fun _ => .of_atom rfl fun i hi => by cases hi⟩
  | _ => cases hv

theorem hasForm_of_not_kept (hv : v.isKept h = false) : v.HasForm h where
  text s hc := by
    obtain ⟨r, rfl⟩ := eq_object_of_cell hc
    simp [isKept, hc] at hv
  int i hc := by
    obtain ⟨r, rfl⟩ := eq_object_of_cell hc
    simp [isKept, hc] at hv
  digits i hi := by
    rw [hi] at hv
    cases hv

/-! ### Copies -/

/-- `w` is what is shown of `v`, also when there are more objects. -/
def CopiedAs (h k : Heap) (v w : Value) : Prop :=
  ∀ l, k.Extends l → Acc (Yaml.Inside l) w ∧ (Yaml.Shows l w ↔ v.Displays h)

theorem CopiedAs.later (hw : CopiedAs h k v w) (e : k.Extends l) : CopiedAs h l v w := fun m e' =>
  hw m (e.trans e')

/-- What holds the same keys as `v`, and the values `ws`. -/
structure Refilled (h : Heap) (v : Value) (ws : List Value) (c : Cell) : Prop where
  builtin : c.isBuiltin = true
  contents : ∀ x, x ∈ c.face.contents ↔ x ∈ v.keptKeys h ∨ x ∈ ws

/-- One level of a value is left as it is, copied with what is inside, or replaced. -/
theorem plainIn_cases (n : Nat) (hcell : k.cell? v = h.cell? v) :
    (v.isKept h = true ∧ plainIn (n + 1) k v = .ok (k, v)) ∨
    v.isKept h = false ∧ (
      (∃ refill : List Value → Cell,
        (∀ ws, ws.length = (v.copied h).length → v.Refilled h ws (refill ws)) ∧
        plainIn (n + 1) k v = mapHeap (plainIn n) k (v.copied h) >>= fun p => pure (p.1.alloc (refill p.2))) ∨
      (v.copied h = [] ∧ v.keptKeys h = [] ∧ plainIn (n + 1) k v = .ok (k, .text placeholder))) := by
  have hlist : ∀ ws, v.keptKeys h = [] → v.Refilled h ws (.list false ws) := fun ws hkeys =>
    ⟨rfl, by simp [Cell.face, Face.contents, hkeys]⟩
  rw [plainIn.eq_def]
  cases hc : h.cell? v with
  | none => cases v <;> simp [isKept, copied, keptKeys, hcell, hc]
  | some c =>
    obtain ⟨r, rfl⟩ := eq_object_of_cell hc
    cases c with
    | list own items =>
      refine .inr ⟨by simp [isKept, hc], .inl ⟨_, fun ws _ => hlist ws ?_, ?_⟩⟩
      · simp [keptKeys, hc]
      · simp [copied, hcell, hc]
    | tuple own items =>
      refine .inr ⟨by simp [isKept, hc], .inl ⟨_, fun ws _ => hlist ws ?_, ?_⟩⟩
      · simp [keptKeys, hc]
      · simp [copied, hcell, hc]
    | mapping ordered entries =>
      refine .inr ⟨by simp [isKept, hc],
        .inl ⟨fun ws => .mapping false ((entries.map (·.1)).zip ws), fun ws hlength => ⟨rfl, fun x => ?_⟩, ?_⟩⟩
      · have hlength : (entries.map (·.1)).length = ws.length := by simpa [copied, hc] using hlength.symm
        have hkeys : ((entries.map (·.1)).zip ws).map Prod.fst = (object r).keptKeys h := by
          rw [List.map_fst_zip hlength.le, keptKeys, hc]
        have hvalues : ((entries.map (·.1)).zip ws).map Prod.snd = ws := List.map_snd_zip hlength.ge
        rw [Cell.face, Face.mem_contents_mapping_iff, hkeys, hvalues]
      · simp [copied, hcell, hc]
    | _ => simp [isKept, copied, keptKeys, hcell, hc]

theorem copiedAs_kept (hv : v.isKept h = true) (hknown : h.Knows v) (e : h.Extends k) : CopiedAs h k v v := by
  intro l e'
  obtain ⟨hcopied, hkeys, hbare, hform⟩ := of_isKept hv
  have hcell := (e.trans e').cell?_eq hknown
  have hinside : ∀ x, ¬ Yaml.Inside l x v := fun x hx => by
    obtain ⟨c, hc, hbuiltin, -⟩ := Yaml.inside_iff.mp hx
    rw [hbare c (hcell ▸ hc)] at hbuiltin
    cases hbuiltin
  have hparts : ¬ (Yaml.parts? l v).isSome := fun hsome => by
    obtain ⟨c, hc, hbuiltin⟩ := Yaml.isSome_parts?.mp hsome
    rw [hbare c (hcell ▸ hc)] at hbuiltin
    cases hbuiltin
  refine ⟨.intro v fun x hx => (hinside x hx).elim, ?_⟩
  rw [Yaml.shows_iff, displays_iff, hform, hcopied, hkeys, Yaml.Showable, scalar?_of_cell hcell]
  simp [hinside, hparts]

theorem copiedAs_other (hv : v.isKept h = false) (hcopied : v.copied h = []) (hkeys : v.keptKeys h = []) :
    CopiedAs h k v (.text placeholder) := by
  intro l _
  refine ⟨.intro _ nofun, ?_⟩
  rw [displays_iff, hcopied, hkeys]
  simp [Yaml.shows_text, hasForm_of_not_kept hv]

theorem copies_show {vs ws : List Value} (hws : List.Forall₂ (CopiedAs h k) vs ws) (e : k.Extends l) :
    (∀ w ∈ ws, Acc (Yaml.Inside l) w) ∧ ((∀ w ∈ ws, Yaml.Shows l w) ↔ ∀ x ∈ vs, x.Displays h) := by
  induction hws with
  | nil => simp
  | cons hw _ ih =>
    obtain ⟨hacc, hshows⟩ := hw l e
    simp only [List.forall_mem_cons]
    exact ⟨⟨hacc, ih.1⟩, and_congr hshows ih.2⟩

/-- A container is copied when its contents are. -/
theorem Acyclic.copiedAs_container (hv : v.Acyclic h) (hkept : v.isKept h = false) (e : h.Extends k)
    {ws : List Value} (hws : List.Forall₂ (CopiedAs h k) (v.copied h) ws) {c : Cell} (hc : v.Refilled h ws c) :
    CopiedAs h (k.alloc c).1 v (.object k.size) := by
  intro l e'
  have hcell : l.cell? (.object k.size) = some c := e'.cell?_some (k.get?_alloc_self c)
  have hinside : ∀ x, Yaml.Inside l x (.object k.size) ↔ x ∈ v.keptKeys h ∨ x ∈ ws := fun x => by
    rw [Yaml.inside_iff, ← hc.contents]
    simp [hcell, hc.builtin]
  have hlater : k.Extends l := (k.extends_alloc c).trans e'
  have hkeys : ∀ key ∈ v.keptKeys h, Acc (Yaml.Inside l) key ∧ (Yaml.Shows l key ↔ Yaml.Shows h key) :=
    fun key hkey => (hv.within (within_of_key hkey)).shows_later (e.trans hlater)
  obtain ⟨hacc, hcopies⟩ := copies_show hws hlater
  refine ⟨.intro _ fun x hx => ?_, ?_⟩
  · rcases (hinside x).mp hx with hkey | hw
    · exact (hkeys x hkey).1
    · exact hacc x hw
  · have hshowable : Yaml.Showable l (.object k.size) := .inr (Yaml.isSome_parts?.mpr ⟨c, hcell, hc.builtin⟩)
    rw [Yaml.shows_iff, displays_iff, ← hcopies]
    simp only [hinside, hshowable, hasForm_of_not_kept hkept, true_and, or_imp, forall_and]
    exact and_congr_left fun _ => forall₂_congr fun key hkey => (hkeys key hkey).2

theorem mapHeap_copies {n : Nat} {vs : List Value} (hvs : ∀ v ∈ vs, ∀ k, h.Extends k →
      ∃ k' w, plainIn n k v = .ok (k', w) ∧ k.Extends k' ∧ CopiedAs h k' v w) (e : h.Extends k) :
    ∃ k' ws, mapHeap (plainIn n) k vs = .ok (k', ws) ∧ k.Extends k' ∧ List.Forall₂ (CopiedAs h k') vs ws := by
  induction vs generalizing k with
  | nil => exact ⟨k, [], rfl, .refl k, .nil⟩
  | cons v rest ih =>
    obtain ⟨hv, hrest⟩ := List.forall_mem_cons.mp hvs
    obtain ⟨k₁, w, hw, e₁, hcopy⟩ := hv k e
    obtain ⟨k₂, ws, hws, e₂, hcopies⟩ := ih hrest (e.trans e₁)
    refine ⟨k₂, w :: ws, ?_, e₁.trans e₂, .cons (hcopy.later e₂) hcopies⟩
    rw [mapHeap, hw]
    show (mapHeap (plainIn n) k₁ rest >>= fun p => pure (p.1, w :: p.2)) = _
    rw [hws]
    rfl

/-- Every acyclic value is copied. -/
theorem Acyclic.plainIn_copies {n : Nat} (hn : v.Nests (Within h) n) (hv : v.Acyclic h) (e : h.Extends k) :
    ∃ k' w, plainIn n k v = .ok (k', w) ∧ k.Extends k' ∧ CopiedAs h k' v w := by
  induction n generalizing v k with
  | zero => exact hn.elim
  | succ n ih =>
    have hknown := hv.known v .refl
    have hcell := e.cell?_eq hknown
    have hinner : ∀ x ∈ v.copied h, ∀ k, h.Extends k →
        ∃ k' w, plainIn n k x = .ok (k', w) ∧ k.Extends k' ∧ CopiedAs h k' x w := fun x hx k e =>
      ih (hn x (within_of_copied hx)) (hv.within (within_of_copied hx)) e
    rcases plainIn_cases n hcell with
      ⟨hkept, hplain⟩ | ⟨hkept, ⟨refill, hrefill, hplain⟩ | ⟨hcopied, hkeys, hplain⟩⟩
    · exact ⟨k, v, hplain, .refl k, copiedAs_kept hkept hknown e⟩
    · obtain ⟨k₁, ws, hws, e₁, hcopies⟩ := mapHeap_copies hinner e
      rw [hplain, hws]
      exact ⟨_, _, rfl, e₁.trans (k₁.extends_alloc _),
        hv.copiedAs_container hkept (e.trans e₁) hcopies (hrefill ws hcopies.length_eq.symm)⟩
    · exact ⟨k, _, hplain, .refl k, copiedAs_other hkept hcopied hkeys⟩

theorem Acyclic.plain_dump_iff (hv : v.Acyclic h) :
    ∃ k w, v.plain h = .ok (k, w) ∧ ((∃ text, Yaml.dump k w = .ok text) ↔ v.Displays h) := by
  obtain ⟨k, w, hplain, -, hcopy⟩ := hv.plainIn_copies ((encloses_within h).nests hv.acc) (.refl h)
  obtain ⟨hacc, hshows⟩ := hcopy k (.refl k)
  exact ⟨k, w, hplain, (Yaml.dump_iff hacc).trans hshows⟩

end Value

end Exemplar
