import Exemplar.CommandLine.Execution
import Exemplar.Proofs.Handlers
import Mathlib.Data.List.Nodup
import Mathlib.Data.String.Basic

/-! The listing of a registry.

A line of the listing is about one definition and shows all its names, whatever stands under them now
(`shownNames_line`). A definition has a line while it stands under its own name, so a name that was taken
over is still shown on the line of its former definition, and the names that are left of a definition
whose own name was taken over are shown nowhere. The listing is right exactly while the registry is whole:
every definition in it stands under all its names, and lists none of them twice (`verbs_listed`). -/
namespace Exemplar

/-! ### Names on a line -/

/-- Whether names of verbs may have the character. -/
def Schema.isNameChar (c : Char) : Bool := isLetter c || isDigit c || c = '_'

/-- The names in a text, apart at all other characters. -/
def namesIn (chars : List Char) : List String :=
  ((chars.splitOnP fun c => !Schema.isNameChar c).filter (· ≠ [])).map String.ofList

/-- The names that a line of the listing shows: those before its title. -/
def shownNames (line : String) : List String := namesIn (line.toList.takeWhile (· ≠ ':'))

theorem Schema.isName_chars {name : String} (h : isName name = true) :
    name.toList ≠ [] ∧ ∀ c ∈ name.toList, isNameChar c = true := by
  unfold isName at h
  cases hchars : name.toList with
  | nil => simp [hchars] at h
  | cons c cs =>
    simp only [hchars, Bool.and_eq_true, List.all_eq_true] at h
    refine ⟨nofun, fun d hd => ?_⟩
    rcases List.mem_cons.mp hd with rfl | hd
    · simp [isNameChar, h.1]
    · exact h.2 d hd

theorem namesIn_nil : namesIn [] = [] := rfl

/-- Names are joined by characters that no name has. -/
theorem mem_intercalate {names : List String} (h : ∀ name ∈ names, Schema.isName name = true) :
    ∀ c ∈ (", ".intercalate names).toList, Schema.isNameChar c = true ∨ c = ',' ∨ c = ' ' := by
  induction names with
  | nil => nofun
  | cons name rest ih =>
    obtain ⟨hname, hrest⟩ := List.forall_mem_cons.mp h
    intro c hc
    cases rest with
    | nil =>
      rw [String.intercalate_singleton] at hc
      exact .inl ((Schema.isName_chars hname).2 c hc)
    | cons next rest =>
      rw [String.intercalate_cons_cons, String.toList_append, String.toList_append, List.mem_append,
        List.mem_append] at hc
      rcases hc with (hc | hc) | hc
      · exact .inl ((Schema.isName_chars hname).2 c hc)
      · exact .inr (by simpa using hc)
      · exact ih hrest c hc

/-- All about names in a text follows from this: it may be split at any other character. -/
theorem namesIn_append_cons (before after : List Char) {c : Char} (hc : Schema.isNameChar c = false) :
    namesIn (before ++ c :: after) = namesIn before ++ namesIn after := by
  unfold namesIn
  rw [List.splitOnP_append_cons before after (by simpa using hc), List.filter_append, List.map_append]

theorem namesIn_cons (after : List Char) {c : Char} (hc : Schema.isNameChar c = false) :
    namesIn (c :: after) = namesIn after := namesIn_append_cons [] after hc

theorem namesIn_name {name : String} (h : Schema.isName name = true) : namesIn name.toList = [name] := by
  obtain ⟨hne, hchars⟩ := Schema.isName_chars h
  rw [namesIn, List.splitOnP_eq_singleton fun c hc => by simp [hchars c hc]]
  simp [hne]

theorem namesIn_intercalate {names : List String} (h : ∀ name ∈ names, Schema.isName name = true) :
    namesIn (", ".intercalate names).toList = names := by
  induction names with
  | nil => rfl
  | cons name rest ih =>
    obtain ⟨hname, hrest⟩ := List.forall_mem_cons.mp h
    cases rest with
    | nil => rw [String.intercalate_singleton, namesIn_name hname]
    | cons next rest =>
      have hchars : (", ".intercalate (name :: next :: rest)).toList =
          name.toList ++ ',' :: ' ' :: (", ".intercalate (next :: rest)).toList := by
        rw [String.intercalate_cons_cons, String.toList_append, String.toList_append, List.append_assoc]
        rfl
      rw [hchars, namesIn_append_cons _ _ (by decide), namesIn_cons _ (by decide), namesIn_name hname, ih hrest]
      rfl

namespace Definition

/-- What a line shows of a definition before the title. -/
def heading (d : Definition) : String :=
  d.name ++ if d.aliases.isEmpty then "" else " (" ++ String.intercalate ", " d.aliases ++ ")"

theorem line_toList (d : Definition) :
    ∃ title, d.line.toList = d.heading.toList ++ title ∧ ∀ c ∈ title.head?, c = ':' := by
  refine ⟨_, String.toList_append, ?_⟩
  split
  · nofun
  · nofun
  · rename_i title _
    rw [String.toList_append]
    rintro c ⟨⟩
    rfl

/-- No colon stands before the title. -/
theorem heading_ne_colon {d : Definition} (h : d.WellNamed) : ∀ c ∈ d.heading.toList, c ≠ ':' := by
  obtain ⟨hname, haliases⟩ := List.forall_mem_cons.mp h
  have hcolon : Schema.isNameChar ':' = false := by decide
  rintro c hc rfl
  rw [heading, String.toList_append, List.mem_append] at hc
  rcases hc with hc | hc
  · exact absurd ((Schema.isName_chars hname).2 _ hc) (by simp [hcolon])
  · split at hc
    · cases hc
    · simp only [String.toList_append, List.mem_append] at hc
      rcases hc with (hc | hc) | hc
      · exact absurd hc (by decide)
      · exact absurd (mem_intercalate haliases _ hc) (by decide)
      · exact absurd hc (by decide)

theorem namesIn_heading {d : Definition} (h : d.WellNamed) : namesIn d.heading.toList = d.names := by
  obtain ⟨hname, haliases⟩ := List.forall_mem_cons.mp h
  by_cases hempty : d.aliases = []
  · simpa [heading, names, hempty] using namesIn_name hname
  · have hchars : d.heading.toList =
        d.name.toList ++ ' ' :: '(' :: ((", ".intercalate d.aliases).toList ++ ')' :: []) := by
      rw [heading, if_neg (by simpa using hempty), String.toList_append, String.toList_append,
        String.toList_append]
      rfl
    rw [hchars, namesIn_append_cons _ _ (by decide), namesIn_cons _ (by decide),
      namesIn_append_cons _ _ (by decide), namesIn_name hname, namesIn_intercalate haliases, namesIn_nil]
    simp [names]

end Definition

/-- A line shows the names of its definition, in order and whatever its title is. -/
theorem shownNames_line {d : Definition} (h : d.WellNamed) : shownNames d.line = d.names := by
  obtain ⟨title, hline, htitle⟩ := d.line_toList
  have hbefore : d.line.toList.takeWhile (· ≠ ':') = d.heading.toList := by
    rw [hline, List.takeWhile_append_of_pos (by simpa using Definition.heading_ne_colon h)]
    cases title with
    | nil => simp
    | cons c rest => simp [htitle c rfl]
  rw [shownNames, hbefore, Definition.namesIn_heading h]

/-! ### The names of a registry -/

namespace Registry

variable {r : Registry} {d : Definition}

theorem names_put (r : Registry) (name : String) (d : Definition) :
    (r.put name d).names = if name ∈ r.names then r.names else r.names ++ [name] := by
  have hany : r.any (·.1 = name) = true ↔ name ∈ r.names := by
    simp [names]
  by_cases hname : name ∈ r.names
  · rw [put, if_pos (hany.mpr hname), if_pos hname, names, List.map_map]
    refine List.map_congr_left fun p _ => ?_
    show (if p.1 = name then (p.1, d) else (p.1, p.2)).1 = p.1
    split <;> rfl
  · rw [put, if_neg (fun h => hname (hany.mp h)), if_neg hname]
    simp [names]

/-- A registry has one definition for each of its names. -/
theorem names_put_nodup (h : r.names.Nodup) (name : String) : (r.put name d).names.Nodup := by
  rw [names_put]
  split
  · exact h
  · rename_i hname
    exact List.Nodup.append h (List.nodup_singleton name) (by simpa using hname)

theorem names_putEach_nodup (h : r.names.Nodup) (written : List (String × Definition)) :
    (r.putEach written).names.Nodup := by
  induction written generalizing r with
  | nil => exact h
  | cons p rest ih => exact ih (names_put_nodup h p.1)

theorem mem_iff_get? (h : r.names.Nodup) {name : String} : (name, d) ∈ r ↔ r.get? name = some d := by
  induction r with
  | nil => simp [get?]
  | cons p rest ih =>
    obtain ⟨m, e⟩ := p
    obtain ⟨hm, hrest⟩ := List.nodup_cons.mp h
    rw [List.mem_cons, ih hrest]
    by_cases heq : name = m
    · subst heq
      have hnone : Registry.get? rest name = none :=
        Option.not_isSome_iff_eq_none.mp fun hsome => hm ((mem_names_iff rest name).mpr hsome)
      rw [hnone, get?, List.lookup_cons_self]
      simp [eq_comm]
    · rw [get?, get?, List.lookup_cons, beq_eq_false_iff_ne.mpr heq]
      simp [heq]

end Registry

theorem Registering.names_nodup {s₀ s : Session} (h₀ : s₀.registry = []) (h : Registering s₀ s) :
    s.registry.names.Nodup := by
  induction h with
  | start => simp [h₀, Registry.names]
  | @register s r strict _ hr ih =>
    obtain ⟨written, hregistry, -⟩ := (Registration.run_accepts (l := s.loader strict) hr).written
    show (r.run (s.loader strict)).2.registry.names.Nodup
    rw [hregistry]
    exact Registry.names_putEach_nodup ih written
  | elsewhere _ hregistry ih => exact hregistry ▸ ih

/-! ### What is listed -/

namespace Registry

variable {r : Registry} {d : Definition}

/-- The definitions that have a line, in order. -/
def listed (r : Registry) : List Definition :=
  ((r.mergeSort fun a b => a.1 ≤ b.1).filter fun (name, d) => name = d.name).map (·.2)

theorem listing_eq (r : Registry) : r.listing = r.listed.map Definition.line := by
  simp [listing, listed]

/-- A definition has a line while it stands under its own name. -/
theorem mem_listed (h : r.names.Nodup) : d ∈ r.listed ↔ r.get? d.name = some d := by
  simp only [listed, List.mem_map, List.mem_filter, List.mem_mergeSort, decide_eq_true_eq]
  constructor
  · rintro ⟨⟨name, e⟩, ⟨hmem, hname⟩, rfl⟩
    exact hname ▸ (mem_iff_get? h).mp hmem
  · exact fun hget => ⟨(d.name, d), ⟨(mem_iff_get? h).mpr hget, rfl⟩, rfl⟩

/-- The lines stand in the order of the names, each name at most once at the head of a line. -/
theorem listed_sorted (h : r.names.Nodup) : r.listed.Pairwise (·.name < ·.name) := by
  have hsorted : (r.mergeSort fun a b => a.1 ≤ b.1).Pairwise fun a b => a.1 ≤ b.1 := by
    have hle : (r.mergeSort fun a b => a.1 ≤ b.1).Pairwise fun a b => decide (a.1 ≤ b.1) = true :=
      List.pairwise_mergeSort
        (fun a b c hab hbc => by simpa using le_trans (of_decide_eq_true hab) (of_decide_eq_true hbc))
        (fun a b => by simpa using le_total a.1 b.1) r
    simpa using hle
  have hdistinct : (r.mergeSort fun a b => a.1 ≤ b.1).Pairwise fun a b => a.1 ≠ b.1 := by
    have hnodup : ((r.mergeSort fun a b => a.1 ≤ b.1).map (·.1)).Nodup :=
      ((List.mergeSort_perm r _).map Prod.fst).nodup_iff.mpr h
    exact List.pairwise_map.mp hnodup
  refine List.pairwise_map.mpr ?_
  refine ((hsorted.and hdistinct).filter _).imp_of_mem fun {a b} ha hb hab => ?_
  simp only [List.mem_filter, decide_eq_true_eq] at ha hb
  rw [← ha.2, ← hb.2]
  exact lt_of_le_of_ne hab.1 hab.2

/-- The names that the listing shows, line by line. -/
def shown (r : Registry) : List String := r.listing.flatMap shownNames

/-- Every name that is registered is shown once, and nothing is shown but names on the line of the
definition under them. -/
structure Shown (r : Registry) : Prop where
  once : ∀ name ∈ r.names, r.shown.count name = 1
  own : ∀ line ∈ r.listing, ∃ d, line = d.line ∧ ∀ name ∈ shownNames line, r.get? name = some d

/-- Every definition stands under all its names, and lists none of them twice. -/
def Whole (r : Registry) : Prop :=
  ∀ name d, r.get? name = some d → d.names.Nodup ∧ ∀ m ∈ d.names, r.get? m = some d

theorem wellNamed_of_listed (h : r.names.Nodup) (hn : r.Named) (hd : d ∈ r.listed) : d.WellNamed :=
  (hn _ d ((mem_listed h).mp hd)).2

theorem shown_eq (h : r.names.Nodup) (hn : r.Named) : r.shown = r.listed.flatMap Definition.names := by
  rw [shown, listing_eq, List.flatMap_map]
  exact List.flatMap_congr fun d hd => shownNames_line (wellNamed_of_listed h hn hd)

/-- On its line a definition shows the names under which it stands, and those that were taken over. -/
theorem own_iff (h : r.names.Nodup) (hn : r.Named) :
    (∀ line ∈ r.listing, ∃ d, line = d.line ∧ ∀ name ∈ shownNames line, r.get? name = some d) ↔
      ∀ d ∈ r.listed, ∀ name ∈ d.names, r.get? name = some d := by
  rw [listing_eq, List.forall_mem_map]
  refine forall₂_congr fun d hd => ?_
  rw [shownNames_line (wellNamed_of_listed h hn hd)]
  constructor
  · rintro ⟨e, hline, he⟩ name hname
    -- the line says which definition it is about, since its own name comes first
    have hfirst : r.get? d.name = some e := he d.name List.mem_cons_self
    rw [(mem_listed h).mp hd] at hfirst
    exact Option.some.inj hfirst ▸ he name hname
  · exact fun hall => ⟨d, rfl, hall⟩

/-- A name that one line shows is shown as often as its definition lists it. -/
theorem count_listed (h : r.names.Nodup) (hd : d ∈ r.listed) {name : String}
    (hother : ∀ e ∈ r.listed, name ∈ e.names → e = d) :
    (r.listed.flatMap Definition.names).count name = d.names.count name := by
  have hnodup : r.listed.Nodup :=
    (listed_sorted h).imp fun {a b} (hlt : a.name < b.name) (heq : a = b) => lt_irrefl b.name (heq ▸ hlt)
  obtain ⟨before, after, hsplit⟩ := List.append_of_mem hd
  rw [hsplit] at hnodup hother ⊢
  obtain ⟨-, hafter, hapart⟩ := List.nodup_append.mp hnodup
  have hnone : ∀ es : List Definition, (∀ e ∈ es, e ∈ before ++ d :: after ∧ e ≠ d) →
      (es.flatMap Definition.names).count name = 0 := by
    refine fun es hes => List.count_eq_zero.mpr fun hmem => ?_
    obtain ⟨e, he, hname⟩ := List.mem_flatMap.mp hmem
    exact (hes e he).2 (hother e (hes e he).1 hname)
  have hbefore := hnone before fun e he => ⟨List.mem_append_left _ he, hapart e he d List.mem_cons_self⟩
  have hrest := hnone after fun e he => ⟨List.mem_append_right _ (List.mem_cons_of_mem _ he),
    fun heq => (List.nodup_cons.mp hafter).1 (heq ▸ he)⟩
  rw [List.flatMap_append, List.flatMap_cons, List.count_append, List.count_append, hbefore, hrest]
  omega

/-- The listing is right exactly if the registry is whole. -/
theorem shown_iff_whole (h : r.names.Nodup) (hn : r.Named) : r.Shown ↔ r.Whole := by
  constructor
  · intro hshown name d hget
    have hown := (own_iff h hn).mp hshown.own
    have hcount : ∀ {m e}, r.get? m = some e → (r.listed.flatMap Definition.names).count m = 1 :=
      fun {m e} hm => shown_eq h hn ▸ hshown.once m ((r.mem_names_iff m).mpr (by simp [hm]))
    -- the line that shows the name is that of the definition under it
    have hlisted : d ∈ r.listed := by
      have hpos : 0 < (r.listed.flatMap Definition.names).count name := by
        rw [hcount hget]
        exact Nat.one_pos
      obtain ⟨e, he, hname⟩ := List.mem_flatMap.mp (List.count_pos_iff.mp hpos)
      have hsame := hown e he name hname
      rw [hget] at hsame
      exact Option.some.inj hsame ▸ he
    refine ⟨List.nodup_iff_count_le_one.mpr fun m => ?_, hown d hlisted⟩
    by_cases hm : m ∈ d.names
    · have hsub : d.names.Sublist (r.listed.flatMap Definition.names) :=
        List.sublist_flatten_of_mem (List.mem_map_of_mem hlisted)
      exact (hsub.count_le m).trans_eq (hcount (hown d hlisted m hm))
    · rw [List.count_eq_zero.mpr hm]
      exact Nat.zero_le 1
  · intro hwhole
    refine ⟨fun name hname => ?_, (own_iff h hn).mpr fun d hd => (hwhole _ d ((mem_listed h).mp hd)).2⟩
    obtain ⟨d, hget⟩ := Option.isSome_iff_exists.mp ((r.mem_names_iff name).mp hname)
    obtain ⟨hnodup, hall⟩ := hwhole name d hget
    have hlisted : d ∈ r.listed := (mem_listed h).mpr (hall d.name List.mem_cons_self)
    have hother : ∀ e ∈ r.listed, name ∈ e.names → e = d := by
      intro e he hmem
      have hsame := (hwhole _ e ((mem_listed h).mp he)).2 name hmem
      rw [hget] at hsame
      exact (Option.some.inj hsame).symm
    rw [shown_eq h hn, count_listed h hlisted hother]
    exact List.count_eq_one_of_mem hnodup (hn name d hget).1

/-- A registration keeps a registry whole exactly if it takes from each definition all names or none. -/
theorem Whole.add_iff (h : r.Whole) (hn : r.Named) (d : Definition) :
    (r.add d).Whole ↔ d.names.Nodup ∧
      ∀ name old, r.get? name = some old → name ∈ d.names → ∀ m ∈ old.names, m ∈ d.names := by
  constructor
  · intro hwhole
    have hself : (r.add d).get? d.name = some d := by simp [get?_add, Definition.names]
    refine ⟨(hwhole _ d hself).1, fun name old hget hname m hm => ?_⟩
    by_contra hmiss
    -- what is left of the old definition stands under a name that is taken
    have hleft : (r.add d).get? m = some old := by rw [get?_add, if_neg hmiss, (h name old hget).2 m hm]
    have htaken := (hwhole m old hleft).2 name (hn name old hget).1
    rw [get?_add, if_pos hname] at htaken
    exact hmiss (Option.some.inj htaken ▸ hm)
  · rintro ⟨hnodup, htakes⟩ name e hget
    rw [get?_add] at hget
    split at hget
    · obtain rfl := Option.some.inj hget
      exact ⟨hnodup, fun m hm => by rw [get?_add, if_pos hm]⟩
    · rename_i hname
      obtain ⟨he, hall⟩ := h name e hget
      refine ⟨he, fun m hm => ?_⟩
      have hkept : m ∉ d.names := fun hm' => hname (htakes m e (hall m hm) hm' name (hn name e hget).1)
      rw [get?_add, if_neg hkept, hall m hm]

/-- Whether a registry is whole can be read off its entries. -/
theorem whole_iff (h : r.names.Nodup) :
    r.Whole ↔ ∀ p ∈ r, p.2.names.Nodup ∧ ∀ m ∈ p.2.names, r.get? m = some p.2 :=
  ⟨fun hwhole p hp => hwhole p.1 p.2 ((mem_iff_get? h).mp hp),
    fun hall name d hget => hall (name, d) ((mem_iff_get? h).mpr hget)⟩

end Registry

open CommandLine

/-- What the program lists, whatever was registered and however it went. Every definition that stands
under its own name has a line, in the order of these names, and the line shows all its names. So each
registered name is shown once, on the line of its definition, and nothing else is shown, exactly if the
registry is whole; and a definition that is registered keeps it whole exactly if it lists no name twice and
takes from each definition all names or none. -/
theorem verbs_listed {s₀ s : Session} (h₀ : s₀.registry = []) (h : Registering s₀ s) (library : Library) :
    let r := s.registry
    Invocation.perform library .assertions s = (.ok (.done (text r.listing) false), s) ∧
    r.listing = r.listed.map Definition.line ∧ r.listed.Pairwise (·.name < ·.name) ∧
    (∀ d, d ∈ r.listed ↔ r.get? d.name = some d) ∧ (∀ d ∈ r.listed, shownNames d.line = d.names) ∧
    (r.Shown ↔ r.Whole) ∧
    (r.Whole → ∀ d, (r.add d).Whole ↔ d.names.Nodup ∧
      ∀ name old, r.get? name = some old → name ∈ d.names → ∀ m ∈ old.names, m ∈ d.names) := by
  have hnodup := h.names_nodup h₀
  have hnamed := h.named h₀
  exact ⟨rfl, Registry.listing_eq _, Registry.listed_sorted hnodup, fun _ => Registry.mem_listed hnodup,
    fun _ hd => shownNames_line (Registry.wellNamed_of_listed hnodup hnamed hd),
    Registry.shown_iff_whole hnodup hnamed, fun hwhole => hwhole.add_iff hnamed⟩

/-- The names that a session starts with are shown each once. -/
theorem verbs_listed_initial : ({} : Session).registry.Shown := by
  obtain ⟨-, -, -, -, -, hshown, -⟩ := verbs_listed rfl Registering.initial []
  refine hshown.mpr ((Registry.whole_iff (Registering.initial.names_nodup rfl)).mpr ?_)
  decide +kernel

/-- A verb under a name that another definition has among its aliases. -/
def Registration.overlapping : Registration := .mapping [(.text "isEqualTo", .labelled "q")]

/-- The session after it is registered. -/
def Session.withOverlap : Session := (({} : Session).registering false .overlapping).2

/-- A name that was taken over is shown twice, once of them on the line of its former definition. -/
theorem taken_name_listed :
    Registering { registry := [] } Session.withOverlap ∧
    Session.withOverlap.registry.get? "isEqualTo" = some { name := "isEqualTo", verb := .labelled "q" } ∧
    "equals (is_equal_to, isEqualTo): Equality" ∈ Session.withOverlap.registry.listing ∧
    ¬ Session.withOverlap.registry.Shown := by
  have hknows : ∀ e ∈ [(Value.text "isEqualTo", Value.labelled "q")],
      ({} : Session).heap.Knows e.1 ∧ ({} : Session).heap.Knows e.2 :=
    List.forall_mem_singleton.mpr ⟨nofun, nofun⟩
  have hreach : Registering { registry := [] } Session.withOverlap :=
    Registering.initial.register _ false hknows
  have hregistry : Session.withOverlap.registry =
      Registry.initial.add { name := "isEqualTo", verb := .labelled "q" } :=
    congrArg (·.2.registry) (Registration.run_mapping_ok (l := Session.loader {} false) hknows (by decide))
  have htaken : Session.withOverlap.registry.get? "isEqualTo" =
      some { name := "isEqualTo", verb := .labelled "q" } := by
    rw [hregistry]
    rfl
  have hformer : ∃ d, Session.withOverlap.registry.get? "equals" = some d ∧ "isEqualTo" ∈ d.names ∧
      d.line = "equals (is_equal_to, isEqualTo): Equality" ∧ d.name = "equals" := by
    rw [hregistry]
    exact ⟨_, rfl, by decide, by decide, rfl⟩
  obtain ⟨d, hget, hmem, hline, hname⟩ := hformer
  have hnodup := hreach.names_nodup rfl
  refine ⟨hreach, htaken, ?_, fun hshown => ?_⟩
  · rw [Registry.listing_eq, ← hline]
    exact List.mem_map_of_mem ((Registry.mem_listed hnodup).mpr (hname ▸ hget))
  · have hwhole := (Registry.shown_iff_whole hnodup (hreach.named rfl)).mp hshown
    have hsame := (hwhole "equals" d hget).2 "isEqualTo" hmem
    rw [htaken] at hsame
    obtain rfl := Option.some.inj hsame
    exact absurd hname (by decide)

end Exemplar
