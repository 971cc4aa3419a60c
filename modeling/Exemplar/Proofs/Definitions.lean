import Exemplar.Proofs.Elements
import Exemplar.Registry.Basic

/-! Definitions of verbs, made and refused.

A definition that is made has names that verbs may have (`Definition.make_wellNamed`). A mapping of
names to verbs makes a definition of each entry, or is refused as a whole if one entry has another
name or a verb that can not be called, wherever it stands (`Registry.extendVerbs_ok`,
`Registry.extendVerbs_invalid`). -/
namespace Exemplar

/-! ### Reading definitions -/

/-- The definition that is read from an element. -/
theorem Definition.ofElement_eq {h : Heap} {v verb aliases : Value} {fields : List (String × Value)}
    {name : String} {names : List String} (hc : h.cell? v = some (.element "Assertion" fields))
    (hverb : fields.lookup "verb" = some verb) (hname : fields.lookup "name" = some (.text name))
    (haliases : fields.lookup "aliases" = some aliases)
    (hitems : aliases.items? h = some (names.map .text)) :
    Definition.ofElement h v =
      some ⟨name, verb, names, textField fields "title", textField fields "description"⟩ := by
  have htexts : (names.map Value.text).filterMap (·.asText? h) = names := by
    rw [List.filterMap_map]
    exact List.filterMap_some
  simp only [Definition.ofElement, hc, hverb, haliases, hitems, Option.bind_eq_bind, Option.bind_some, htexts]
  simp only [textField, hname, Option.bind_some, Option.pure_def]

theorem Definition.ofElement_wellNamed {h : Heap} {v : Value} {fields : List (String × Value)}
    (hc : h.cell? v = some (.element "Assertion" fields)) (hn : Schema.Named h fields) {d : Definition}
    (hd : Definition.ofElement h v = some d) : d.WellNamed := by
  obtain ⟨⟨name, hname, hok⟩, w, hw, names, hitems, hall⟩ := hn
  cases hverb : fields.lookup "verb" with
  | none => simp [Definition.ofElement, hc, hverb] at hd
  | some verb =>
    rw [Definition.ofElement_eq hc hverb hname hw hitems] at hd
    obtain rfl := Option.some.inj hd
    exact List.forall_mem_cons.mpr ⟨hok, hall⟩

theorem Heap.WellNamed.ofElement {h : Heap} (hn : h.WellNamed) {v : Value} {d : Definition}
    (hd : Definition.ofElement h v = some d) : d.WellNamed := by
  cases hc : h.cell? v with
  | none => simp [Definition.ofElement, hc] at hd
  | some c =>
    cases v with
    | object r =>
      have hmake := hd
      unfold Definition.ofElement at hmake
      split at hmake
      · rename_i fields hfields
        exact Definition.ofElement_wellNamed hfields (hn r fields hfields) hd
      · cases hmake
    | _ => cases hc

/-! ### Making definitions -/

theorem Definition.make_grown (h : Heap) (data : List (String × Value)) :
    h.Grown (Definition.make h data).1 := by
  have hmade := Schema.Model.make_grown (m := Schema.assertion) (fun _ => rfl) h data
  simp only [Definition.make]
  split <;> rename_i he <;> rw [he] at hmade <;> exact hmade

theorem Registry.makeAll_grown (h : Heap) (data : List (List (String × Value))) :
    h.Grown (Registry.makeAll h data).1 := by
  induction data generalizing h with
  | nil => exact .refl h
  | cons d rest ih =>
    have hmade := Definition.make_grown h d
    simp only [Registry.makeAll]
    split <;> rename_i he <;> rw [he] at hmade
    · exact hmade
    · exact hmade.trans (ih _)

theorem Registry.extendVerbs_grown (r : Registry) (h : Heap) (verbs : List (Value × Value)) :
    h.Grown (r.extendVerbs h verbs).1 :=
  Registry.makeAll_grown h _

/-- A definition that is made is read from an element that is made. -/
theorem Definition.make_ok {h : Heap} {data : List (String × Value)} {d : Definition}
    (hd : (Definition.make h data).2 = .ok d) : ∃ h₁ h₂ h₃ whole v held, h.Extends h₁ ∧ h₂.Extends h₃ ∧
      h₃.cell? v = some (.element "Assertion" held) ∧ Definition.ofElement h₃ v = some d ∧
      List.Forall₂ (Schema.Holds (Schema.makeValue Schema.modelDepth) whole
        (data.map fun (n, v) => (Value.text n, v)) h₁ h₂) Schema.assertion.fields held := by
  simp only [Definition.make, Schema.Model.make] at hd
  generalize hentries : data.map (fun (n, v) => (Value.text n, v)) = entries at hd
  have hwhole := h.extends_alloc (.mapping false entries)
  generalize h.alloc (.mapping false entries) = whole at hd hwhole
  cases hmade : (Schema.assertion.makeIn (Schema.makeValue Schema.modelDepth) whole.1 whole.2 entries).2 with
  | error issues => simp [hmade, Except.mapError] at hd
  | ok v =>
    obtain ⟨held, h', -, hlater, hc, hfields⟩ :=
      Schema.Model.makeIn_ok (Schema.makeValue_making Schema.modelDepth) _ _ hmade
    simp only [hmade, Except.mapError] at hd
    split at hd
    · rename_i d' hof
      obtain rfl := Except.ok.inj hd
      exact ⟨whole.1, h', _, whole.2, v, held, hwhole, hlater, hc, hof, hfields⟩
    · cases hd

/-- The names of a definition that is made are names that verbs may have. -/
theorem Definition.make_wellNamed {h : Heap} {data : List (String × Value)} {d : Definition}
    (hd : (Definition.make h data).2 = .ok d) : d.WellNamed := by
  obtain ⟨_, _, _, _, _, held, -, hlater, hc, hof, hfields⟩ := Definition.make_ok hd
  have hnamed := Schema.assertion_named (Schema.makeValue_making Schema.modelDepth) _ _ hfields
  exact Definition.ofElement_wellNamed hc (hlater.named hnamed) hof

theorem Registry.makeAll_wellNamed {h : Heap} {data : List (List (String × Value))}
    {ds : List Definition} (hds : (Registry.makeAll h data).2 = .ok ds) : ∀ d ∈ ds, d.WellNamed := by
  induction data generalizing h ds with
  | nil =>
    obtain rfl := Except.ok.inj hds
    exact fun _ hd => absurd hd List.not_mem_nil
  | cons fields rest ih =>
    simp only [Registry.makeAll] at hds
    rcases hmade : Definition.make h fields with ⟨h', f | d⟩ <;> rw [hmade] at hds
    · cases hds
    · cases hrest : (Registry.makeAll h' rest).2 with
      | error f => simp [hrest, Except.map] at hds
      | ok ds' =>
        simp only [hrest, Except.map] at hds
        obtain rfl := Except.ok.inj hds
        exact List.forall_mem_cons.mpr ⟨Definition.make_wellNamed (congrArg Prod.snd hmade), ih hrest⟩

theorem Definition.make_invalid {h : Heap} {data : List (String × Value)} {f : Failure}
    (hf : (Definition.make h data).2 = .error f) : ∃ issues, f = .invalid "Assertion" issues := by
  simp only [Definition.make] at hf
  split at hf
  · rename_i hmade
    obtain rfl := Except.error.inj hf
    exact Schema.Model.make_invalid (m := Schema.assertion) (congrArg Prod.snd hmade)
  · split at hf
    · cases hf
    · exact ⟨[], (Except.error.inj hf).symm⟩

/-! ### Definitions of a name and a verb -/

/-- What is registered for a name and a verb, if the name is one that verbs may have and the verb
can be called. -/
def Definition.ofEntry? (h : Heap) (entry : Value × Value) : Option Definition :=
  match Schema.name h entry.1, entry.2.isCallable h with
  | .ok name, true => some { name, verb := entry.2 }
  | _, _ => none

theorem Definition.ofEntry?_wellNamed {h : Heap} {entry : Value × Value} {d : Definition}
    (hd : Definition.ofEntry? h entry = some d) : d.WellNamed := by
  unfold Definition.ofEntry? at hd
  split at hd
  · rename_i name hname _
    obtain rfl := Option.some.inj hd
    exact List.forall_mem_singleton.mpr (Schema.name_ok hname)
  · cases hd

section Entry

variable {h h' : Heap} {name verb : Value}

theorem entry?_pair (h : Heap) (name verb : Value) (n : String) :
    Schema.entry? h [(.text "name", name), (.text "verb", verb)] n =
      if "name" = n then some name else if "verb" = n then some verb else none := by
  by_cases hname : "name" = n
  · simp [Schema.entry?, Value.asText?, hname]
  · by_cases hverb : "verb" = n <;> simp [Schema.entry?, Value.asText?, hname, hverb]

theorem Heap.Extends.name_eq (e : h.Extends h') (hk : h.Knows name) :
    Schema.name h' name = Schema.name h name := by
  have htext : name.asText? h' = name.asText? h := by simp only [Value.asText?, e.cell?_eq hk]
  simp only [Schema.name, Schema.text, htext]

theorem Heap.Extends.isCallable_eq (e : h.Extends h') (hk : h.Knows verb) :
    verb.isCallable h' = verb.isCallable h := by
  cases verb with
  | object r => simp only [Value.isCallable, e.cell?_eq hk]
  | _ => rfl

/-- What is made of a name and a verb has no other names, and says no more. -/
theorem Definition.ofEntry?_of_make (hname : h.Knows name) (hverb : h.Knows verb) {d : Definition}
    (hd : (Definition.make h [("name", name), ("verb", verb)]).2 = .ok d) :
    Definition.ofEntry? h (name, verb) = some d := by
  obtain ⟨h₁, h₂, h₃, whole, v, held, h₁h, hlater, hc, hof, hfields⟩ := Definition.make_ok hd
  simp only [List.map_cons, List.map_nil] at hfields
  have hnodup : (Schema.assertion.fields.map (·.name)).Nodup := by decide
  have hfield := fun {f} hf => Schema.Holds.lookup _ _ hfields hnodup (f := f) hf
  have habsent : ∀ n type, n ≠ "name" → n ≠ "verb" → ⟨n, type, .null⟩ ∈ Schema.assertion.fields →
      held.lookup n = some .null := by
    intro n type hn hn' hmem
    obtain ⟨w, hw, -, h₄, -, hmade, -⟩ := hfield hmem
    simp only [Schema.makeField, entry?_pair, if_neg hn.symm, if_neg hn'.symm] at hmade
    rw [hw, ← Except.ok.inj hmade]
    rfl
  -- the name and the verb were accepted on the way, and are the same on every way
  obtain ⟨w, hw, -, h₄, h₁h₄, hmade, -⟩ :=
    hfield (f := ⟨"verb", .callable, .required⟩) (by simp [Schema.assertion])
  obtain ⟨n, hn, -, h₅, h₁h₅, hmade', -⟩ :=
    hfield (f := ⟨"name", .name, .required⟩) (by simp [Schema.assertion])
  obtain ⟨a, ha, -, h₆, -, hmade'', hheld⟩ :=
    hfield (f := ⟨"aliases", .list .name, .emptyList⟩) (by simp [Schema.assertion])
  rw [Schema.makeField_given (v := verb) (by simp [entry?_pair])] at hmade
  rw [Schema.makeField_given (v := name) (by simp [entry?_pair])] at hmade'
  have hcallable : (Schema.ofChecked h₄ verb id (Schema.callable h₄ verb)).2 = .ok w := hmade
  have hchecked : (Schema.ofChecked h₅ name .text (Schema.name h₅ name)).2 = .ok n := hmade'
  simp only [Schema.makeField, entry?_pair] at hmade'' hheld
  rw [(h₁h.trans h₁h₅).name_eq hname] at hchecked
  rw [Schema.callable, (h₁h.trans h₁h₄).isCallable_eq hverb] at hcallable
  cases hs : Schema.name h name with
  | error kind => simp [hs, Schema.ofChecked, Schema.refuse] at hchecked
  | ok s =>
    cases hv : verb.isCallable h with
    | false => simp [hv, Schema.ofChecked, Schema.refuse] at hcallable
    | true =>
      simp only [hs, hv, if_true, Schema.ofChecked, id, Except.ok.injEq] at hchecked hcallable
      subst hchecked hcallable
      have hitems : a.items? h₃ = some (([] : List String).map .text) := by
        obtain rfl : Value.object h₆.size = a := Except.ok.inj hmade''
        refine hlater.items? (hheld.items? ?_)
        simp [Schema.makeDefault, Value.items?, Heap.cell?, Heap.alloc, Heap.get?, Heap.size]
      rw [Definition.ofElement_eq hc hw hn ha hitems] at hof
      simp only [textField, habsent "title" .optionalText (by decide) (by decide) (by simp [Schema.assertion]),
        habsent "description" .optionalText (by decide) (by decide) (by simp [Schema.assertion])] at hof
      simp only [Definition.ofEntry?, hs, hv, hof]

/-- A name and a verb that can be registered together make a definition. -/
theorem Definition.make_of_ofEntry? (hname : h.Knows name) (hverb : h.Knows verb) {d : Definition}
    (hd : Definition.ofEntry? h (name, verb) = some d) :
    ∃ d', (Definition.make h [("name", name), ("verb", verb)]).2 = .ok d' := by
  obtain ⟨s, hs, hv⟩ : ∃ s, Schema.name h name = .ok s ∧ verb.isCallable h = true := by
    unfold Definition.ofEntry? at hd
    split at hd
    · rename_i s hs hv
      exact ⟨s, hs, hv⟩
    · cases hd
  simp only [Definition.make, Schema.Model.make, List.map_cons, List.map_nil]
  have hwhole := h.extends_alloc (.mapping false [(.text "name", name), (.text "verb", verb)])
  generalize h.alloc (.mapping false [(.text "name", name), (.text "verb", verb)]) = whole at hwhole
  have hmaking := Schema.makeValue_making Schema.modelDepth
  -- every field accepts, whatever was added before
  obtain ⟨v, hmade⟩ := Schema.Model.makeIn_accepts hmaking whole.2
    [(.text "name", name), (.text "verb", verb)] (m := Schema.assertion) (h := whole.1)
    (fun f hf h' hwhole' => by
      have hext := hwhole.trans hwhole'
      simp only [Schema.assertion, List.mem_cons, List.not_mem_nil, or_false] at hf
      rcases hf with rfl | rfl | rfl | rfl | rfl
      · exact ⟨.null, by simp [Schema.makeField, entry?_pair, Schema.makeDefault]⟩
      · exact ⟨.null, by simp [Schema.makeField, entry?_pair, Schema.makeDefault]⟩
      · rw [Schema.makeField_given (v := verb) (by simp [entry?_pair])]
        refine ⟨verb, ?_⟩
        show (Schema.ofChecked h' verb id (Schema.callable h' verb)).2 = .ok verb
        rw [Schema.callable, hext.isCallable_eq hverb, if_pos hv]
        rfl
      · rw [Schema.makeField_given (v := name) (by simp [entry?_pair])]
        refine ⟨.text s, ?_⟩
        show (Schema.ofChecked h' name .text (Schema.name h' name)).2 = .ok (.text s)
        rw [hext.name_eq hname, hs]
        rfl
      · simp [Schema.makeField, entry?_pair, Schema.makeDefault])
    (fun h' e he => by
      simp only [List.mem_cons, List.not_mem_nil, or_false] at he
      rcases he with rfl | rfl <;> simp [Schema.surplus?, Value.asText?, Schema.assertion])
  obtain ⟨held, h', -, hlater, hc, hfields⟩ := Schema.Model.makeIn_ok hmaking _ _ hmade
  obtain ⟨⟨n, hn, -⟩, a, ha, names, hitems, -⟩ :=
    hlater.named (Schema.assertion_named hmaking _ _ hfields)
  obtain ⟨w, hw, -⟩ := Schema.Holds.lookup _ _ hfields (by decide) (f := ⟨"verb", .callable, .required⟩)
    (by simp [Schema.assertion])
  simp only [hmade, Except.mapError, Definition.ofElement_eq hc hw hn ha hitems, Except.ok.injEq,
    exists_eq']

end Entry

/-! ### Mappings -/

section Mappings

variable {h h' : Heap}

theorem Heap.Extends.knows (e : h.Extends h') {v : Value} (hv : h.Knows v) : h'.Knows v := by
  intro r hr
  obtain ⟨c, hc⟩ : ∃ c, h.get? r = some c := ⟨_, Array.getElem?_eq_getElem (hv r hr)⟩
  exact Heap.get?_lt (e r c hc)

theorem Heap.Extends.ofEntry?_eq (e : h.Extends h') {entry : Value × Value}
    (hk : h.Knows entry.1 ∧ h.Knows entry.2) :
    Definition.ofEntry? h' entry = Definition.ofEntry? h entry := by
  simp only [Definition.ofEntry?, e.name_eq hk.1, e.isCallable_eq hk.2]

/-- The data of the definitions that a mapping stands for. -/
def Registry.dataOf (entries : List (Value × Value)) : List (List (String × Value)) :=
  entries.map fun (name, verb) => [("name", name), ("verb", verb)]

/-- Definitions are made of all entries of a mapping. -/
theorem Registry.makeAll_entries (entries : List (Value × Value))
    (hk : ∀ e ∈ entries, h.Knows e.1 ∧ h.Knows e.2)
    (hall : ∀ e ∈ entries, (Definition.ofEntry? h e).isSome = true) :
    (Registry.makeAll h (dataOf entries)).2 = .ok (entries.filterMap (Definition.ofEntry? h)) := by
  induction entries generalizing h with
  | nil => rfl
  | cons entry rest ih =>
    obtain ⟨name, verb⟩ := entry
    obtain ⟨hentry, hrest⟩ := List.forall_mem_cons.mp hk
    obtain ⟨hsome, hsomes⟩ := List.forall_mem_cons.mp hall
    obtain ⟨d, hd⟩ := Option.isSome_iff_exists.mp hsome
    have hgrown := (Definition.make_grown h [("name", name), ("verb", verb)]).objects
    obtain ⟨d', hmade⟩ := Definition.make_of_ofEntry? hentry.1 hentry.2 hd
    obtain rfl : d = d' := Option.some.inj (hd.symm.trans (Definition.ofEntry?_of_make hentry.1 hentry.2 hmade))
    have hsame : ∀ e ∈ rest, Definition.ofEntry? (Definition.make h [("name", name), ("verb", verb)]).1 e =
        Definition.ofEntry? h e := fun e he => hgrown.ofEntry?_eq (hrest e he)
    have htail := ih (fun e he => ⟨hgrown.knows (hrest e he).1, hgrown.knows (hrest e he).2⟩)
      fun e he => by rw [hsame e he]; exact hsomes e he
    rw [List.filterMap_congr hsame] at htail
    rw [List.filterMap_cons_some hd]
    show (Registry.makeAll h ([("name", name), ("verb", verb)] :: dataOf rest)).2 = _
    simp only [Registry.makeAll]
    rw [show Definition.make h [("name", name), ("verb", verb)] = (_, .ok d) from Prod.ext rfl hmade]
    simp only [htail]
    rfl

/-- None is made if one of the entries is refused, wherever it stands. -/
theorem Registry.makeAll_invalid (entries : List (Value × Value))
    (hk : ∀ e ∈ entries, h.Knows e.1 ∧ h.Knows e.2) {e : Value × Value} (he : e ∈ entries)
    (hnone : Definition.ofEntry? h e = none) :
    ∃ issues, (Registry.makeAll h (dataOf entries)).2 = .error (.invalid "Assertion" issues) := by
  induction entries generalizing h with
  | nil => exact absurd he List.not_mem_nil
  | cons entry rest ih =>
    obtain ⟨name, verb⟩ := entry
    obtain ⟨hentry, hrest⟩ := List.forall_mem_cons.mp hk
    have hgrown := (Definition.make_grown h [("name", name), ("verb", verb)]).objects
    show ∃ issues, (Registry.makeAll h ([("name", name), ("verb", verb)] :: dataOf rest)).2 = _
    simp only [Registry.makeAll]
    rcases hmade : Definition.make h [("name", name), ("verb", verb)] with ⟨h₁, f | d⟩
    · obtain ⟨issues, rfl⟩ := Definition.make_invalid (congrArg Prod.snd hmade)
      exact ⟨issues, rfl⟩
    · rw [hmade] at hgrown
      rcases List.mem_cons.mp he with rfl | hmem
      · have hof := Definition.ofEntry?_of_make hentry.1 hentry.2 (congrArg Prod.snd hmade)
        rw [hnone] at hof
        cases hof
      · obtain ⟨issues, hissues⟩ := ih
          (fun e he => ⟨hgrown.knows (hrest e he).1, hgrown.knows (hrest e he).2⟩) hmem
          ((hgrown.ofEntry?_eq (hrest e hmem)).trans hnone)
        simp only [hissues]
        exact ⟨issues, rfl⟩

theorem Registry.extendVerbs_ok (r : Registry) {entries : List (Value × Value)}
    (hk : ∀ e ∈ entries, h.Knows e.1 ∧ h.Knows e.2)
    (hall : ∀ e ∈ entries, (Definition.ofEntry? h e).isSome = true) :
    (r.extendVerbs h entries).2 = .ok (r.addAll (entries.filterMap (Definition.ofEntry? h))) :=
  congrArg (Except.map r.addAll) (Registry.makeAll_entries entries hk hall)

theorem Registry.extendVerbs_invalid (r : Registry) {entries : List (Value × Value)}
    (hk : ∀ e ∈ entries, h.Knows e.1 ∧ h.Knows e.2) {e : Value × Value} (he : e ∈ entries)
    (hnone : Definition.ofEntry? h e = none) :
    ∃ issues, (r.extendVerbs h entries).2 = .error (.invalid "Assertion" issues) := by
  obtain ⟨issues, hissues⟩ := Registry.makeAll_invalid entries hk he hnone
  exact ⟨issues, congrArg (Except.map r.addAll) hissues⟩

end Mappings

end Exemplar
