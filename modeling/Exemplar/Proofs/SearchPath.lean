import Exemplar.CommandLine.Execution
import Mathlib.Data.List.Dedup
import Mathlib.Data.List.Perm.Subperm

/-! The search path of a command.

Locations are put in front of the path from the last to the first, and one that is on the path by
then stays where it is (`extendPath_eq`); the command has them in the order in which they are given
(`ofArguments_locations`). So the path is kept and the new locations stand before it,
but one that is given twice stands at its last place among them, and one that was on the path before
stays behind. The locations begin the path in the order in which they are given only under the
condition that `search_path_extended` states. -/
namespace Exemplar.CommandLine

/-! ### Locations in front of a path -/

theorem extendPath_cons (path : List String) (l : String) (locations : List String) :
    extendPath path (l :: locations) =
      if l ∈ extendPath path locations then extendPath path locations else l :: extendPath path locations := by
  simp [extendPath]

/-- The new locations stand in front, each at the last place at which it is given. -/
theorem extendPath_eq (path locations : List String) :
    extendPath path locations = (locations.filter (· ∉ path)).dedup ++ path := by
  induction locations with
  | nil => rfl
  | cons l rest ih =>
    rw [extendPath_cons]
    simp only [ih, List.mem_append, List.mem_dedup, List.mem_filter]
    by_cases hpath : l ∈ path
    · simp [hpath]
    · rw [List.filter_cons_of_pos (by simpa using hpath)]
      by_cases hrest : l ∈ rest
      · have hlater : l ∈ rest.filter (· ∉ path) := List.mem_filter.mpr ⟨hrest, by simpa using hpath⟩
        rw [if_pos (.inl ⟨hrest, by simpa using hpath⟩), List.dedup_cons_of_mem hlater]
      · have hlast : l ∉ rest.filter (· ∉ path) := fun hmem => hrest (List.mem_of_mem_filter hmem)
        rw [if_neg (by simp [hrest, hpath]), List.dedup_cons_of_notMem hlast, List.cons_append]

theorem mem_extendPath {l : String} {path locations : List String} :
    l ∈ extendPath path locations ↔ l ∈ locations ∨ l ∈ path := by
  by_cases hpath : l ∈ path <;> simp [extendPath_eq, hpath]

/-! ### Locations on the command line -/

theorem isOption_location : isOption "-p" = true := by
  rw [isOption, Bool.and_eq_true]
  exact ⟨by simp, by decide⟩

theorem isOption_dashes : isOption "--" = true := by
  rw [isOption, Bool.and_eq_true]
  exact ⟨by simp, by decide⟩

theorem readOption_location (p : Parsed) (l : String) :
    readOption (Page.command .run).switches (some l) p "-p" = .ok (p.switch .location l, true) := by
  have hname : String.ofList ("-p".toList.takeWhile (· ≠ '=')) = "-p" := by decide
  have hlong : (Page.command .run).switches.find? (·.long = "-p") = none := by decide
  have hdashes : "-p".startsWith "--" = false := by simp
  have hshort : readShort (Page.command .run).switches (some l) p ("-p".toList.drop 1) =
      .ok (p.switch .location l, true) := rfl
  rw [readOption]
  simp only [hname, hlong, hdashes, hshort]
  rfl

/-- Locations are collected in the order in which they are given. -/
theorem parse_locations (p : Parsed) (locations rest : List String) :
    parse (Page.command .run).switches true p (locations.flatMap (["-p", ·]) ++ rest) =
      parse (Page.command .run).switches true { p with locations := p.locations ++ locations } rest := by
  induction locations generalizing p with
  | nil => simp
  | cons l more ih =>
    have hnext : parse (Page.command .run).switches true p ("-p" :: l :: (more.flatMap (["-p", ·]) ++ rest)) =
        parse (Page.command .run).switches true (p.switch .location l) (more.flatMap (["-p", ·]) ++ rest) := by
      rw [parse, if_neg (by decide), if_pos isOption_location, List.head?_cons, readOption_location]
    rw [List.flatMap_cons, List.append_assoc]
    show parse _ true p ("-p" :: l :: (more.flatMap (["-p", ·]) ++ rest)) = _
    rw [hnext, ih]
    simp [Parsed.switch]

/-- A target is run with the locations before it. -/
theorem ofArguments_locations {target : String} (htarget : isOption target = false) (locations : List String) :
    Invocation.ofArguments ("run" :: (locations.flatMap (["-p", ·]) ++ [target])) =
      .ok (.run target locations false) := by
  have hdashes : target ≠ "--" := fun h => Bool.false_ne_true (htarget.symm.trans (h ▸ isOption_dashes))
  have hrun : isOption "run" = false := by simp [isOption]
  have hprogram : parse Page.program.switches false {} ("run" :: (locations.flatMap (["-p", ·]) ++ [target])) =
      .ok { operands := "run" :: (locations.flatMap (["-p", ·]) ++ [target]) } := by
    rw [parse, if_neg (by decide), hrun]
    simp
  have hcommand : parse (Page.command .run).switches true {} (locations.flatMap (["-p", ·]) ++ [target]) =
      .ok { locations, operands := [target] } := by
    rw [parse_locations, parse, if_neg hdashes, htarget]
    simp [parse]
  have hname : Command.ofName? "run" = some .run := by decide
  rw [Invocation.ofArguments, hprogram]
  simp only [List.isEmpty_cons, hname, Invocation.ofCommand, hcommand]
  rfl

/-! ### Commands with a target -/

/-- The command works on this target, with these locations. -/
inductive Invocation.Targets (target : String) (locations : List String) : Invocation → Prop
  | outline : Targets target locations (.outline target locations)
  | run (globalMode : Bool) : Targets target locations (.run target locations globalMode)

/-- The path is what was asked for, however the command ends. -/
theorem execute_path {args : List String} {i : Invocation} (hargs : Invocation.ofArguments args = .ok i)
    (s : Session) (library : Library) (path : List String) :
    (execute s library path args).path = i.path path := by
  rw [execute, hargs]
  dsimp only
  split <;> rfl

theorem Invocation.Targets.path_eq {target : String} {locations : List String} {i : Invocation}
    (hi : i.Targets target locations) (htarget : (splitTarget target).isSome) (path : List String) :
    i.path path = extendPath path locations := by
  cases hi <;> exact if_pos htarget

/-- The search path after a command with a target, whatever became of the target. What was on the path
is still there, in its order and at its end. Before it stand the locations that were not on it, each
once, at the last of the places at which it is given; every location is on the path. If no location is
given twice and none was on the path, the path begins with them in the order in which they are given.
In general it begins with them in that order, repeats ignored, exactly if those that were not on the
path come first there, in the order of their last places, and the path began with the others. -/
theorem search_path_extended {args : List String} {i : Invocation} {target : String} {locations : List String}
    (hargs : Invocation.ofArguments args = .ok i) (hi : i.Targets target locations)
    (htarget : (splitTarget target).isSome) (s : Session) (library : Library) (path : List String) :
    let after := (execute s library path args).path
    let new := (locations.filter (· ∉ path)).dedup
    after = new ++ path ∧ (∀ l, l ∈ after ↔ l ∈ locations ∨ l ∈ path) ∧
    (locations.Nodup → (∀ l ∈ locations, l ∉ path) → after = locations ++ path) ∧
    (locations.eraseDups <+: after ↔ ∃ known, locations.eraseDups = new ++ known ∧ known <+: path) := by
  intro after new
  have hafter : after = extendPath path locations :=
    (execute_path hargs s library path).trans (hi.path_eq htarget path)
  have heq : after = new ++ path := hafter.trans (extendPath_eq path locations)
  have hmem : ∀ l, l ∈ after ↔ l ∈ locations ∨ l ∈ path := fun l => hafter ▸ mem_extendPath
  refine ⟨heq, hmem, fun hnodup hfresh => ?_, ?_⟩
  · have hall : locations.filter (· ∉ path) = locations := List.filter_eq_self.mpr (by simpa using hfresh)
    rw [heq]
    simp only [new, hall, List.Nodup.dedup hnodup]
  · rw [heq]
    constructor
    · intro hbegins
      -- all the new locations are among those given, so the order in which these are given covers them
      have hlength : new.length ≤ locations.eraseDups.length := by
        have hsub : new ⊆ locations.eraseDups := fun l hl =>
          List.mem_eraseDups.mpr (List.mem_of_mem_filter (List.mem_dedup.mp hl))
        exact (List.Nodup.subperm (List.nodup_dedup _) hsub).length_le
      obtain ⟨known, hknown⟩ := List.prefix_of_prefix_length_le (List.prefix_append new path) hbegins hlength
      refine ⟨known, hknown.symm, ?_⟩
      rwa [← hknown, List.prefix_append_right_inj] at hbegins
    · rintro ⟨known, hknown, hpath⟩
      rwa [hknown, List.prefix_append_right_inj]

/-- Two locations that are new stand in front in the order in which they are given. -/
theorem search_path_extended_two :
    Invocation.ofArguments ["run", "-p", "a", "-p", "b", "m:spec"] = .ok (.run "m:spec" ["a", "b"] false) ∧
      (splitTarget "m:spec").isSome ∧
      (execute {} [] ["lib"] ["run", "-p", "a", "-p", "b", "m:spec"]).path = ["a", "b", "lib"] := by
  have hargs : Invocation.ofArguments ["run", "-p", "a", "-p", "b", "m:spec"] =
      .ok (.run "m:spec" ["a", "b"] false) := ofArguments_locations (by simp [isOption]) ["a", "b"]
  have htarget : (splitTarget "m:spec").isSome := by decide
  obtain ⟨-, -, hfresh, -⟩ := search_path_extended hargs (.run false) htarget {} [] ["lib"]
  exact ⟨hargs, htarget, hfresh (by decide) (by decide)⟩

/-- Two new locations change places if the first of them is given once more, and one that is on the path
already stays behind what is before it. -/
theorem search_path_reordered :
    (execute {} [] ["lib"] ["run", "-p", "a", "-p", "b", "-p", "a", "m:spec"]).path = ["b", "a", "lib"] ∧
      ¬ ["a", "b", "a"].eraseDups <+: ["b", "a", "lib"] ∧
      (execute {} [] ["lib", "a"] ["run", "-p", "a", "m:spec"]).path = ["lib", "a"] ∧
      ¬ ["a"].eraseDups <+: ["lib", "a"] := by
  have hspec : isOption "m:spec" = false := by simp [isOption]
  have htwice := ofArguments_locations hspec ["a", "b", "a"]
  have honce := ofArguments_locations hspec ["a"]
  refine ⟨(execute_path htwice ..).trans ?_, ?_, (execute_path honce ..).trans ?_, ?_⟩ <;> decide

end Exemplar.CommandLine
