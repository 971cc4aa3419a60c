import Exemplar.CommandLine.Arguments
import Exemplar.Program.Member

/-! Targets: references to what a command works on.

A target names a module and a member of it. Extra locations are put in front of the search
path before the module is looked up, unless they are on it already; a member that is a
specification is taken as it is, and one that can be called becomes a specification under its
own name. -/
namespace Exemplar.CommandLine

/-- Modules by name, with their members. -/
abbrev Library := List (String × List (String × Member))

/-- Puts locations in front of a search path, the first of them foremost. A location that is on
the path stays where it is. -/
def extendPath (path locations : List String) : List String :=
  locations.foldr (fun l path => if path.contains l then path else l :: path) path

/-- The module and the member that a target names: what is before the first colon and after it. -/
def splitTarget (target : String) : Option (String × String) :=
  let module := String.ofList (target.toList.takeWhile (· ≠ ':'))
  let member := String.ofList (target.toList.drop (module.length + 1))
  if module.isEmpty || member.isEmpty then none else some (module, member)

/-- The name without its last part. -/
def packageOf (module : List Char) : List Char := ((module.reverse.dropWhile (· ≠ '.')).drop 1).reverse

theorem packageOf_length_le (module : List Char) (h : module ≠ []) :
    (packageOf module).length < module.length := by
  have hd := List.Sublist.length_le (List.dropWhile_sublist (l := module.reverse) (· ≠ '.'))
  have : 0 < module.length := List.length_pos_iff.mpr h
  simp only [List.length_reverse] at hd
  simp only [packageOf, List.length_reverse, List.length_drop]
  omega

/-- Why a module can not be imported. A package is imported before what is in it, and none of
the modules here is a package. -/
def importIssue? (known : List String) (module : List Char) : Option String :=
  if _h : module = [] then none
  else if known.contains (String.ofList module) then none
  else
    let package := packageOf module
    let missing := "No module named " ++ Text.quote (String.ofList module)
    if package.isEmpty then some missing
    else match importIssue? known package with
      | some issue => some issue
      | none => some (missing ++ "; " ++ Text.quote (String.ofList package) ++ " is not a package")
termination_by module.length
decreasing_by exact packageOf_length_le module ‹_›

/-- Names that every module has; none of them can be called. -/
def moduleNames : List String :=
  ["__name__", "__doc__", "__package__", "__loader__", "__spec__", "__dict__"]

/-- What a target refers to. -/
def findSpecification (library : Library) (target module member : String) :
    Act (Except UsageError Specification) := do
  if module.startsWith "." then Act.fault (.relativeImport module)
  match importIssue? (library.map (·.1)) module.toList with
  | some issue => return .error (.notImportable target issue)
  | none =>
    let members := (library.lookup module).getD []
    match members.lookup member with
    | some m =>
      match ← Act.specificationOf? member m with
      | some s => return .ok s
      | none => return .error (.notSpecification target)
    | none =>
      if moduleNames.contains member then return .error (.notSpecification target)
      else return .error (.notImportable target
        ("module " ++ Text.quote module ++ " has no attribute " ++ Text.quote member))

end Exemplar.CommandLine
