import Exemplar.Schema.Model

/-! Settings of a process.

Settings are read from variables whose names start with `SPECIFY_`, in any case of letters;
values given directly win over them, and names that are not settings are ignored. -/
namespace Exemplar

structure Settings where
  /-- Whether verbs are merged into the module of a builder function. -/
  globalMode : Bool := false
  /-- Whether a plugin that can not be loaded is an error. -/
  strict : Bool := false
  loadPlugins : Bool := true
deriving DecidableEq, Repr

namespace Settings

def variableStart : String := "specify_"

/-- What the environment says about a setting; of two spellings the last counts. -/
def ofVariable? (environment : List (String × String)) (name : String) : Option String :=
  (environment.reverse.find? fun (n, _) =>
    String.ofList (n.toList.map Char.toLower) = variableStart ++ name).map (·.2)

/-- The value of a setting before it is checked. -/
def source? (environment : List (String × String)) (given : List (String × Value)) (name : String) :
    Option Value :=
  (given.lookup name).or ((ofVariable? environment name).map .text)

/-- The settings that the environment and the given values stand for. -/
def make (h : Heap) (environment : List (String × String)) (given : List (String × Value)) :
    Except Failure Settings :=
  let read (name : String) (default : Bool) : Bool × List Issue :=
    match source? environment given name with
    | none => (default, [])
    | some v =>
      match Schema.bool h v with
      | .ok b => (b, [])
      | .error kind => (default, [⟨kind, [.field name], v⟩])
  let (globalMode, globalIssues) := read "global_api" false
  let (strict, strictIssues) := read "strict" false
  let (loadPlugins, loadIssues) := read "load_plugins" true
  match globalIssues ++ strictIssues ++ loadIssues with
  | [] => .ok { globalMode, strict, loadPlugins }
  | issues => .error (.invalid "Settings" issues)

end Settings

end Exemplar
