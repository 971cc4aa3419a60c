import Exemplar.Schema.Issue
import Exemplar.Scope.Signature

/-! Failures: everything that can stop a computation.

A failure is kept as its cause. `Misuse` is a wrong use of the verbs or of an engine, and
carries its place in the example tree; `Fault` is an error of the host (a wrong call, an
unset name, a value that can not be compared); `raised` is what a program raised itself;
`invalid` is data that a model refused; and `plugin` is a plugin that could not be used. -/
namespace Exemplar

/-- The place of an error in the example tree. -/
structure Context where
  group : Option Value := none
  spec : Option Value := none
  element : Option Value := none
  /-- Entries that mean nothing. -/
  other : Bool := false

/-- Wrong uses of the verbs, while a specification is built and while it runs. -/
inductive Misuse
  | outsideGroup (verb : String)
  | notBuilding (verb : String)
  | bodyNotCallable (type : String)
  | noArguments
  | noNamespace (builder : String)
  | noEngine
  | outsideSpec
  | nestedWait
  | waitOutsideSpec
  | testOutsideGroup
  | runInsideSpec
  | groupInsideSpec
  | testInsideSpec
deriving DecidableEq, Repr

namespace Misuse

def kind : Misuse → ErrorKind
  | outsideGroup _ | notBuilding _ | bodyNotCallable _ | noArguments | noNamespace _ => .dslBuildError
  | _ => .dslRuntimeError

def message : Misuse → String
  | outsideGroup verb => verb ++ "() must be called inside describe()"
  | notBuilding verb => verb ++ "() must be called while the specification is built"
  | bodyNotCallable type => "Spec body must be callable, got " ++ type
  | noArguments => "given() requires at least one argument"
  | noNamespace builder => "Can not locate the module namespace of " ++ builder
  | noEngine => "No engine is running specs"
  | outsideSpec => "Assertions must run inside a spec"
  | nestedWait => "Nested waits are not supported"
  | waitOutsideSpec => "wait() must run inside a spec"
  | testOutsideGroup => "Tests must be declared inside a group"
  | runInsideSpec => "Specifications can not run inside a spec"
  | groupInsideSpec => "Groups can not be declared inside a spec"
  | testInsideSpec => "Tests can not be declared inside a spec"

end Misuse

inductive Fault
  | notCallable (type : String)
  | targetNotCallable
  | joinItem (index : Nat) (type : String)
  | unknownVerb (name : String)
  | hiddenVerb (name : String)
  | call (function : String) (cause : BindError)
  | takesNone (cls : String)
  | takesNoNamed (function : String)
  | takesOne (function : String)
  | expects (function : String) (atLeast : Bool) (count : Nat)
  | missingFirst (function parameter : String)
  | relativeImport (module : String)
  | invalidNamed (name function : String)
  | bodyArity (takes given : Nat)
  | undefinedName (name : String)
  | unboundLocal (name : String)
  | unboundFree (name : String)
  | unsetName (name : String)
  | noArgument
  | noIndex
  | noTruth
  | notTruth (type : String)
  | noComparison
  | notRunning
  | unhashable (type : String)
  | operands (symbol left right : String)
  | concatenation (left right : String)
  | bytesConcatenation (right : String)
  | noAttribute (type name : String)
  | noClassAttribute (type name : String)
  | quotientTooLarge
  | integerTooLarge
  | tooManyDigits
  | nesting
  | notText (type : String)
  | notRepresentable (shown : String)
deriving Repr

namespace Fault

def kind : Fault → ErrorKind
  | unknownVerb _ | hiddenVerb _ | noAttribute .. | noClassAttribute .. => .attributeError
  | undefinedName _ | unboundFree _ => .nameError
  | unboundLocal _ => .unboundLocalError
  | unsetName _ => .keyError
  | noArgument | noIndex => .indexError
  | noTruth | tooManyDigits => .valueError
  | noComparison | notRunning => .runtimeError
  | quotientTooLarge | integerTooLarge => .overflowError
  | nesting => .recursionError
  | notRepresentable _ => .representerError
  | _ => .typeError

/-- The text the error holds. For a look-up of an unset name it is the name. -/
def detail : Fault → String
  | notCallable type => Text.quote type ++ " object is not callable"
  | targetNotCallable => "the first argument must be callable"
  | joinItem index type => s!"sequence item {index}: expected str instance, {type} found"
  | unknownVerb name => "Unknown assertion " ++ Text.quote name
  | hiddenVerb name => name
  | call function cause => cause.message function
  | takesNone cls => cls ++ "() takes no arguments"
  | takesNoNamed function => function ++ "() takes no keyword arguments"
  | takesOne function => function ++ "() takes exactly one argument (0 given)"
  | expects function atLeast count =>
    let least := if atLeast then "at least " else ""
    s!"{function} expected {least}{count} argument{BindError.plural count}, got 0"
  | missingFirst function parameter =>
    function ++ "() missing required argument " ++ Text.quote parameter ++ " (pos 1)"
  | relativeImport module =>
    "the 'package' argument is required to perform a relative import for " ++ Text.quote module
  | invalidNamed name function =>
    Text.quote name ++ " is an invalid keyword argument for " ++ function ++ "()"
  | bodyArity takes given => s!"body takes {takes} arguments, got {given}"
  | undefinedName name => "name " ++ Text.quote name ++ " is not defined"
  | unboundLocal name =>
    "cannot access local variable " ++ Text.quote name ++ " where it is not associated with a value"
  | unboundFree name => "cannot access free variable " ++ Text.quote name ++
      " where it is not associated with a value in enclosing scope"
  | unsetName name => name
  | noArgument => "tuple index out of range"
  | noIndex => "list index out of range"
  | noTruth => "no truth value"
  | notTruth type => "__bool__ should return bool, returned " ++ type
  | noComparison => "can not compare"
  | notRunning => "no program is running"
  | unhashable type => "unhashable type: " ++ Text.quote type
  | operands symbol left right =>
    s!"unsupported operand type(s) for {symbol}: " ++ Text.quote left ++ " and " ++ Text.quote right
  | concatenation left right => s!"can only concatenate {left} (not \"{right}\") to {left}"
  | bytesConcatenation right => s!"can't concat {right} to bytes"
  | noAttribute type name => Text.quote type ++ " object has no attribute " ++ Text.quote name
  | noClassAttribute type name =>
    "type object " ++ Text.quote type ++ " has no attribute " ++ Text.quote name
  | quotientTooLarge => "integer division result too large for a float"
  | integerTooLarge => "int too large to convert to float"
  | tooManyDigits => "Exceeds the limit (4300 digits) for integer string conversion; " ++
      "use sys.set_int_max_str_digits() to increase the limit"
  | nesting => "maximum recursion depth exceeded"
  | notText type => s!"__str__ returned non-string (type {type})"
  | notRepresentable shown => "('cannot represent an object', " ++ shown ++ ")"

end Fault

/-- What is wrong with a plugin. -/
inductive PluginIssue
  | notValid (entrypoint : String)
  | notLoaded (entrypoint : String)
  | notPlugin (entrypoint : String)
  | shadowing (verb place : String)
  | other (message : String)
deriving DecidableEq, Repr

namespace PluginIssue

def message : PluginIssue → String
  | notValid entrypoint => "Failed to validate entrypoint " ++ Text.quote entrypoint
  | notLoaded entrypoint => "Failed to load entrypoint " ++ Text.quote entrypoint
  | notPlugin entrypoint => "Loaded from entrypoint " ++ Text.quote entrypoint ++ " object is not a plugin"
  | shadowing verb place =>
    "Assertion " ++ Text.quote verb ++ " from " ++ Text.quote place ++ " is shadowing an existing"
  | other message => message

end PluginIssue

/-- A plugin issue that counts as an error. -/
structure PluginFailure where
  issue : PluginIssue
  entrypoint : Option String
  /-- The kind of the error that kept the plugin from being loaded. -/
  cause : Option ErrorKind
deriving DecidableEq, Repr

inductive Failure
  | raised (kind : ErrorKind) (args : List Value)
  | fault (f : Fault)
  | misuse (m : Misuse) (context : Option Context)
  | invalid (model : String) (issues : List Issue)
  | plugin (f : PluginFailure)

namespace Failure

def kind : Failure → ErrorKind
  | raised k _ => k
  | fault f => f.kind
  | misuse m _ => m.kind
  | invalid .. => .validationError
  | plugin _ => .pluginError

def isInterruption (f : Failure) : Bool := f.kind.isInterruption

end Failure

end Exemplar
