/-! The named kinds of objects and of errors. -/
namespace Exemplar

/-- Classes of plain objects. They differ in how they compare, in their truth and in whether
they can be called. -/
inductive ObjectClass
  | point | otherPoint | box
  | alwaysEqual | neverEqual | listEq | badEq
  | falsy | empty | badBool
  | callableBox | slotted
  /-- A class written in a program, by its name. Its objects carry the procedures that compare and
  test them; without one an object equals itself alone and counts as true. -/
  | written (name : String)
deriving DecidableEq, Repr, Inhabited

namespace ObjectClass

def all : List ObjectClass :=
  [point, otherPoint, box, alwaysEqual, neverEqual, listEq, badEq, falsy, empty, badBool,
    callableBox, slotted]

def name : ObjectClass → String
  | point => "Point"
  | otherPoint => "OtherPoint"
  | box => "Box"
  | alwaysEqual => "AlwaysEqual"
  | neverEqual => "NeverEqual"
  | listEq => "ListEq"
  | badEq => "BadEq"
  | falsy => "Falsy"
  | empty => "Empty"
  | badBool => "BadBool"
  | callableBox => "CallableBox"
  | slotted => "Slotted"
  | written name => name

def ofName? (s : String) : Option ObjectClass := all.find? (·.name = s)

/-- Whether the class says what its objects are equal to, or lets them say so. Such objects have
no hash. -/
def hasEquality : ObjectClass → Bool
  | alwaysEqual | neverEqual | listEq | badEq | written _ => true
  | _ => false

/-- Whether objects of the class keep their attributes where comparisons can see them. -/
def hasAttributes (c : ObjectClass) : Bool := c ≠ slotted

end ObjectClass

/-- What objects of a written class decide by procedures of their own. -/
inductive Operation
  | equality | inequality | truth
deriving DecidableEq, Repr

/-- The attribute that holds the procedure. -/
def Operation.attribute : Operation → String
  | equality => "on_eq"
  | inequality => "on_ne"
  | truth => "on_bool"

/-- Kinds of errors that a program can raise or meet. -/
inductive ErrorKind
  | exception | valueError | typeError | keyError | indexError | attributeError | nameError
  | runtimeError | zeroDivisionError | assertionError | stopIteration | importError
  | lookupError | notImplementedError
  | baseException | keyboardInterrupt | systemExit | generatorExit
  | dslError | dslBuildError | dslRuntimeError | pluginError
  | unboundLocalError | overflowError | recursionError | representerError
  | validationError | specFailure
deriving DecidableEq, Repr, Inhabited

namespace ErrorKind

def all : List ErrorKind :=
  [exception, valueError, typeError, keyError, indexError, attributeError, nameError,
    runtimeError, zeroDivisionError, assertionError, stopIteration, importError, lookupError,
    notImplementedError, baseException, keyboardInterrupt, systemExit, generatorExit, dslError,
    dslBuildError, dslRuntimeError, pluginError, unboundLocalError, overflowError,
    recursionError, representerError, validationError, specFailure]

def name : ErrorKind → String
  | exception => "Exception"
  | valueError => "ValueError"
  | typeError => "TypeError"
  | keyError => "KeyError"
  | indexError => "IndexError"
  | attributeError => "AttributeError"
  | nameError => "NameError"
  | runtimeError => "RuntimeError"
  | zeroDivisionError => "ZeroDivisionError"
  | assertionError => "AssertionError"
  | stopIteration => "StopIteration"
  | importError => "ImportError"
  | lookupError => "LookupError"
  | notImplementedError => "NotImplementedError"
  | baseException => "BaseException"
  | keyboardInterrupt => "KeyboardInterrupt"
  | systemExit => "SystemExit"
  | generatorExit => "GeneratorExit"
  | dslError => "DSLError"
  | dslBuildError => "DSLBuildError"
  | dslRuntimeError => "DSLRuntimeError"
  | pluginError => "PluginError"
  | unboundLocalError => "UnboundLocalError"
  | overflowError => "OverflowError"
  | recursionError => "RecursionError"
  | representerError => "RepresenterError"
  | validationError => "ValidationError"
  | specFailure => "SpecFailure"

def ofName? (s : String) : Option ErrorKind := all.find? (·.name = s)

/-- An interruption is not an exception: a test does not record it, and it ends the run. -/
def isInterruption : ErrorKind → Bool
  | baseException | keyboardInterrupt | systemExit | generatorExit => true
  | _ => false

/-- Whether errors of the kind can be made with named arguments of their own. -/
def takesNamed : ErrorKind → Bool
  | attributeError | nameError | unboundLocalError | importError => true
  | _ => false

/-- The errors of this library, which carry a message and a place in the example tree. -/
def isLocated : ErrorKind → Bool
  | dslError | dslBuildError | dslRuntimeError | pluginError => true
  | _ => false

end ErrorKind

end Exemplar
