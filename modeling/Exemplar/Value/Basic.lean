import Exemplar.Program.Syntax

/-! Values and the store they live in.

Small values stand for themselves; everything with an identity is an object of the store, and
a value names it by its place. Two values are the same object exactly when they are equal as
data, so identity needs no comparison of its own. -/
namespace Exemplar

abbrev Ref := Nat

/-- A build, and the builder that adds to it. -/
abbrev BuildId := Nat

/-- The assertion verbs that every registry starts with. -/
inductive BuiltinVerb
  | equals | isNotEqualTo | isSameAs | isNotSameAs | isTrue | isFalse | isNull | isNotNull
  | isDefined | isUndefined | pass | fail | throwsException
deriving DecidableEq, Repr, Inhabited

inductive Value
  | null
  | bool (b : Bool)
  | int (i : Int)
  | text (s : String)
  | bytes (bs : List UInt8)
  | undefined
  | classOf (c : ObjectClass)
  /-- The default hook, which does nothing. -/
  | noop
  | verb (v : BuiltinVerb)
  /-- A procedure known by a label; calling it records the label. -/
  | labelled (label : String)
  /-- A function of the host. -/
  | native (name : String)
  /-- An object of the host that only its type tells apart. -/
  | foreign (type : String)
  | object (ref : Ref)
deriving DecidableEq, Repr, Inhabited

/-- Procedures with an identity. -/
inductive Callable
  | script (arity : Option Nat) (steps : List Step) (home : Option BuildId)
  /-- A procedure with its first arguments already given. -/
  | applied (target : Value) (args : List Value)
  /-- A procedure that calls another one and answers with what a variable holds then. -/
  | answering (target : Value) (answer : String)
  /-- A verb of the asserter that needs no subject. -/
  | shortcut (verb : String)
  /-- A group waiting for its body. -/
  | group (build : BuildId) (name : Value)

inductive Cell
  | float (x : Binary64)
  | fraction (x : Fraction)
  | decimal (x : Decimal)
  | complex (z : Complex)
  /-- A text, or a number below, of a class of its own that adds nothing. -/
  | ownText (s : String)
  | ownInt (i : Int)
  | list (own : Bool) (items : List Value)
  | tuple (own : Bool) (items : List Value)
  | mapping (ordered : Bool) (entries : List (Value × Value))
  | set (frozen : Bool) (items : List Value)
  | record (cls : ObjectClass) (attributes : List (String × Value))
  | error (kind : ErrorKind) (args : List Value)
  | procedure (c : Callable)
  /-- An element of a specification, with its fields in order. -/
  | element (model : String) (fields : List (String × Value))

structure Heap where
  cells : Array Cell := #[]

namespace Heap

def get? (h : Heap) (r : Ref) : Option Cell := h.cells[r]?

def size (h : Heap) : Nat := h.cells.size

/-- The new object is the next free place. -/
def alloc (h : Heap) (c : Cell) : Heap × Value := (⟨h.cells.push c⟩, .object h.cells.size)

def set (h : Heap) (r : Ref) (c : Cell) : Heap := ⟨h.cells.setIfInBounds r c⟩

/-- The cell of a value that is an object. -/
def cell? (h : Heap) : Value → Option Cell
  | .object r => h.get? r
  | _ => none

end Heap

namespace BuiltinVerb

def all : List BuiltinVerb :=
  [equals, isNotEqualTo, isSameAs, isNotSameAs, isTrue, isFalse, isNull, isNotNull, isDefined,
    isUndefined, pass, fail, throwsException]

/-- The name of the procedure, as call errors give it. -/
def procedureName : BuiltinVerb → String
  | equals => "_equals"
  | isNotEqualTo => "_is_not_equal_to"
  | isSameAs => "_is_same_as"
  | isNotSameAs => "_is_not_same_as"
  | isTrue => "_is_true"
  | isFalse => "_is_false"
  | isNull => "_is_null"
  | isNotNull => "_is_not_null"
  | isDefined => "_is_defined"
  | isUndefined => "_is_undefined"
  | pass => "_pass"
  | fail => "_fail"
  | throwsException => "_throws_exception"

/-- Whether the verb compares its subject with an expected value. -/
def isComparison : BuiltinVerb → Bool
  | equals | isNotEqualTo | isSameAs | isNotSameAs => true
  | _ => false

end BuiltinVerb

def Cell.typeName : Cell → String
  | .float _ => "float"
  | .fraction _ => "Fraction"
  | .decimal _ => "Decimal"
  | .complex _ => "complex"
  | .ownText _ => "MyStr"
  | .ownInt _ => "MyInt"
  | .list own _ => if own then "MyList" else "list"
  | .tuple own _ => if own then "MyTuple" else "tuple"
  | .mapping ordered _ => if ordered then "OrderedDict" else "dict"
  | .set frozen _ => if frozen then "frozenset" else "set"
  | .record c _ => c.name
  | .error k _ => k.name
  | .procedure (.applied ..) | .procedure (.group ..) => "partial"
  | .procedure (.shortcut _) => "method"
  | .procedure _ => "function"
  | .element model _ => model

/-- The name of a value's type, as messages give it. -/
def Value.typeName (h : Heap) : Value → String
  | .null => "NoneType"
  | .bool _ => "bool"
  | .int _ => "int"
  | .text _ => "str"
  | .bytes _ => "bytes"
  | .undefined => "Undefined"
  | .classOf _ => "type"
  | .noop | .verb _ | .labelled _ => "function"
  | .native _ => "builtin_function_or_method"
  | .foreign type => type
  | v@(.object _) => ((h.cell? v).map Cell.typeName).getD "object"

/-- The name of a value's type with the library it comes from, as errors of operations give it. -/
def Value.fullTypeName (h : Heap) (v : Value) : String :=
  match h.cell? v with
  | some (.decimal _) => "decimal.Decimal"
  | some (.mapping true _) => "collections.OrderedDict"
  | some (.procedure (.applied ..)) | some (.procedure (.group ..)) => "functools.partial"
  | _ => v.typeName h

def Value.isCallable (h : Heap) : Value → Bool
  | .classOf _ | .noop | .verb _ | .labelled _ | .native _ => true
  | .foreign type => type = "type" || type = "Specifier"
  | v@(.object _) => match h.cell? v with
    | some (.procedure _) => true
    | some (.record .callableBox _) => true
    | _ => false
  | _ => false

/-- The text of a value that is a text, of its own class or not. -/
def Value.asText? (h : Heap) (v : Value) : Option String :=
  match v, h.cell? v with
  | .text s, _ => some s
  | _, some (.ownText s) => some s
  | _, _ => none

/-- The integer of a value that counts as one; a truth value does. -/
def Value.asInt? (h : Heap) (v : Value) : Option Int :=
  match v, h.cell? v with
  | .int i, _ => some i
  | .bool b, _ => some (if b then 1 else 0)
  | _, some (.ownInt i) => some i
  | _, _ => none

/-- The procedure by which an object of a written class decides. -/
def Value.method? (h : Heap) (v : Value) (operation : Operation) : Option Value :=
  match h.cell? v with
  | some (.record (.written _) attributes) => attributes.lookup operation.attribute
  | _ => none

/-- The items of a list or tuple, of its own class or not. -/
def Value.items? (h : Heap) (v : Value) : Option (List Value) :=
  match h.cell? v with
  | some (.list _ items) | some (.tuple _ items) => some items
  | _ => none

end Exemplar
