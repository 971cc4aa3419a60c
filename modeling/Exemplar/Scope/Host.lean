import Exemplar.Failure

/-! The names of the host.

A name that is set nowhere else may be one of these. Functions of the host are called without
arguments here, so all that matters of them is whether they can be. -/
namespace Exemplar.Host

/-- Functions that take one argument. -/
def unary : List String :=
  ["abs", "aiter", "all", "any", "ascii", "bin", "callable", "chr", "hash", "hex", "id", "len",
    "oct", "ord", "repr"]

/-- Functions with a fixed number of arguments, or with a least number. -/
def counted : List (String × Bool × Nat) :=
  [("anext", true, 1), ("delattr", false, 2), ("divmod", false, 2), ("eval", true, 1),
    ("exec", true, 1), ("format", true, 1), ("getattr", true, 2), ("hasattr", false, 2),
    ("isinstance", false, 2), ("issubclass", false, 2), ("iter", true, 1), ("max", true, 1),
    ("min", true, 1), ("next", true, 1), ("setattr", false, 3), ("sorted", false, 1)]

/-- Functions with the name of their first parameter. -/
def naming : List (String × String) :=
  [("__import__", "name"), ("compile", "source"), ("open", "file"), ("pow", "base"),
    ("round", "number"), ("sum", "iterable")]

/-- Functions that need no argument. -/
def nullary : List String := ["dir", "globals", "locals", "print", "vars"]

def functions : List String := unary ++ counted.map (·.1) ++ naming.map (·.1) ++ nullary

def classes : List String :=
  ["bool", "bytearray", "bytes", "classmethod", "complex", "dict", "enumerate", "filter", "float",
    "frozenset", "int", "list", "map", "memoryview", "object", "property", "range", "reversed",
    "set", "slice", "staticmethod", "str", "super", "tuple", "type", "zip"] ++
  (ErrorKind.all.filter fun k =>
    !k.isLocated && k ≠ .representerError && k ≠ .validationError && k ≠ .specFailure).map (·.name)

/-- What a name stands for. -/
def get? (name : String) : Option Value :=
  if functions.contains name then some (.native name)
  else if classes.contains name then some (.foreign "type")
  else match name with
    | "__name__" => some (.text "builtins")
    | "__package__" => some (.text "")
    | "__debug__" => some (.bool true)
    | _ => none

/-- What is wrong with a call of a function without arguments. -/
def refusal? (function : String) : Option Fault :=
  if unary.contains function then some (.takesOne function)
  else match counted.lookup function, naming.lookup function with
    | some (atLeast, n), _ => some (.expects function atLeast n)
    | none, some parameter => some (.missingFirst function parameter)
    | none, none => none

/-- The parameters of the functions that tell them. -/
def signature? : String → Option (Signature Value)
  | "print" => some [⟨"args", .variadic, none⟩, ⟨"sep", .namedOnly, some (.text " ")⟩,
      ⟨"end", .namedOnly, some (.text "\n")⟩, ⟨"file", .namedOnly, some .null⟩,
      ⟨"flush", .namedOnly, some (.bool false)⟩]
  | "len" => some [⟨"obj", .positionalOnly, none⟩]
  | _ => none

end Exemplar.Host

namespace Exemplar

/-- The parameters of a value that can be called and tells them. -/
def Value.signature? (h : Heap) (v : Value) : Option (Signature Value) :=
  match v, h.cell? v with
  | .classOf _, _ => some []
  | .native name, _ => Host.signature? name
  | _, some (.procedure (.script ..)) | _, some (.procedure (.answering ..)) =>
    some [⟨"args", .variadic, none⟩]
  | _, some (.record .callableBox _) => some []
  | _, _ => none

end Exemplar
