import Exemplar.Value.Basic

/-! What a check of data against a model can find wrong with it. -/
namespace Exemplar

inductive IssueKind
  | missing
  | extraForbidden
  | invalidKey
  | frozenInstance
  | stringType
  | stringUnicode
  | patternMismatch
  | callableType
  | boolType
  | boolParsing
  | intType
  | intParsing
  | intFromFloat
  | finiteNumber
  | listType
  | tupleType
  | modelType (model : String)
deriving DecidableEq, Repr

/-- A step from a model into its data. -/
inductive Location
  | field (name : String)
  | index (i : Int)
deriving DecidableEq, Repr

structure Issue where
  kind : IssueKind
  place : List Location
  input : Value

/-- The names that verbs and plugins may have. -/
def namePattern : String := "^[a-zA-Z][a-zA-Z0-9_]*$"

namespace IssueKind

def code : IssueKind → String
  | missing => "missing"
  | extraForbidden => "extra_forbidden"
  | invalidKey => "invalid_key"
  | frozenInstance => "frozen_instance"
  | stringType => "string_type"
  | stringUnicode => "string_unicode"
  | patternMismatch => "string_pattern_mismatch"
  | callableType => "callable_type"
  | boolType => "bool_type"
  | boolParsing => "bool_parsing"
  | intType => "int_type"
  | intParsing => "int_parsing"
  | intFromFloat => "int_from_float"
  | finiteNumber => "finite_number"
  | listType => "list_type"
  | tupleType => "tuple_type"
  | modelType _ => "model_type"

def message : IssueKind → String
  | missing => "Field required"
  | extraForbidden => "Extra inputs are not permitted"
  | invalidKey => "Keys should be strings"
  | frozenInstance => "Instance is frozen"
  | stringType => "Input should be a valid string"
  | stringUnicode => "Input should be a valid string, unable to parse raw data as a unicode string"
  | patternMismatch => "String should match pattern '" ++ namePattern ++ "'"
  | callableType => "Input should be callable"
  | boolType => "Input should be a valid boolean"
  | boolParsing => "Input should be a valid boolean, unable to interpret input"
  | intType => "Input should be a valid integer"
  | intParsing => "Input should be a valid integer, unable to parse string as an integer"
  | intFromFloat => "Input should be a valid integer, got a number with a fractional part"
  | finiteNumber => "Input should be a finite number"
  | listType => "Input should be a valid list"
  | tupleType => "Input should be a valid tuple"
  | modelType model => "Input should be a valid dictionary or instance of " ++ model

end IssueKind

def Location.text : Location → String
  | .field name => name
  | .index i => toString i

end Exemplar
