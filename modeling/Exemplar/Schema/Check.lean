import Exemplar.Failure
import Exemplar.Value.Equality
import Exemplar.Text.Lines

/-! Checks of single values.

A check accepts what stands for a value of its type and answers with that value: bytes that
are UTF-8 stand for a text, `"yes"` for a truth value, `" 4.0 "` for an integer. -/
namespace Exemplar.Schema

abbrev Checked (α : Type) := Except IssueKind α

/-- The issue of a field whose check failed. -/
def issue {α : Type} (field : String) (v : Value) : Checked α → List Issue
  | .ok _ => []
  | .error kind => [⟨kind, [.field field], v⟩]

/-- The text of UTF-8 bytes. -/
def decode? (bytes : List UInt8) : Option String := String.fromUTF8? ⟨bytes.toArray⟩

def text (h : Heap) (v : Value) : Checked String :=
  match v.asText? h, v with
  | some s, _ => .ok s
  | none, .bytes bs =>
    match decode? bs with
    | some s => .ok s
    | none => .error .stringUnicode
  | none, _ => .error .stringType

def optionalText (h : Heap) (v : Value) : Checked (Option String) :=
  match v with
  | .null => .ok none
  | v => (text h v).map some

def callable (h : Heap) (v : Value) : Checked Value :=
  if v.isCallable h then .ok v else .error .callableType

def isLetter (c : Char) : Bool := ('a' ≤ c && c ≤ 'z') || ('A' ≤ c && c ≤ 'Z')

/-- A letter, then letters, digits and underscores, all of them ASCII. -/
def isName (s : String) : Bool :=
  match s.toList with
  | [] => false
  | c :: cs => isLetter c && cs.all fun d => isLetter d || isDigit d || d = '_'

def name (h : Heap) (v : Value) : Checked String := do
  let s ← text h v
  if isName s then return s else throw .patternMismatch

def trueWords : List String := ["1", "on", "t", "true", "y", "yes"]

def falseWords : List String := ["0", "off", "f", "false", "n", "no"]

def boolOfText (s : String) : Checked Bool :=
  let word := String.ofList (s.toList.map Char.toLower)
  if trueWords.contains word then .ok true
  else if falseWords.contains word then .ok false
  else .error .boolParsing

/-- The value as a finite real number, if it is one. -/
def real? (h : Heap) (v : Value) : Option Exact :=
  match h.cell? v with
  | some (.complex _) => none
  | _ => (v.number? h).map (·.1)

def bool (h : Heap) (v : Value) : Checked Bool :=
  match v, v.asText? h with
  | .bool b, _ => .ok b
  | .bytes bs, _ =>
    match decode? bs with
    | some s => boolOfText s
    | none => .error .boolParsing
  | _, some s => boolOfText s
  | v, none =>
    match real? h v with
    | some (.ratio n d) =>
      if n = 0 then .ok false
      else if n = d then .ok true
      else if n % d = 0 then .error .boolParsing
      else .error .boolType
    | _ => .error .boolType

/-- Digits with single underscores between them. -/
def digitsOfText (cs : List Char) : Option Nat :=
  let ok := cs.head? ≠ some '_' && cs.getLast? ≠ some '_' && !cs.isEmpty &&
    cs.all (fun c => isDigit c || c = '_') &&
    !(cs.zip (cs.drop 1)).any fun (a, b) => a = '_' && b = '_'
  if ok then some (naturalOf (cs.filter (· ≠ '_'))) else none

/-- A decimal point may follow, with zeros after it. -/
def intOfText (s : String) : Checked Int :=
  let (negative, cs) := readSign (Text.trim s.toList)
  let whole := cs.takeWhile (· ≠ '.')
  if ((cs.dropWhile (· ≠ '.')).drop 1).all (· = '0') then
    match digitsOfText whole with
    | some n => .ok (if negative then -n else n)
    | none => .error .intParsing
  else .error .intParsing

def int (h : Heap) (v : Value) : Checked Int :=
  match v.asInt? h, v, v.asText? h with
  | some i, _, _ => .ok i
  | none, .bytes bs, _ =>
    match decode? bs with
    | some s => intOfText s
    | none => .error .intParsing
  | none, _, some s => intOfText s
  | none, v, none =>
    match real? h v with
    | some (.ratio n d) => if n % d = 0 then .ok (n / d) else .error .intFromFloat
    | some _ => .error .finiteNumber
    | none => .error .intType

end Exemplar.Schema
