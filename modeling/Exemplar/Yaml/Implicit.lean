import Exemplar.Number.Reading

/-! Plain scalars that do not stand for texts.

A plain scalar is read as a truth value, a number, nothing, a date or a reserved mark when it
has one of the forms below (`isReserved`). A text of such a form has to be quoted. -/
namespace Exemplar.Yaml

def isBool (s : String) : Bool :=
  ["yes", "Yes", "YES", "no", "No", "NO", "true", "True", "TRUE", "false", "False", "FALSE",
    "on", "On", "ON", "off", "Off", "OFF"].contains s

def isNull (s : String) : Bool := ["", "~", "null", "Null", "NULL"].contains s

/-- The merge key, the default value and the node marks. -/
def isMark (s : String) : Bool := ["<<", "=", "!", "&", "*"].contains s

def isDigitOrBar (c : Char) : Bool := isDigit c || c = '_'

def dropSign : List Char → List Char
  | '-' :: r => r
  | '+' :: r => r
  | r => r

/-- A nonempty run of characters of one kind, up to the end. -/
def isRun (p : Char → Bool) (cs : List Char) : Bool := !cs.isEmpty && cs.all p

/-- What follows one or more groups of a colon and a number below sixty. -/
def dropSixties : Nat → Bool → List Char → Option (List Char)
  | 0, _, _ => none
  | more + 1, found, cs =>
    match cs with
    | ':' :: a :: b :: r =>
      if isDigit a then
        if isDigit b then (if digitValue a ≤ 5 then dropSixties more true r else none)
        else dropSixties more true (b :: r)
      else none
    | [':', a] => if isDigit a then some [] else none
    | cs => if found then some cs else none

def isHexDigit (c : Char) : Bool :=
  isDigit c || ('a' ≤ c && c ≤ 'f') || ('A' ≤ c && c ≤ 'F')

def isInt (cs : List Char) : Bool :=
  match dropSign cs with
  | ['0'] => true
  | '0' :: 'b' :: r => isRun (fun c => c = '0' || c = '1' || c = '_') r
  | '0' :: 'x' :: r => isRun (fun c => isHexDigit c || c = '_') r
  | '0' :: r => isRun (fun c => ('0' ≤ c && c ≤ '7') || c = '_') r
  | c :: r =>
    if '1' ≤ c && c ≤ '9' then
      let rest := r.dropWhile isDigitOrBar
      rest.isEmpty || dropSixties cs.length false rest = some []
    else false
  | [] => false

/-- Nothing, or an exponent with its sign. -/
def isExponent : List Char → Bool
  | [] => true
  | e :: s :: r => (e = 'e' || e = 'E') && (s = '-' || s = '+') && isRun isDigit r
  | _ => false

def isFloat (cs : List Char) : Bool :=
  let unsigned := dropSign cs
  let special := String.ofList unsigned
  if [".inf", ".Inf", ".INF"].contains special then true
  else if [".nan", ".NaN", ".NAN"].contains (String.ofList cs) then true
  else match cs with
    | '.' :: d :: r => isDigit d && isExponent (r.dropWhile isDigitOrBar)
    | _ =>
      match unsigned with
      | d :: r =>
        isDigit d && match r.dropWhile isDigitOrBar with
          | '.' :: r => isExponent (r.dropWhile isDigitOrBar)
          | r => match dropSixties cs.length false r with
            | some ('.' :: r) => r.all isDigitOrBar
            | _ => false
      | [] => false

/-- What follows between `least` and `most` digits. -/
def dropDigits (least most : Nat) (cs : List Char) : Option (List Char) :=
  let n := ((cs.take most).takeWhile isDigit).length
  if least ≤ n then some (cs.drop n) else none

def dropChar (c : Char) : List Char → Option (List Char)
  | [] => none
  | d :: r => if d = c then some r else none

def isGap (c : Char) : Bool := c = ' ' || c = '\t'

/-- Nothing, or a zone after blanks. -/
def isZone (cs : List Char) : Bool :=
  cs.isEmpty || match cs.dropWhile isGap with
    | ['Z'] => true
    | s :: r =>
      (s = '-' || s = '+') && match dropDigits 1 2 r with
        | some [] => true
        | some r => ((dropChar ':' r).bind (dropDigits 2 2)) = some []
        | none => false
    | [] => false

def isTime (cs : List Char) : Bool :=
  let clock := do
    let r ← dropDigits 1 2 cs
    let r ← (dropChar ':' r).bind (dropDigits 2 2)
    (dropChar ':' r).bind (dropDigits 2 2)
  match clock with
  | some ('.' :: r) => isZone (r.dropWhile isDigit)
  | some r => isZone r
  | none => false

def isDate (cs : List Char) : Bool :=
  let day (least : Nat) := do
    let r ← dropDigits 4 4 cs
    let r ← (dropChar '-' r).bind (dropDigits least 2)
    (dropChar '-' r).bind (dropDigits least 2)
  day 2 = some [] || match day 1 with
    | some (c :: r) =>
      if c = 'T' || c = 't' then isTime r
      else isGap c && isTime (r.dropWhile isGap)
    | _ => false

/-- Whether a plain scalar would be read as something other than a text. -/
def isReserved (s : String) : Bool :=
  let cs := s.toList
  isBool s || isNull s || isMark s || isInt cs || isFloat cs || isDate cs

end Exemplar.Yaml
