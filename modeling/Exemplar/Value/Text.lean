import Exemplar.Failure

/-! The text of values.

`shown` is the form that tells values apart, with texts in quotes; `toText` is the form for a
reader. They differ only for texts, fractions, decimals and errors. A container that is met
inside itself is written as dots. What has no text is an integer of more than 4300 digits, an
error of this library whose message is none, and an error whose text would be its own. -/
namespace Exemplar

def digitLimit : Nat := 4300

def intText (i : Int) : Except Failure String :=
  if i.natAbs.repr.length ≤ digitLimit then .ok (toString i) else .error (.fault .tooManyDigits)

/-- The order in which a set lists its items: integers ascend, other items stand as they were
added. -/
def setOrder (h : Heap) (items : List Value) : List Value :=
  if items.all fun v => (v.asInt? h).isSome then
    items.mergeSort fun a b => (a.asInt? h).getD 0 ≤ (b.asInt? h).getD 0
  else items

def commaJoin (parts : List String) : String := String.intercalate ", " parts

def tupleText (parts : List String) : String :=
  match parts with
  | [a] => "(" ++ a ++ ",)"
  | parts => "(" ++ commaJoin parts ++ ")"

def Fraction.text (x : Fraction) : Except Failure String := do
  let n ← intText x.num
  if x.den = 1 then return n
  return n ++ "/" ++ (← intText x.den)

/-- What stands for a container inside itself. -/
def Cell.dots : Cell → String
  | .list .. => "[...]"
  | .tuple .. => "(...)"
  | .mapping ordered _ => if ordered then "..." else "{...}"
  | .set frozen _ => if frozen then "frozenset(...)" else "set(...)"
  | _ => "..."

/-- Values nested deeper than `depth` have no text; `within` are the objects being written. A place
of the store that is still free is written as a procedure. -/
def Value.shownIn (h : Heap) : Nat → List Ref → Value → Except Failure String
  | _, _, .null => .ok "None"
  | _, _, .bool b => .ok (if b then "True" else "False")
  | _, _, .int i => intText i
  | _, _, .text s => .ok (Text.quote s)
  | _, _, .bytes bs => .ok (Text.quoteBytes bs)
  | _, _, .undefined => .ok "UNDEFINED"
  | _, _, .classOf c => .ok ("<class " ++ Text.quote c.name ++ ">")
  | _, _, .noop => .ok "<function noop>"
  | _, _, .verb v => .ok ("<function " ++ v.procedureName ++ ">")
  | _, _, .labelled label => .ok ("<function " ++ label ++ ">")
  | _, _, .native name => .ok ("<built-in function " ++ name ++ ">")
  | _, _, .foreign type => .ok ("<" ++ type ++ ">")
  | 0, _, .object _ => .error (.fault .nesting)
  | depth + 1, within, .object r =>
    match h.get? r with
    | none => .ok "<function>"
    | some cell =>
      if within.contains r then .ok cell.dots
      else
        let inner := shownIn h depth (r :: within)
        match cell with
        | .float x => .ok x.text
        | .fraction x => do
          return "Fraction(" ++ (← intText x.num) ++ ", " ++ (← intText x.den) ++ ")"
        | .decimal x => .ok ("Decimal('" ++ x.text ++ "')")
        | .complex z => .ok z.text
        | .ownText s => .ok (Text.quote s)
        | .ownInt i => intText i
        | .list _ items => do return "[" ++ commaJoin (← items.mapM inner) ++ "]"
        | .tuple _ items => do return tupleText (← items.mapM inner)
        | .mapping ordered entries => do
          if ordered then
            let parts ← entries.mapM fun (k, v) => do return tupleText [← inner k, ← inner v]
            return if parts.isEmpty then "OrderedDict()" else "OrderedDict([" ++ commaJoin parts ++ "])"
          else
            let parts ← entries.mapM fun (k, v) => do return (← inner k) ++ ": " ++ (← inner v)
            return "\x7b" ++ commaJoin parts ++ "\x7d"
        | .set frozen items => do
          let parts ← (setOrder h items).mapM inner
          let body := "\x7b" ++ commaJoin parts ++ "\x7d"
          return if frozen then (if parts.isEmpty then "frozenset()" else "frozenset(" ++ body ++ ")")
            else if parts.isEmpty then "set()" else body
        | .record c _ => .ok ("<" ++ c.name ++ ">")
        | .error kind args => do return kind.name ++ "(" ++ commaJoin (← args.mapM inner) ++ ")"
        | .procedure _ => .ok "<function>"
        | .element model fields => do
          let parts ← fields.mapM fun (n, v) => do return n ++ "=" ++ (← inner v)
          return model ++ "(" ++ commaJoin parts ++ ")"

/-- Enough depth for any value: objects met again are not entered. -/
def Value.shown (h : Heap) (v : Value) : Except Failure String := v.shownIn h (h.size + 1) []

/-- `kind(args)` as an expression. -/
def errorShown (h : Heap) (kind : ErrorKind) (args : List Value) : Except Failure String := do
  return kind.name ++ "(" ++ commaJoin (← args.mapM (·.shown h)) ++ ")"

/-- The text of an error is that of its only argument, or of all as a tuple. The argument of a
failed look-up is quoted, and an error of this library needs a text. -/
def errorText (h : Heap) (text : Value → Except Failure String) (kind : ErrorKind)
    (args : List Value) : Except Failure String :=
  match args with
  | [] => .ok ""
  | [a] =>
    if kind = .keyError then a.shown h
    else if kind.isLocated && (a.asText? h).isNone then .error (.fault (.notText (a.fullTypeName h)))
    else text a
  | args => do return tupleText (← args.mapM (·.shown h))

def Value.toTextIn (h : Heap) : Nat → Value → Except Failure String
  | 0, _ => .error (.fault .nesting)
  | depth + 1, v =>
    match v, h.cell? v with
    | .text s, _ => .ok s
    | _, some (.ownText s) => .ok s
    | _, some (.fraction x) => x.text
    | _, some (.decimal x) => .ok x.text
    | _, some (.error kind args) => errorText h (toTextIn h depth) kind args
    | _, _ => v.shown h

def Value.toText (h : Heap) (v : Value) : Except Failure String := v.toTextIn h (h.size + 1)

/-- The texts of a list of values, joined; all of them must be texts. -/
def joinTexts (h : Heap) (separator : String) (parts : List Value) : Except Failure String :=
  let rec collect (index : Nat) : List Value → Except Failure (List String)
    | [] => .ok []
    | v :: rest =>
      match v.asText? h with
      | some s => (collect (index + 1) rest).map (s :: ·)
      | none => .error (.fault (.joinItem index (v.fullTypeName h)))
  (collect 0 parts).map (String.intercalate separator)

end Exemplar
