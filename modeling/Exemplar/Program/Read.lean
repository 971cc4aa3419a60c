import Exemplar.Program.Data
import Exemplar.Program.Syntax

/-! Reading programs from data.

Data stands for itself, except that a record with the field `$` is a term of the sort that the
field names. A body is a list of steps, or a record with its arity or its value; a step is a
record whose field `do` says what it does. -/
namespace Exemplar

def hexValue (c : Char) : Nat :=
  if c.isDigit then c.toNat - '0'.toNat else c.toLower.toNat - 'a'.toNat + 10

def bytesOfHex : List Char → List UInt8
  | a :: b :: rest => UInt8.ofNat (hexValue a * 16 + hexValue b) :: bytesOfHex rest
  | _ => []

def Style.ofName? : String → Option Style
  | "param" => some .param
  | "varargs" => some .varargs
  | "callable" => some .callable
  | "partial" => some .applied
  | "bare" => some .bare
  | "default" => some .default
  | "method" => some .method
  | "helper" => some .helper
  | _ => none

def EngineKind.ofName? : String → Option EngineKind
  | "sync" => some .sync
  | "collecting" => some .collecting
  | "item" => some .item
  | "recording" => some .recording
  | _ => none

namespace Data

def class? (d : Data) : Option ObjectClass := (d.textOf? "class").bind ObjectClass.ofName?

def errorKind? (d : Data) : Option ErrorKind := (d.textOf? "kind").bind ErrorKind.ofName?

def style? (d : Data) : Option Style := Style.ofName? ((d.textOf? "style").getD "param")

/-- The value written as the text under `v`. -/
def written? {α : Type} (d : Data) (read : List Char → Option α) : Option α :=
  (d.textOf? "v").bind fun s => read s.toList

def engine? (d : Data) : Option EngineChoice :=
  match d.textOf? "engine" with
  | none => some (.fresh .sync)
  | some "current" => some .current
  | some s => (EngineKind.ofName? s).map .fresh

/-- Data that stands for itself throughout. -/
def plain (depth : Nat) (d : Data) : Term :=
  match depth, d with
  | _, null => .null
  | _, bool b => .bool b
  | _, int i => .int i
  | _, text s => .text s
  | 0, _ => .null
  | depth + 1, list items => .list false (items.map (plain depth))
  | depth + 1, record fields => .mapping false (fields.map fun (n, v) => (.text n, plain depth v))

end Data

mutual

/-- Reads a term from data at most `depth` deep. -/
def Term.readIn : Nat → Data → Option Term
  | 0, _ => none
  | depth + 1, d =>
    let terms (ds : List Data) : Option (List Term) := ds.mapM (Term.readIn depth)
    let items (_ : Unit) : Option (List Term) := (d.itemsOf? "items").bind terms
    let entries (_ : Unit) : Option (List (Term × Term)) := do
      (← d.itemsOf? "items").mapM fun e => do
        let (k, v) ← e.pair?
        return (← Term.readIn depth k, ← Term.readIn depth v)
    match d with
    | .null => some .null
    | .bool b => some (.bool b)
    | .int i => some (.int i)
    | .text s => some (.text s)
    | .list ds => (terms ds).map (.list false)
    | .record _ =>
      match d.textOf? "$" with
      | none => do
        let fields ← (← (← d.field? "data").fields?).mapM fun (n, v) => do
          return (n, ← Term.readIn depth v)
        return .element (← d.textOf? "model") fields
      | some "int" => (d.written? readInt?).map .int
      | some "float" => (d.written? Binary64.read?).map .float
      | some "fraction" => (d.written? Fraction.read?).map .fraction
      | some "decimal" => (d.written? Decimal.read?).map .decimal
      | some "complex" => (d.written? Complex.read?).map .complex
      | some "mystr" => (d.textOf? "v").map .ownText
      | some "myint" => (d.written? readInt?).map .ownInt
      | some "tuple" => (items ()).map (.tuple false)
      | some "mytuple" => (items ()).map (.tuple true)
      | some "mylist" => (items ()).map (.list true)
      | some "set" => (items ()).map (.set false)
      | some "frozenset" => (items ()).map (.set true)
      | some "dict" => (entries ()).map (.mapping false)
      | some "odict" => (entries ()).map (.mapping true)
      | some "bytes" => (d.textOf? "hex").map fun s => .bytes (bytesOfHex s.toList)
      | some "undefined" => some .undefined
      | some "obj" => do
        let attributes ← (← d.itemsOf? "attrs").mapM fun e => do
          let (n, v) ← e.pair?
          return (← n.text?, ← Term.readIn depth v)
        return .object (← d.class?) attributes
      | some "class" => d.class?.map .classOf
      | some "exception" => do return .error (← d.errorKind?) (← terms (← d.itemsOf? "args"))
      | some "def" => do
        return .define (← (← d.field? "id").name?) (← Term.readIn depth (← d.field? "value"))
      | some "ref" => do return .reference (← (← d.field? "id").name?)
      | some "fn" => (Body.readIn depth (d.field? "fn")).map .procedure
      | some "var" => (d.textOf? "name").map .variable
      | some "arg" => do return .argument (← (← d.field? "index").nat?)
      | some "args" => some .arguments
      | some "shortcut" => (d.textOf? "name").map .shortcut
      | some _ => none

/-- Reads what stands where a procedure is expected; it may be left out. -/
def Body.readIn : Nat → Option Data → Option Body
  | _, none => some .absent
  | 0, some _ => none
  | depth + 1, some d =>
    match d with
    | .null => some .absent
    | .list steps => (steps.mapM (Step.readIn depth)).map (.script none)
    | d =>
      match d.field? "value" with
      | some v => (Term.readIn depth v).map .value
      | none => do
        let steps ← (← d.itemsOf? "steps").mapM (Step.readIn depth)
        return .script ((d.field? "arity").bind Data.nat?) steps

/-- Reads a step. Terms that are left out are null. -/
def Step.readIn : Nat → Data → Option Step
  | 0, _ => none
  | depth + 1, d =>
    let term (n : String) : Option Term :=
      match d.field? n with
      | some v => Term.readIn depth v
      | none => some .null
    let body (n : String) : Option Body := Body.readIn depth (d.field? n)
    /- A hook that is left out does nothing. -/
    let hook (n : String) : Option Body :=
      if (d.field? n).isSome then body n else some (.script none [])
    let terms (n : String) : Option (List Term) := do (← d.itemsOf? n).mapM (Term.readIn depth)
    let steps (n : String) : Option (List Step) := do (← d.itemsOf? n).mapM (Step.readIn depth)
    let subject (_ : Unit) : Option (Option Term) := (d.field? "subject").mapM (Term.readIn depth)
    let named (_ : Unit) : Option (List (String × Term)) := do
      (← ((d.field? "kwargs").getD (.record [])).fields?).mapM fun (n, v) => do
        return (n, ← Term.readIn depth v)
    let name (_ : Unit) : Option String := d.textOf? "name"
    let verb (_ : Unit) : Option String := d.textOf? "verb"
    let via := d.textOf? "via"
    let logged := d.flag "log"
    let saveAs := d.textOf? "as"
    match d.textOf? "do" with
    | some "describe" => do return .describe via (← term "name") (← body "fn") logged
    | some "before" => do return .before via (← body "fn") logged
    | some "after" => do return .after via (← body "fn") logged
    | some "it" => do return .it via (← term "description") (← body "fn") logged
    | some "given" => do
      let its ← (← d.itemsOf? "its").mapM fun e => do
        let description ← match e.field? "description" with
          | some v => Term.readIn depth v
          | none => some .null
        return (description, ← Body.readIn depth (e.field? "fn"))
      return .given via (← terms "args") its logged
    | some "assert" => do
      return .assert via (← subject ()) (← verb ()) (← terms "args") (← named ()) logged
    | some "shortcut" => do return .shortcut via (← verb ()) (← terms "args") (← named ()) logged
    | some "bind" => do return .bind via (← name ()) (← subject ())
    | some "call" => do return .call (← name ()) (← verb ()) (← terms "args") (← named ()) logged
    | some "take" => do return .take (← name ()) (← verb ()) (← saveAs)
    | some "invoke" => do return .invoke (← name ()) (← terms "args") (← named ()) logged
    | some "wait" => do return .wait via (← term "ms") (← body "fn")
    | some "report" => do return .report (← term "passed") (← terms "message").head?
    | some "extend" => do
      let verbs ← (← d.itemsOf? "verbs").mapM fun e => do
        return (← Term.readIn depth (← e.field? "name"), ← Body.readIn depth (e.field? "fn"),
          ← (e.field? "aliases").mapM (Term.readIn depth))
      return .extend verbs (d.flag "definitions")
    | some "raise" => do return .raise (← d.errorKind?) (← terms "args")
    | some "try" => do return .attempt (← steps "steps")
    | some "thread" => do return .thread (← steps "steps")
    | some "log" => (term "value").map .log
    | some "set" => do return .set (← name ()) (← term "value")
    | some "add" => do return .add (← name ()) (← term "value")
    | some "push" => do return .push (← name ()) (← term "value")
    | some "cursor" => some .cursor
    | some "forest" => some .forest
    | some "verbs" => some (.verbs via)
    | some "global_api" => (term "value").map .globalMode
    | some "build" => do return .build (← steps "builder") (← d.style?) saveAs
    | some "specify" => do
      return .specify (← term "name") (← steps "builder") (← d.style?) saveAs (← d.engine?)
    | some "set_title" => (term "title").map .setTitle
    | some "declare_group" => do
      return .declareGroup (← term "name") (← hook "setup") (← hook "teardown")
    | some "run_test" => do return .runTest (← term "description") (← body "fn")
    | some "pause" => some .pause
    | some "resume" => some .resume
    | _ => none

end

def Term.read? (d : Data) : Option Term := Term.readIn (d.depth + 1) d

def Body.read? (d : Option Data) : Option Body := Body.readIn (((d.map Data.depth).getD 0) + 1) d

def Step.read? (d : Data) : Option Step := Step.readIn (d.depth + 1) d

end Exemplar
