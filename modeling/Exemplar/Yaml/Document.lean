import Exemplar.Yaml.Writer

/-! Documents in block layout.

A mapping has one key a line, with its value behind a colon; items of a sequence stand behind
a dash. A sequence under a key is not indented further. Empty containers are written in
brackets, and a key too long for its line is marked with a question mark. -/
namespace Exemplar.Yaml

def anchorName (n : Nat) : String :=
  "id" ++ String.ofList (List.replicate (3 - n.repr.length) '0') ++ n.repr

/-- Where a node stands. -/
inductive Position
  | root | item | value | key
deriving DecidableEq

def Node.isSimpleKey : Node → Bool
  | .ref _ => true
  | .scalar s => s.isSimpleKey
  | .sequence _ items => items.isEmpty
  | .mapping _ _ entries => entries.isEmpty

/-- One level further in; the outermost block starts at the margin. -/
def deeper : Option Nat → Nat
  | none => 0
  | some n => n + indentStep

/-- The level of the continuation lines of a scalar. -/
def scalarLevel : Option Nat → Nat
  | none => indentStep
  | some n => n + indentStep

def Writer.anchor (w : Writer) : Option Nat → Writer
  | some n => w.indicator ("&" ++ anchorName n) true false false
  | none => w

mutual

/-- Writes a node inside a block at the level `level`. -/
def Node.write (level : Option Nat) (position : Position) (w : Writer) : Node → Writer
  | .ref n => w.indicator ("*" ++ anchorName n) true false false
  | .scalar s => w.scalar (scalarLevel level) (position = .key) (position = .root) s
  | .sequence anchor items =>
    let w := w.anchor anchor
    match items with
    | [] => (w.indicator "[" true true false).indicator "]" false false false
    | items =>
      let level := if position = .value && !w.indented then level.getD 0 else deeper level
      writeItems level w items
  | .mapping anchor isSet entries =>
    let w := w.anchor anchor
    let w := if isSet then w.indicator "!!set" true false false else w
    match entries with
    | [] => (w.indicator "\x7b" true true false).indicator "\x7d" false false false
    | entries => writeEntries (deeper level) w entries

def writeItems (level : Nat) (w : Writer) : List Node → Writer
  | [] => w
  | n :: ns =>
    let w := (w.indent level).indicator "-" true false true
    writeItems level (n.write (some level) .item w) ns

def writeEntries (level : Nat) (w : Writer) : List (Node × Node) → Writer
  | [] => w
  | (k, v) :: rest =>
    let w := w.indent level
    let w :=
      if k.isSimpleKey then
        (k.write (some level) .key w).indicator ":" false false false
      else
        let w := w.indicator "?" true false true
        ((k.write (some level) .value w).indent level).indicator ":" true false true
    writeEntries level (v.write (some level) .value w) rest

end

/-- The text of a document. A document that is one plain scalar ends in a mark. -/
def Node.render (n : Node) : String :=
  let w := (n.write none .root {}).indent 0
  let w := if w.openEnded then (w.indicator "..." true false false).indent 0 else w
  String.ofList w.output.reverse

/-- The document of a value. -/
def dump (h : Heap) (v : Value) : Except Failure String := do
  return (← Node.ofValue? h v).render

end Exemplar.Yaml
