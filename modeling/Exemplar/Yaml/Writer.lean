import Exemplar.Yaml.Style

/-! Writing scalars line by line.

The writer knows the column and whether it stands behind white space or inside an indent. A
scalar is folded at a single blank once the line is longer than 80 characters. -/
namespace Exemplar.Yaml

structure Writer where
  /-- What is written, last character first. -/
  output : List Char := []
  column : Nat := 0
  /-- The last character separates. -/
  spaced : Bool := true
  /-- Only the indent and indicators stand on the line. -/
  indented : Bool := true
  /-- The document ends in a plain scalar and needs a mark. -/
  openEnded : Bool := false

def lineWidth : Nat := 80

/-- The indent of one level. -/
def indentStep : Nat := 2

namespace Writer

/-- Characters as they are. -/
def put (w : Writer) (cs : List Char) : Writer :=
  { w with output := cs.reverse ++ w.output, column := w.column + cs.length }

def lineBreak (w : Writer) (c : Char) : Writer :=
  { w with output := c :: w.output, column := 0, spaced := true, indented := true }

/-- A new line where the current one is in use, and blanks up to the indent. -/
def indent (w : Writer) (n : Nat) : Writer :=
  let w := if !w.indented || n < w.column || (w.column = n && !w.spaced) then w.lineBreak '\n' else w
  if w.column < n then { w.put (List.replicate (n - w.column) ' ') with spaced := true } else w

/-- An indicator, behind a blank if it needs one. -/
def indicator (w : Writer) (text : String) (needsBlank : Bool) (spaced indents : Bool) : Writer :=
  let cs := if w.spaced || !needsBlank then text.toList else ' ' :: text.toList
  { w.put cs with spaced, indented := w.indented && indents, openEnded := false }

/-- A run of one kind of character at a time. -/
def chunks (kind : Char → Nat) : Nat → List Char → List (List Char)
  | 0, _ => []
  | more + 1, cs =>
    match cs with
    | [] => []
    | c :: _ =>
      let same (d : Char) : Bool := kind d = kind c
      cs.takeWhile same :: chunks kind more (cs.dropWhile same)

/-- Blanks, breaks and other characters. -/
def blankKind (c : Char) : Nat := if c = ' ' then 0 else if isBreak c then 1 else 2

/-- Words and the blanks between them; a single blank may become a new line. -/
def plainChunks (w : Writer) (level : Nat) (split : Bool) : List (List Char) → Writer
  | [] => w
  | run :: rest =>
    let w :=
      if run = [' '] && !rest.isEmpty && lineWidth < w.column && split then
        { w.indent level with spaced := false, indented := false }
      else w.put run
    w.plainChunks level split rest

/-- A plain scalar; `root` when it is the whole document. -/
def plain (w : Writer) (level : Nat) (split root : Bool) (cs : List Char) : Writer :=
  let w := { w with openEnded := w.openEnded || root }
  if cs.isEmpty then w
  else
    let w := if w.spaced then w else w.put [' ']
    { w with spaced := false, indented := false }.plainChunks level split
      (chunks blankKind cs.length cs)

def doubleQuotes (cs : List Char) : List Char :=
  cs.flatMap fun c => if c = '\'' then ['\'', '\''] else [c]

/-- A break inside quotes is written twice, since one alone folds into a blank. -/
def quotedBreaks (w : Writer) (level : Nat) (run : List Char) : Writer :=
  let w := if run.head? = some '\n' then w.lineBreak '\n' else w
  (run.foldl lineBreak w).indent level

/-- The runs between single quotes; `first` for the run at the start. -/
def singleChunks (w : Writer) (level : Nat) (split first : Bool) : List (List Char) → Writer
  | [] => w
  | run :: rest =>
    let w :=
      match run.head? with
      | some ' ' =>
        if run = [' '] && !rest.isEmpty && !first && lineWidth < w.column && split then w.indent level
        else w.put run
      | some c => if isBreak c then w.quotedBreaks level run else w.put (doubleQuotes run)
      | none => w
    w.singleChunks level split false rest

def single (w : Writer) (level : Nat) (split : Bool) (cs : List Char) : Writer :=
  let w := w.indicator "'" true false false
  (w.singleChunks level split true (chunks blankKind cs.length cs)).indicator "'" false false false

def hexUpper (width n : Nat) : List Char := (Text.hexDigits width n).map Char.toUpper

/-- The escape of a character that double quotes do not hold as it is. -/
def escape? (c : Char) : Option (List Char) :=
  let n := c.toNat
  let short : Option Char :=
    if n = 0 then some '0' else if n = 7 then some 'a' else if n = 8 then some 'b'
    else if n = 9 then some 't' else if n = 10 then some 'n' else if n = 11 then some 'v'
    else if n = 12 then some 'f' else if n = 13 then some 'r' else if n = 27 then some 'e'
    else if c = '"' then some '"' else if c = '\\' then some '\\' else if n = 0x85 then some 'N'
    else if n = 0x2028 then some 'L' else if n = 0x2029 then some 'P' else none
  match short with
  | some d => some ['\\', d]
  | none =>
    if (0x20 ≤ n && n ≤ 0x7e) || (0xa0 ≤ n && n ≤ 0xd7ff) ||
      (0xe000 ≤ n && n ≤ 0xfffd && n ≠ 0xfeff) then none
    else if n ≤ 0xff then some ('\\' :: 'x' :: hexUpper 2 n)
    else if n ≤ 0xffff then some ('\\' :: 'u' :: hexUpper 4 n)
    else some ('\\' :: 'U' :: hexUpper 8 n)

/-- The characters between double quotes. `pending` are characters not yet written, last
first. A long line is broken by a backslash behind an escape, before a blank, or where nothing
is pending, but not before the second and not before the last character. -/
def doubleChars (w : Writer) (level : Nat) (split first : Bool) (pending : List Char) :
    List Char → Writer
  | [] => w.put pending.reverse
  | c :: rest =>
    let mayFold := !first && !rest.isEmpty && split
    match escape? c with
    | some e =>
      let w := (w.put pending.reverse).put e
      let w :=
        if mayFold && lineWidth + 1 < w.column then
          let w := { (w.put ['\\']).indent level with spaced := false, indented := false }
          if rest.head? = some ' ' then w.put ['\\'] else w
        else w
      w.doubleChars level split false [] rest
    | none =>
      if mayFold && (c = ' ' || pending.isEmpty) && lineWidth < w.column + pending.length then
        let w := w.put (pending.reverse ++ ['\\'])
        let w := { w.indent level with spaced := false, indented := false }
        let w := if c = ' ' then w.put ['\\'] else w
        w.doubleChars level split false [c] rest
      else w.doubleChars level split false (c :: pending) rest

def double (w : Writer) (level : Nat) (split : Bool) (cs : List Char) : Writer :=
  let w := w.indicator "\"" true false false
  (w.doubleChars level split true [] cs).indicator "\"" false false false

/-- Lines of a block, each on its own at the indent. -/
def blockLines (w : Writer) (level : Nat) : List (List Char) → Writer
  | [] => w
  | run :: rest =>
    let w :=
      match run.head? with
      | some c => if isBreak c then run.foldl lineBreak w else (w.indent level).put run
      | none => w
    w.blockLines level rest

/-- A literal block that ends in one line break. -/
def literal (w : Writer) (level : Nat) (cs : List Char) : Writer :=
  let w := (w.indicator "|" true false false).lineBreak '\n'
  w.blockLines level (chunks (fun c => if isBreak c then 1 else 2) cs.length cs)

def scalar (w : Writer) (level : Nat) (asKey root : Bool) (s : Scalar) : Writer :=
  let cs := s.content
  let w := match s.tag with
    | some tag => w.indicator tag true false false
    | none => w
  match s.styleOf asKey with
  | .plain => w.plain level (!asKey) root cs
  | .single => w.single level (!asKey) cs
  | .double => w.double level (!asKey) cs
  | .literal => w.literal level cs

end Writer

end Exemplar.Yaml
