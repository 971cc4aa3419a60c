import Exemplar.Yaml.Node
import Exemplar.Yaml.Implicit

/-! How a scalar is written.

A text is written plain where nothing in it could be taken for structure or for another type,
in single quotes where it can be folded safely, and in double quotes otherwise (`styleOf`).
Binary data is a literal block of base64 lines. -/
namespace Exemplar.Yaml

def isBreak (c : Char) : Bool :=
  c = '\n' || c.toNat = 0x85 || c.toNat = 0x2028 || c.toNat = 0x2029

/-- A character that separates an indicator from what follows it. -/
def isSeparator (c : Char) : Bool :=
  isBreak c || c.toNat = 0 || c = ' ' || c = '\t' || c = '\r'

/-- Characters that can only be written as escapes. -/
def isSpecial (c : Char) : Bool :=
  let n := c.toNat
  !(n = 0x0a || (0x20 ≤ n && n ≤ 0x7e) || n = 0x85 || (0xa0 ≤ n && n ≤ 0xd7ff) ||
    (0xe000 ≤ n && n ≤ 0xfffd && n ≠ 0xfeff) || (0x10000 ≤ n && n < 0x10ffff))

/-- What matters about a text for the choice of its style. -/
structure Analysis where
  multiline : Bool
  allowPlain : Bool
  allowSingle : Bool
  allowBlock : Bool
deriving DecidableEq, Repr

/-- Whether an indicator at the head of the text would be taken for structure. -/
def leadingIndicator : List Char → Bool
  | [] => false
  | c :: rest =>
    let followed := match rest with
      | [] => true
      | d :: _ => isSeparator d
    "#,[]\x7b\x7d&*!|>'\"%@`".toList.contains c || ((c = '?' || c = ':' || c = '-') && followed)

/-- Whether an indicator after `before` would be taken for structure. -/
def innerIndicator (before : Char) : List Char → Bool
  | [] => false
  | c :: rest =>
    let followed := match rest with
      | [] => true
      | d :: _ => isSeparator d
    (c = ':' && followed) || (c = '#' && isSeparator before) || innerIndicator c rest

/-- Whether two characters of the kinds `p` and `q` follow each other. -/
def hasPair (p q : Char → Bool) : List Char → Bool
  | a :: b :: rest => (p a && q b) || hasPair p q (b :: rest)
  | _ => false

def analyze (cs : List Char) : Analysis :=
  match cs with
  | [] => ⟨false, true, true, false⟩
  | first :: rest =>
    let last := cs.getLastD ' '
    let isBlank (c : Char) : Bool := c = ' '
    let indicators := cs.take 3 = ['-', '-', '-'] || cs.take 3 = ['.', '.', '.'] ||
      leadingIndicator cs || innerIndicator first rest
    let edges := isBlank first || isBreak first || isBlank last || isBreak last
    let breakBlank := hasPair isBreak isBlank cs
    let special := hasPair isBlank isBreak cs || cs.any isSpecial
    let multiline := cs.any isBreak
    ⟨multiline, !(indicators || edges || breakBlank || special || multiline),
      !(breakBlank || special), !(isBlank last || special)⟩

inductive ScalarStyle
  | plain | single | double | literal
deriving DecidableEq, Repr

def base64Digit (n : Nat) : Char :=
  "ABCDEFGHIJKLMNOPQRSTUVWXYZabcdefghijklmnopqrstuvwxyz0123456789+/".toList.getD n 'A'

/-- Three bytes are four digits; a shorter end is padded. -/
def base64 : List UInt8 → List Char
  | a :: b :: c :: rest =>
    let n := a.toNat * 65536 + b.toNat * 256 + c.toNat
    base64Digit (n / 262144) :: base64Digit (n / 4096 % 64) :: base64Digit (n / 64 % 64) ::
      base64Digit (n % 64) :: base64 rest
  | [a, b] =>
    let n := a.toNat * 1024 + b.toNat * 4
    [base64Digit (n / 4096), base64Digit (n / 64 % 64), base64Digit (n % 64), '=']
  | [a] =>
    let n := a.toNat * 16
    [base64Digit (n / 64), base64Digit (n % 64), '=', '=']
  | [] => []

/-- Lines of 76 digits, each with its break. -/
def base64Lines : Nat → List Char → List Char
  | 0, _ => []
  | more + 1, cs => if cs.isEmpty then [] else cs.take 76 ++ '\n' :: base64Lines more (cs.drop 76)

namespace Scalar

/-- The characters a scalar is written with. -/
def content : Scalar → List Char
  | text s => s.toList
  | form s => s.toList
  | binary bytes =>
    let digits := base64 bytes
    base64Lines digits.length digits

/-- The mark in front of a scalar whose type its form does not show. -/
def tag : Scalar → Option String
  | binary _ => some "!!binary"
  | _ => none

/-- The length of the type's mark, shown or not. -/
def tagLength : Scalar → Nat
  | text _ => 5
  | binary _ => 8
  | form s => if isBool s || isNull s then 6 else if isFloat s.toList then 7 else 5

def styleOf (s : Scalar) (asKey : Bool) : ScalarStyle :=
  let cs := s.content
  let a := analyze cs
  let byPlain := match s with
    | text t => !isReserved t
    | form _ => true
    | binary _ => false
  match s with
  | binary _ => if !asKey && a.allowBlock then .literal else .double
  | _ =>
    if byPlain && !(asKey && (cs.isEmpty || a.multiline)) && a.allowPlain then .plain
    else if a.allowSingle && !(asKey && a.multiline) then .single
    else .double

/-- Short scalars of one line can stand before a colon. -/
def isSimpleKey (s : Scalar) : Bool :=
  let cs := s.content
  s.tagLength + cs.length < 128 && !cs.isEmpty && !(analyze cs).multiline

end Scalar

end Exemplar.Yaml
