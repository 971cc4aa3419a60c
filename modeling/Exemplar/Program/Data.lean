/-! Plain trees of data, in which programs and values are exchanged. -/
namespace Exemplar

inductive Data
  | null
  | bool (b : Bool)
  | int (i : Int)
  | text (s : String)
  | list (items : List Data)
  | record (fields : List (String × Data))

instance : Inhabited Data := ⟨.null⟩

namespace Data

mutual

/-- How deep the tree is. -/
def depth : Data → Nat
  | list items => depthOfItems items + 1
  | record fields => depthOfFields fields + 1
  | _ => 1

def depthOfItems : List Data → Nat
  | [] => 0
  | d :: ds => max (depth d) (depthOfItems ds)

def depthOfFields : List (String × Data) → Nat
  | [] => 0
  | (_, d) :: ds => max (depth d) (depthOfFields ds)

end

def field? : Data → String → Option Data
  | record fields, name => fields.lookup name
  | _, _ => none

def fields? : Data → Option (List (String × Data))
  | record fields => some fields
  | _ => none

def items? : Data → Option (List Data)
  | list items => some items
  | _ => none

def text? : Data → Option String
  | text s => some s
  | _ => none

def nat? : Data → Option Nat
  | int i => if 0 ≤ i then some i.toNat else none
  | _ => none

/-- The text under a name. -/
def textOf? (d : Data) (name : String) : Option String := (d.field? name).bind text?

/-- Whether there is a true value under a name. -/
def flag (d : Data) (name : String) : Bool :=
  match d.field? name with
  | some (bool b) => b
  | _ => false

/-- The items under a name; none if nothing is there. -/
def itemsOf? (d : Data) (name : String) : Option (List Data) :=
  match d.field? name with
  | some v => v.items?
  | none => some []

def pair? : Data → Option (Data × Data)
  | list [a, b] => some (a, b)
  | _ => none

/-- A name: a text, or a number in its place. -/
def name? : Data → Option String
  | text s => some s
  | int i => some (toString i)
  | _ => none

end Data

end Exemplar
