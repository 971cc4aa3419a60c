import Exemplar.Value.Text

/-! Arguments of parameterized specs: their text and the call they make.

A list or tuple stands for several arguments. Its text is that of its items, joined by commas
without blanks, at any depth; nothing marks where one list ends and the next begins. -/
namespace Exemplar

def argumentSeparator : String := ","

def Value.argumentTextIn (h : Heap) : Nat → Value → Except Failure String
  | 0, _ => .error (.fault .nesting)
  | depth + 1, v =>
    match v.items? h with
    | some items => (items.mapM (argumentTextIn h depth)).map (String.intercalate argumentSeparator)
    | none => v.toText h

/-- Only a list inside itself is nested deeper than there are objects. -/
def Value.argumentText (h : Heap) (v : Value) : Except Failure String := v.argumentTextIn h (h.size + 1)

/-- The positional arguments that an argument stands for. -/
def Value.spread (h : Heap) (v : Value) : List Value := (v.items? h).getD [v]

end Exemplar
