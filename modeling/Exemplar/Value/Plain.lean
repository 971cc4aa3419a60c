import Exemplar.Failure

/-! Plain data: what an error shows of a value.

Mappings become new mappings with the same keys, lists and tuples become new lists, texts,
numbers and truth values stay as they are, and anything else is replaced by a placeholder. -/
namespace Exemplar

def placeholder : String := "<runtime object>"

/-- Runs `f` over the list from the left, passing the store on. -/
def mapHeap {α β : Type} (f : Heap → α → Except Failure (Heap × β)) :
    Heap → List α → Except Failure (Heap × List β)
  | h, [] => .ok (h, [])
  | h, a :: as => do
    let (h, b) ← f h a
    let (h, bs) ← mapHeap f h as
    return (h, b :: bs)

def Value.plainIn : Nat → Heap → Value → Except Failure (Heap × Value)
  | 0, _, _ => .error (.fault .nesting)
  | depth + 1, h, v =>
    match v, h.cell? v with
    | .null, _ | .bool _, _ | .int _, _ | .text _, _ | .bytes _, _ => .ok (h, v)
    | _, some (.ownText _) | _, some (.ownInt _) | _, some (.float _) => .ok (h, v)
    | _, some (.mapping _ entries) => do
      let (h, values) ← mapHeap (plainIn depth) h (entries.map (·.2))
      return h.alloc (.mapping false ((entries.map (·.1)).zip values))
    | _, some (.list _ items) | _, some (.tuple _ items) => do
      let (h, items) ← mapHeap (plainIn depth) h items
      return h.alloc (.list false items)
    | _, _ => .ok (h, .text placeholder)

def Value.plain (h : Heap) (v : Value) : Except Failure (Heap × Value) := v.plainIn (h.size + 1) h

end Exemplar
