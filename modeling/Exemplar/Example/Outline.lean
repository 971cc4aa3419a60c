import Exemplar.Example.Forest

/-! Outlines: what an example tree declares, without its hooks and bodies. -/
namespace Exemplar

/-- A group with its spec descriptions and the outlines of its groups. -/
inductive Outline
  | group (name : Value) (specs : List String) (groups : List Outline)
deriving Inhabited

def Forest.outlineIn (f : Forest) : Nat → NodeId → Outline
  | 0, n => .group ((f.node? n).map (·.name) |>.getD .null) [] []
  | depth + 1, n =>
    match f.node? n with
    | some node => .group node.name (node.specs.map (·.description)) (node.children.map (outlineIn f depth))
    | none => .group .null [] []

def Forest.outline (f : Forest) (n : NodeId) : Outline := f.outlineIn f.size n

/-- The outlines of the roots. -/
def Forest.outlines (f : Forest) : List Outline := f.roots.map f.outline

namespace Outline

mutual

/-- The outline as a mapping; empty lists are left out. -/
def toValue (h : Heap) : Outline → Heap × Value
  | .group name specs groups =>
    let (h, its) :=
      if specs.isEmpty then (h, [])
      else
        let (h, v) := h.alloc (.list false (specs.map .text))
        (h, [(Value.text "it", v)])
    let (h, vs) := toValues h groups
    let (h, examples) :=
      if vs.isEmpty then (h, [])
      else
        let (h, v) := h.alloc (.list false vs)
        (h, [(Value.text "examples", v)])
    h.alloc (.mapping false ((.text "describe", name) :: its ++ examples))

def toValues (h : Heap) : List Outline → Heap × List Value
  | [] => (h, [])
  | o :: os =>
    let (h, v) := toValue h o
    let (h, vs) := toValues h os
    (h, v :: vs)

end

end Outline

end Exemplar
