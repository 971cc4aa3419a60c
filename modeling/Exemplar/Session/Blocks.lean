import Exemplar.Verb.Group

/-! Blocks that are opened and closed in any order.

Opening a group moves the cursor of its build, making a build current moves the current
build; closing the block restores what was there when it was opened, whatever happened since. -/
namespace Exemplar

/-- What closing a block restores. -/
inductive Block
  | group (b : BuildId) (outer : Option NodeId)
  | current (outer : Option BuildId)

structure Blocks where
  contexts : Bindings BuildId := []
  opened : Bindings Block := []

namespace Blocks

def unset {α : Type} (name : String) : Act α := Act.fault (.unsetName name)

def context (t : Blocks) (name : String) : Act BuildId :=
  match t.contexts.lookup name with
  | some b => pure b
  | none => unset name

/-- A new build under a name. -/
def add (t : Blocks) (name : String) : Act Blocks := do
  return { t with contexts := Bindings.set t.contexts name (← Act.newBuild) }

/-- Restores what was there when a block was opened. -/
def restore : Block → Act Unit
  | .group b outer => Act.setCursor b outer
  | .current outer => modify fun s => { s with building := outer }

/-- Keeps an open block under a name. A block that had the name ends. -/
def keep (t : Blocks) (name : String) (block : Block) : Act Blocks := do
  match t.opened.lookup name with
  | some old => restore old
  | none => pure ()
  return { t with opened := Bindings.set t.opened name block }

/-- Opens a group below the cursor of a build. -/
def openGroup (t : Blocks) (context block : String) (name : Value) : Act (Blocks × BuildId) := do
  let b ← t.context context
  let outer ← Act.build b
  let (forest, node) := outer.forest.add name outer.cursor
  Act.changeBuild b fun _ => { forest, cursor := some node }
  return (← t.keep block (.group b outer.cursor), b)

/-- Makes a build the current one. -/
def activate (t : Blocks) (context block : String) : Act Blocks := do
  let b ← t.context context
  let outer := (← get).building
  modify fun s => { s with building := some b }
  t.keep block (.current outer)

def close (t : Blocks) (block : String) : Act (Blocks × Option BuildId) := do
  match t.opened.lookup block with
  | none => unset block
  | some found =>
    restore found
    let b := match found with
      | .group b _ => some b
      | .current _ => none
    return ({ t with opened := t.opened.filter (·.1 ≠ block) }, b)

/-- The name under which the current build is known. -/
def current (t : Blocks) : Act (Option String) := do
  match (← get).building with
  | none => return none
  | some b => return (t.contexts.find? (·.2 = b)).map (·.1)

end Blocks

end Exemplar
