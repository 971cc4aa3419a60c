import Exemplar.Session.Basic

/-! What terms denote.

Every term that makes an object makes a new one. A container that gets a name is known by it
before its items are read, so that it can contain itself. -/
namespace Exemplar

/-- What a script sees of its surroundings: the builder of the specification it was written in
and the arguments it was called with. -/
structure Frame where
  builder : Option BuildId := none
  args : List Value := []

namespace Act

def remember (name : Option String) (v : Value) : Act Unit :=
  match name with
  | none => pure ()
  | some n => modify fun s => { s with names := Bindings.set s.names n v }

def setCell (v : Value) (c : Cell) : Act Unit :=
  match v with
  | .object r => modify fun s => { s with heap := s.heap.set r c }
  | _ => pure ()

def readVariable (name : String) : Act Value := do
  match (← get).stored.lookup name with
  | some v => return v
  | none => fault (.unsetName name)

def setVariable (name : String) (v : Value) : Act Unit :=
  modify fun s => { s with stored := Bindings.set s.stored name v }

/-- Fails if the value can not be a key. -/
def requireHashable (v : Value) : Act Unit := do
  let h := (← get).heap
  match v.unhashable? h h.depth with
  | some part => fault (.unhashable (part.fullTypeName h))
  | none => pure ()

/-- Adds an entry to a mapping. A key that is known keeps its place and gets the new value. -/
def putEntry (entries : List (Value × Value)) (k v : Value) : Act (List (Value × Value)) := do
  requireHashable k
  match ← reading fun h => findEntry (·.sameItem h) k (entries.map fun (k, _) => (k, k)) with
  | some known => return entries.map fun (k', v') => if k' = known then (k', v) else (k', v')
  | none => return entries ++ [(k, v)]

/-- Adds an item to a set. -/
def putItem (items : List Value) (v : Value) : Act (List Value) := do
  requireHashable v
  if ← reading fun h => anyItem (·.sameItem h) v items then return items else return items ++ [v]

/-- An error object. The errors of this library are made with one message. -/
def makeError (kind : ErrorKind) (args : List Value) : Act Value := do
  checkArguments kind args
  alloc (.error kind args)
where
  checkArguments (kind : ErrorKind) (args : List Value) : Act Unit :=
    if kind.isLocated then
      let owner := if kind = .pluginError then "PluginError" else "DSLError"
      match args with
      | [_] => pure ()
      | [] => fault (.call (owner ++ ".__init__") (.missing ["message"] false))
      | args => fault (.call (owner ++ ".__init__") (.tooMany 2 2 (args.length + 1) 0))
    else pure ()

/-- The verbs that the asserter itself has. -/
def asserterVerbs : List String := ["pass_", "fail"]

def shortcut (verb : String) : Act Value :=
  if asserterVerbs.contains verb then alloc (.procedure (.shortcut verb))
  else fault (.noAttribute "Asserter" verb)

/-- An element made from its fields. -/
def makeElement (model : String) (fields : List (String × Value)) : Act Value := do
  match Schema.model? model with
  | none => alloc (.element model fields)
  | some m => ofExcept (← making fun h => m.make h fields)

end Act

mutual

/-- The value of a term, remembered under `name`. -/
def Term.evalAs (f : Frame) (name : Option String) : Term → Act Value
  | .null => keep .null
  | .bool b => keep (.bool b)
  | .int i => keep (.int i)
  | .text s => keep (.text s)
  | .bytes bs => keep (.bytes bs)
  | .undefined => keep .undefined
  | .classOf c => keep (.classOf c)
  | .float x => make (.float x)
  | .fraction x => make (.fraction x)
  | .decimal x => make (.decimal x)
  | .complex z => make (.complex z)
  | .ownText s => make (.ownText s)
  | .ownInt i => make (.ownInt i)
  | .list own items => do
    let v ← make (.list own [])
    Act.setCell v (.list own (← Term.evalAll f items))
    return v
  | .tuple own items => do make (.tuple own (← Term.evalAll f items))
  | .mapping true entries => do make (.mapping true (← Term.evalEntries f [] entries))
  | .mapping false entries => do
    let v ← make (.mapping false [])
    Act.setCell v (.mapping false (← Term.evalEntries f [] entries))
    return v
  | .set frozen items => do make (.set frozen (← Term.evalSet f [] items))
  | .object cls attributes => do
    let v ← make (.record cls [])
    let fields ← Term.evalFields f attributes
    Act.setCell v (.record cls (Bindings.setAll [] fields))
    return v
  | .error kind args => do keep (← Act.makeError kind (← Term.evalAll f args))
  | .procedure body => do keep (← Body.eval f body)
  | .answering body answer => do make (.procedure (.answering (← Body.eval f body) answer))
  | .define inner term => do keep (← Term.evalAs f (some inner) term)
  | .reference n => do
    match (← get).names.lookup n with
    | some v => keep v
    | none => Act.fault (.unsetName n)
  | .variable n => do keep (← Act.readVariable n)
  | .argument i => do
    match f.args[i]? with
    | some v => keep v
    | none => Act.fault .noArgument
  | .arguments => make (.tuple false f.args)
  | .shortcut verb => do keep (← Act.shortcut verb)
  | .element model fields => do keep (← Act.makeElement model (← Term.evalFields f fields))
where
  keep (v : Value) : Act Value := do
    Act.remember name v
    return v
  make (c : Cell) : Act Value := do keep (← Act.alloc c)

def Term.evalAll (f : Frame) : List Term → Act (List Value)
  | [] => pure []
  | t :: ts => do
    let v ← Term.evalAs f none t
    return v :: (← Term.evalAll f ts)

def Term.evalEntries (f : Frame) (known : List (Value × Value)) :
    List (Term × Term) → Act (List (Value × Value))
  | [] => pure known
  | (k, t) :: rest => do
    let k ← Term.evalAs f none k
    let v ← Term.evalAs f none t
    Term.evalEntries f (← Act.putEntry known k v) rest

def Term.evalSet (f : Frame) (known : List Value) : List Term → Act (List Value)
  | [] => pure known
  | t :: ts => do
    let v ← Term.evalAs f none t
    Term.evalSet f (← Act.putItem known v) ts

def Term.evalFields (f : Frame) : List (String × Term) → Act (List (String × Value))
  | [] => pure []
  | (n, t) :: rest => do
    let v ← Term.evalAs f none t
    return (n, v) :: (← Term.evalFields f rest)

/-- What stands where a procedure is expected. -/
def Body.eval (f : Frame) : Body → Act Value
  | .absent => pure .null
  | .script arity steps => Act.alloc (.procedure (.script arity steps f.builder))
  | .value term => Term.evalAs f none term

end

def Term.eval (f : Frame) (t : Term) : Act Value := t.evalAs f none

end Exemplar
