import Exemplar.Scope.Body
import Exemplar.Scope.Host
import Exemplar.Scope.Layers

/-! Where a function finds its names.

A function sees the variables of the functions it is written in, from the inside out, and then
the global names: those of the module, or those of a scope of its own over the module. A
variable that is not set is an error, and so is a global name that stands for nothing, unless
the host knows it.

The body of a class has names too, but only its own lines see them. A name that the class does not
have, and that is no variable of a function around it, is looked up past the layers over the module,
unless the class declares it global. -/
namespace Exemplar.Scope

/-- A function whose variables can be seen, and the place where they are kept. -/
structure Level where
  declared : Declared
  frame : Nat

/-- What a name stands for: a value, or a function of the module by its place. -/
inductive Meaning
  | value (v : Value)
  | function (index : Nat)

/-- A class whose body is run, with the names that it has by now. -/
structure ClassBody where
  declared : Declared
  own : Bindings Meaning := []

structure View where
  /-- Whether the global names are those of a scope over the module. -/
  layered : Bool
  /-- The innermost function first. -/
  levels : List Level := []
  /-- The class, for the lines of its body. -/
  cls : Option ClassBody := none

/-- Where a name is kept. -/
inductive Place
  | global
  | slot (frame : Nat) (own : Bool)
  /-- In the class; a name that is not there is a global one without the layers. -/
  | entry
deriving DecidableEq, Repr

/-- The place of a name, looked for from the inside out. -/
def placeIn (name : String) (own : Bool) : List Level → Place
  | [] => .global
  | l :: outer =>
    if l.declared.global.contains name then .global
    else if l.declared.own.contains name then .slot l.frame own
    else placeIn name false outer

/-- The place of a name for the lines of the class. -/
def ClassBody.place (c : ClassBody) (levels : List Level) (name : String) : Place :=
  if c.declared.global.contains name then .global
  else if c.declared.own.contains name then .entry
  else match placeIn name false levels with
    | .global => .entry
    | place => place

/-- The names of the class after a line of its body. -/
def ClassBody.after (c : ClassBody) : Line Value → ClassBody
  | .set _ name a => if c.declared.own.contains name then { c with own := c.own.set name (.value a) } else c
  | .erase _ name => if c.declared.own.contains name then { c with own := c.own.erase name } else c
  | _ => c

namespace View

def place (v : View) (name : String) : Place :=
  match v.cls with
  | none => placeIn name true v.levels
  | some c => c.place v.levels name

/-- What the class has under a name. -/
def entry? (v : View) (name : String) : Option Meaning := v.cls.bind (·.own.lookup name)

/-- The view from the body of a class. The names of a class around it are not seen. -/
def inClass (v : View) (declared : Declared) : View := { v with cls := some { declared } }

/-- The view after a line. -/
def after (v : View) (line : Line Value) : View := { v with cls := v.cls.map (·.after line) }

end View

/-- All names of a module and of the functions in it. -/
structure Names where
  layers : Layers Meaning := {}
  frames : Array (Bindings Meaning) := #[]

namespace Names

def unset (name : String) (own : Bool) : Fault := if own then .unboundLocal name else .unboundFree name

/-- What a global name stands for. The host knows some that nothing else has. -/
def getGlobal? (s : Names) (layered : Bool) (name : String) : Option Meaning :=
  (s.layers.find? layered name).or ((Host.get? name).map .value)

/-- What it stands for in the body of a class. -/
def getDirect? (s : Names) (layered : Bool) (name : String) : Option Meaning :=
  (s.layers.findDirect? layered name).or ((Host.get? name).map .value)

def get (s : Names) (v : View) (name : String) : Except Fault Meaning :=
  match v.place name with
  | .global => ((s.getGlobal? v.layered name).map .ok).getD (.error (.undefinedName name))
  | .slot frame own =>
    ((s.frames.getD frame []).lookup name |>.map .ok).getD (.error (unset name own))
  | .entry =>
    (((v.entry? name).or (s.getDirect? v.layered name)).map .ok).getD (.error (.undefinedName name))

/-- Sets a name. Those of a class are kept in the view. -/
def set (s : Names) (v : View) (name : String) (i : Meaning) : Names :=
  match v.place name with
  | .global =>
    { s with layers := if v.layered then s.layers.set name i else s.layers.setModule name i }
  | .slot frame _ => { s with frames := s.frames.modify frame (·.set name i) }
  | .entry => s

def erase (s : Names) (v : View) (name : String) : Except Fault Names :=
  match v.place name with
  | .global =>
    match if v.layered then s.layers.erase? name else s.layers.eraseModule? name with
    | some layers => .ok { s with layers }
    | none => .error (.undefinedName name)
  | .slot frame own =>
    if (s.frames.getD frame []).has name then
      .ok { s with frames := s.frames.modify frame (·.erase name) }
    else .error (unset name own)
  | .entry => if (v.entry? name).isSome then .ok s else .error (.undefinedName name)

/-- The view from inside a function that begins with the given variables. -/
def enter (s : Names) (v : View) (declared : Declared) (own : Bindings Meaning) : Names × View :=
  ({ s with frames := s.frames.push own },
    { v with levels := ⟨declared, s.frames.size⟩ :: v.levels, cls := none })

end Names

end Exemplar.Scope
