import Exemplar.Failure

/-! Truth and equality of values.

Numbers are equal by value whatever their type, texts by their characters, containers item by
item, elements of one model field by field, objects by identity unless their class decides
otherwise. Inside a container an item also equals itself, so a NaN is found again in the list that
holds it.

The objects of a written class are asked: what they answer takes a call, which may do anything and
answer with any value. So comparisons are written for every way to read the store and to ask
(`Comparing`). A running program calls what it asks; while nothing runs, the store stays as it is
and the answers are given with it (`Heap.Replies`). A container is compared as it was when its
comparison began. -/
namespace Exemplar

/-- The exact real and imaginary parts of a number. -/
def Value.number? (h : Heap) (v : Value) : Option (Exact × Exact) :=
  match v, h.cell? v with
  | .bool b, _ => some (.ofInt (if b then 1 else 0), .ofInt 0)
  | .int i, _ => some (.ofInt i, .ofInt 0)
  | _, some (.ownInt i) => some (.ofInt i, .ofInt 0)
  | _, some (.float x) => some (x.exact, .ofInt 0)
  | _, some (.fraction x) => some (x.exact, .ofInt 0)
  | _, some (.decimal x) => some (x.exact, .ofInt 0)
  | _, some (.complex z) => some (z.re.exact, z.im.exact)
  | _, _ => none

/-- Numbers other than truth values, decimals and complex numbers. -/
def Value.isReal (h : Heap) (v : Value) : Bool :=
  match v, h.cell? v with
  | .int _, _ => true
  | _, some (.ownInt _) | _, some (.float _) | _, some (.fraction _) => true
  | _, _ => false

/-- The attributes an object keeps for itself, by name. The errors of this library keep their
message and place. -/
def Value.attributes? (h : Heap) (v : Value) : Option (List (String × Value)) :=
  match v, h.cell? v with
  | .undefined, _ => some []
  | _, some (.ownText _) | _, some (.ownInt _) => some []
  | _, some (.list true _) | _, some (.tuple true _) => some []
  | _, some (.record c attributes) => if c.hasAttributes then some attributes else none
  | _, some (.element _ fields) => some fields
  | _, some (.error kind args) =>
    if kind.isLocated then
      let place := if kind = .pluginError then [("entrypoint", Value.null)] else []
      some (place ++ [("message", args.headD .null), ("context", .null)])
    else some []
  | _, _ => none

/-- The attributes as entries of a mapping. -/
def attributeEntries (attributes : List (String × Value)) : List (Value × Value) :=
  attributes.map fun (n, v) => (.text n, v)

/-- The truth of a value that is not asked. -/
def Value.truth (h : Heap) (v : Value) : Except Failure Bool :=
  match v, h.cell? v with
  | .null, _ | .undefined, _ => .ok false
  | .bool b, _ => .ok b
  | .int i, _ => .ok (i ≠ 0)
  | .text s, _ => .ok (!s.isEmpty)
  | .bytes bs, _ => .ok (!bs.isEmpty)
  | _, some (.float x) => .ok (!x.isZero)
  | _, some (.fraction x) => .ok (x.num ≠ 0)
  | _, some (.decimal x) => .ok (!x.exact.isZero)
  | _, some (.complex z) => .ok (!z.isZero)
  | _, some (.ownText s) => .ok (!s.isEmpty)
  | _, some (.ownInt i) => .ok (i ≠ 0)
  | _, some (.list _ items) | _, some (.tuple _ items) | _, some (.set _ items) => .ok (!items.isEmpty)
  | _, some (.mapping _ entries) => .ok (!entries.isEmpty)
  | _, some (.record .falsy _) | _, some (.record .empty _) => .ok false
  | _, some (.record .badBool _) => .error (.fault .noTruth)
  | _, _ => .ok true

/-! ### Asking -/

/-- What `==` and `!=` answer: a truth value, a new list that nothing else has, or any value. -/
inductive Answer
  | bool (b : Bool)
  | list (items : List Value)
  | value (v : Value)

/-- What comparisons need: to read the store, to fail, and to ask an object that may decide on the
operation. There is no answer if it has no procedure for that. -/
structure Comparing (m : Type → Type) where
  store : m Heap
  fail {α : Type} : Failure → m α
  ask (v : Value) (operation : Operation) (args : List Value) : m (Option Value)

section Searches

variable {m : Type → Type} [Monad m]

/-- Whether the paired items agree, up to the end of the shorter list; later items are not
looked at once two differ. -/
def allPairs (same : Value → Value → m Bool) : List Value → List Value → m Bool
  | a :: as, b :: bs => do if ← same a b then allPairs same as bs else return false
  | _, _ => pure true

def anyItem (same : Value → Value → m Bool) (v : Value) : List Value → m Bool
  | [] => pure false
  | a :: as => do if ← same a v then return true else anyItem same v as

/-- What the entries hold under `key`. -/
def findEntry (same : Value → Value → m Bool) (key : Value) : List (Value × Value) → m (Option Value)
  | [] => pure none
  | (k, v) :: rest => do if ← same k key then return some v else findEntry same key rest

/-- Whether every entry of the first list is matched by the second. -/
def allEntries (same : Value → Value → m Bool) (others : List (Value × Value)) :
    List (Value × Value) → m Bool
  | [] => pure true
  | (k, v) :: rest => do
    match ← findEntry same k others with
    | none => return false
    | some w => if ← same v w then allEntries same others rest else return false

def allItems (same : Value → Value → m Bool) (others : List Value) : List Value → m Bool
  | [] => pure true
  | a :: as => do if ← anyItem same a others then allItems same others as else return false

/-- Equality of values whose classes do not decide it. -/
def plainEqual (h : Heap) (same : Value → Value → m Bool) (a b : Value) : m Bool :=
  match h.cell? a, h.cell? b with
  | some (.list _ as), some (.list _ bs) =>
    if as.length ≠ bs.length then pure false else allPairs same as bs
  | some (.tuple _ as), some (.tuple _ bs) => do
    if ← allPairs same as bs then return as.length = bs.length else return false
  | some (.mapping o as), some (.mapping p bs) => do
    if as.length ≠ bs.length then return false
    if ← allEntries same bs as then
      if o && p then allPairs same (as.map (·.1)) (bs.map (·.1)) else return true
    else return false
  | some (.set _ as), some (.set _ bs) =>
    if as.length ≠ bs.length then pure false else allItems same bs as
  | some (.element model as), some (.element model' bs) =>
    if model ≠ model' || as.length ≠ bs.length then pure false
    else allEntries same (attributeEntries bs) (attributeEntries as)
  | _, _ =>
    match a.number? h, b.number? h with
    | some (re, im), some (re', im') => pure (re.same re' && im.same im')
    | _, _ =>
      match a.asText? h, b.asText? h with
      | some s, some t => pure (s = t)
      | _, _ => pure (a = b)

end Searches

/-- The class of an object that decides on the operation. One of a written class decides if it has a
procedure; that for equality serves inequality too. -/
def Value.decides? (h : Heap) (operation : Operation) (v : Value) : Option ObjectClass :=
  match h.cell? v with
  | some (.record (.written name) _) =>
    if (v.method? h operation).isSome || (v.method? h .equality).isSome then some (.written name) else none
  | some (.record c _) => if c.hasEquality then some c else none
  | _ => none

/-- The object that decides on a comparison, with its class, and the other one. -/
def decider? (h : Heap) (operation : Operation) (a b : Value) : Option (ObjectClass × Value × Value) :=
  ((a.decides? h operation).map (·, a, b)).or ((b.decides? h operation).map (·, b, a))

/-- A comparison that goes on longer than there are pairs of objects never ends. -/
def Heap.depth (h : Heap) : Nat := (h.size + 2) * (h.size + 2)

namespace Comparing

variable {m : Type → Type} [Monad m] (c : Comparing m)

/-- Whether a value counts as true. -/
def truth (v : Value) : m Bool := do
  let answer ← c.ask v .truth []
  let h ← c.store
  match answer with
  | some (.bool b) => return b
  | some other => c.fail (.fault (.notTruth (other.typeName h)))
  | none =>
    match v.truth h with
    | .ok b => return b
    | .error f => c.fail f

/-- Whether an answer counts as true. -/
def holds : Answer → m Bool
  | .bool b => pure b
  | .list items => pure !items.isEmpty
  | .value v => c.truth v

/-- What an object answers whose class decides its equality. -/
def customEqual (h : Heap) (same : Value → Value → m Bool) (cls : ObjectClass) (self other : Value) :
    m Answer :=
  match cls with
  | .alwaysEqual => pure (.bool true)
  | .neverEqual => pure (.bool false)
  | .badEq => c.fail (.fault .noComparison)
  | .listEq =>
    match self.attributes? h, other.attributes? h with
    | some as, some bs => do
      if as.length ≠ bs.length then return .list []
      if ← allEntries same (attributeEntries bs) (attributeEntries as) then return .list [.int 1]
      else return .list []
    | _, _ => pure (.list [])
  | _ => do
    match ← c.ask self .equality [other] with
    | some answer => return .value answer
    | none => return .bool (self = other)

/-- What `a == b` answers, for values nested at most `depth` deep. -/
def equalIn : Nat → Value → Value → m Answer
  | 0, _, _ => c.fail (.fault .nesting)
  | depth + 1, a, b => do
    let same (x y : Value) : m Bool :=
      if x = y then pure true else do c.holds (← equalIn depth x y)
    let h ← c.store
    match decider? h .equality a b with
    | some (cls, self, other) => c.customEqual h same cls self other
    | none => do return .bool (← plainEqual h same a b)

/-- What `a == b` answers. -/
def equal (a b : Value) : m Answer := do
  let h ← c.store
  c.equalIn h.depth a b

def isEqual (a b : Value) : m Bool := do c.holds (← c.equal a b)

/-- Equality of the items of a container: an item equals itself. -/
def sameItem (a b : Value) : m Bool := if a = b then pure true else c.isEqual a b

/-- The opposite of what `a == b` answers. -/
def opposite (a b : Value) : m Answer := do
  match ← c.equal a b with
  | .list items => return .list (if items.isEmpty then [.int 1] else [])
  | answer => return .bool !(← c.holds answer)

/-- What `a != b` answers: the opposite, unless a method says otherwise. -/
def unequal (a b : Value) : m Answer := do
  let h ← c.store
  match decider? h .inequality a b with
  | some (_, self, other) =>
    match ← c.ask self .inequality [other] with
    | some answer => return .value answer
    | none => c.opposite a b
  | none => c.opposite a b

def isUnequal (a b : Value) : m Bool := do c.holds (← c.unequal a b)

end Comparing

/-! ### While nothing runs -/

/-- What methods answer while the store stays as it is. -/
class Heap.Replies (h : Heap) where
  reply (method : Value) (args : List Value) : Except Failure Value

/-- Without a program there is no reply. -/
instance (h : Heap) : h.Replies where
  reply _ _ := .error (.fault .notRunning)

/-- Comparisons in a store that stays as it is. -/
def Comparing.still (h : Heap) [h.Replies] : Comparing (Except Failure) where
  store := .ok h
  fail := .error
  ask v operation args := (v.method? h operation).mapM (Heap.Replies.reply h · (v :: args))

/-- The store is at hand. -/
theorem Comparing.still_bind {h : Heap} [h.Replies] {α : Type} (k : Heap → Except Failure α) :
    ((still h).store >>= k) = k h := rfl

namespace Value

variable (h : Heap) [h.Replies]

/-- Whether `a == b`, for values nested at most `depth` deep. -/
def equalIn (depth : Nat) (a b : Value) : Except Failure Bool := do
  (Comparing.still h).holds (← (Comparing.still h).equalIn depth a b)

def equal (a b : Value) : Except Failure Bool := a.equalIn h h.depth b

/-- Equality of the items of a container: an item equals itself. -/
def sameItem (a b : Value) : Except Failure Bool :=
  if a = b then .ok true else a.equal h b

end Value

/-- Whether a value can be a key. -/
def Value.isHashable (h : Heap) : Nat → Value → Bool
  | 0, _ => true
  | depth + 1, v => match h.cell? v with
    | some (.list ..) | some (.mapping ..) | some (.set false _) => false
    | some (.tuple _ items) => items.all (isHashable h depth)
    | some (.element _ fields) => fields.all fun (_, v) => isHashable h depth v
    | some (.record c _) => !c.hasEquality
    | _ => true

/-- The first value inside `v` that keeps it from being a key. -/
def Value.unhashable? (h : Heap) : Nat → Value → Option Value
  | 0, _ => none
  | depth + 1, v => match h.cell? v with
    | some (.tuple _ items) => items.findSome? (unhashable? h depth)
    | some (.element _ fields) => fields.findSome? fun (_, v) => unhashable? h depth v
    | _ => if v.isHashable h 1 then none else some v

end Exemplar
