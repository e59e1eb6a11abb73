import BaseLib.Collection.Sequence
import BaseLib.Session.Format

namespace BaseLib

def Number.toValue : Number → Value
  | .int n => .int n
  | .double d => .double d

def Value.operand? : Value → Option Number
  | .bool b => some (.int b.toNat)
  | v => v.number?

/-- A number in arithmetic; an integer beyond the largest double cannot meet a double. -/
def orTooLarge : Option Number → Action Value
  | some x => pure x.toValue
  | none => misuse .tooLarge

def newSpan (t : Except Failure TimeSpan) : Action Value := do
  alloc (.timeSpan (← ofResult t))

def newTime (d : Except Failure DateTime) : Action Value := do
  alloc (.dateTime (← ofResult d))

def addValues (x y : Value) : Action Value := do
  match x.operand?, y.operand? with
  | some a, some b => orTooLarge (a.add? b)
  | _, _ =>
    let s ← get
    match x, y with
    | .text a, .text b => pure (.text (a ++ b))
    | _, _ =>
    match x.codes?, y.codes? with
    | some a, some b => pure (.ofCodes (a ++ b))
    | _, _ =>
      match s.object? x, s.object? y with
      | some (.array a), some (.array b) => newArray (a ++ b)
      | some (.tuple a), some (.tuple b) => alloc (.tuple (a ++ b))
      | some (.timeSpan a), some (.timeSpan b) => newSpan (a.add b)
      | some (.dateTime a), some (.timeSpan b) => newTime (a.add b)
      | _, _ => misuse .wrongType

def subtractTime (d : DateTime) (y : Object) : Action Value := do
  match y with
  | .timeSpan t => newTime (d.subtractSpan t)
  | .dateTime e => newSpan (d.subtract (← get).offset e)
  | _ => misuse .noSuchMember

def subValues (x y : Value) : Action Value := do
  match x.operand?, y.operand? with
  | some a, some b => orTooLarge (a.sub? b)
  | _, _ =>
    let s ← get
    match s.object? x, s.object? y with
    | some (.timeSpan a), some (.timeSpan b) => newSpan (a.subtract b)
    | some (.dateTime d), some (.timeSpan t) => subtractTime d (.timeSpan t)
    | some (.dateTime d), some (.dateTime e) => subtractTime d (.dateTime e)
    | _, _ => misuse .wrongType

def mulValues (x y : Value) : Action Value := do
  match x.operand?, y.operand? with
  | some a, some b => orTooLarge (a.mul? b)
  | a, b =>
    let s ← get
    let repeated (v : Value) (n : Int) : Action Value :=
      if Word.maxSize < n.natAbs then misuse .tooLarge
      else
      match v, s.object? v with
      | .text t, _ => pure (.text (List.replicate n.toNat t).flatten)
      | .broken t, _ => pure (.ofCodes (List.replicate n.toNat t.codes).flatten)
      | _, some (.array items) => newArray (List.replicate n.toNat items).flatten
      | _, some (.tuple items) => alloc (.tuple (List.replicate n.toNat items).flatten)
      | _, _ => misuse .wrongType
    match a, b with
    | none, some (.int n) => repeated x n
    | some (.int n), none => repeated y n
    | _, _ => misuse .wrongType

def modValues (x y : Value) : Action Value :=
  match x.operand?, y.operand? with
  | some a, some b => if b.isZero then misuse .dividedByZero else orTooLarge (a.floorMod? b)
  | _, _ => misuse .wrongType

def negValue (x : Value) : Action Value := do
  match x.operand? with
  | some a => pure a.negate.toValue
  | none =>
    match (← get).object? x with
    | some (.timeSpan t) => newSpan t.negate
    | _ => misuse .wrongType

def absValue (x : Value) : Action Value := do
  match x.operand? with
  | some a => pure a.abs.toValue
  | none =>
    match (← get).object? x with
    | some (.timeSpan t) => if t.ticks < 0 then newSpan t.negate else pure x
    | _ => misuse .wrongType

def Session.length? (s : Session) (v : Value) : Option Nat :=
  match v with
  | .text t => some t.length
  | .broken t => some t.codes.length
  | v =>
    match s.object? v with
    | some (.array items) | some (.tuple items) => some items.length
    | some (.map entries) => some entries.length
    | some (.list _ storage) => some (s.items storage).length
    | some (.hashSet members) => some members.size
    | some (.dictionary entries) => some entries.size
    | some (.event listeners) => some listeners.length
    | some (.groups members _) => some (s.items members).length
    | _ => none

def lengthOf (v : Value) : Action Nat := do
  match (← get).length? v with
  | some n => pure n
  | none => misuse .wrongType

def Value.asInt? : Value → Option Int
  | .bool b => some b.toNat
  | v => v.integer?

def needInt (v : Value) : Action Int :=
  match v.asInt? with
  | some n => pure n
  | none => misuse .wrongType

/-- A place in a sequence of `length` elements; a negative index counts from the end. -/
def place? (length : Nat) (index : Int) : Option Nat :=
  let i := if index < 0 then index + length else index
  if 0 ≤ i ∧ i < length then some i.toNat else none

def elementAt (items : List Value) (index : Value) : Action Value := do
  match (place? items.length (← needInt index)).bind (items[·]?) with
  | some v => pure v
  | none => misuse .outsideHolder

def charAt (t : List Char) (index : Value) : Action Value :=
  elementAt (t.map fun c => .text [c]) index

def displayOf (v : Value) : Action (List Nat) := do ofExcept ((← get).display v)

def dictionaryItem (entries : Table Value (Value × Value)) (key : Value) : Action Value := do
  let s ← get
  match entries.get? s.keying key with
  | some (_, v) => pure v
  | none => fail (.keyMissing (← displayOf key))

/-- The group with a number; an unknown one has no success, and a name of its own. -/
def numberedGroup (s : Session) (members : Nat) (n : Int) (name : Except Fault (List Char)) : Action Value :=
  match if n < 0 then none else (s.items members)[n.toNat]? with
  | some g => pure g
  | none => do alloc (.group (Regex.Group.absent (← ofExcept name)))

def groupItem (members : Nat) (names : List (List Char)) (key : Value) : Action Value := do
  let s ← get
  match key with
  | .text name =>
    if names.contains name then numberedGroup s members (names.idxOf name) (.ok name)
    else if Text.allDigits name then
      -- a numeral that is short enough to be read is short enough to be written
      let n ← ofExcept (Text.Composite.readNumeral name)
      numberedGroup s members n (.ok (Decimal.digits n))
    else alloc (.group (Regex.Group.absent name))
  | .broken _ => misuse .surrogate
  | key =>
    let n ← needInt key
    numberedGroup s members n (Number.int n).shown

def itemOf (v key : Value) : Action Value := do
  let s ← get
  match v with
  | .text t => charAt t key
  | .broken t => elementAt (t.codes.map fun c => .ofCodes [c]) key
  | v =>
    match s.object? v with
    | some (.array items) | some (.tuple items) => elementAt items key
    | some (.map entries) =>
      match entries.find? fun e => s.looselyEquals e.1 key with
      | some (_, x) => pure x
      | none => misuse .outsideHolder
    | some (.list _ storage) => do ofResult (Sequence.get (s.items storage) (← needInt key))
    | some (.dictionary entries) => dictionaryItem entries key
    | some (.groups members names) => groupItem members names key
    | _ => misuse .wrongType

def bindEntry (s : Session) (key x : Value) (entries : List (Value × Value)) : List (Value × Value) :=
  match entries.findIdx? fun e => s.looselyEquals e.1 key with
  | some i => entries.modify i fun e => (e.1, x)
  | none => entries ++ [(key, x)]

/-- The entries of a table of pairs with one key bound; a key that is bound already stays. -/
def bindKey (s : Session) (key x : Value) (entries : Table Value (Value × Value)) :
    Table Value (Value × Value) :=
  let kept := ((entries.get? s.keying key).map (·.1)).getD key
  entries.set s.keying key (kept, x)

def setItemOf (v key x : Value) : Action Unit := do
  let s ← get
  match v with
  | .ref id =>
    match s.store[id]? with
    | some (.array items) =>
      match place? items.length (← needInt key) with
      | some i => assign id (.array (items.set i x))
      | none => misuse .outsideHolder
    | some (.map entries) => assign id (.map (bindEntry s key x entries))
    | some (.list _ storage) =>
      assign storage (.array (← ofResult (Sequence.set (s.items storage) (← needInt key) x)))
    | some (.dictionary entries) => assign id (.dictionary (bindKey s key x entries))
    | _ => misuse .wrongType
  | _ => misuse .wrongType

end BaseLib
