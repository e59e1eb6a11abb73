import BaseLib.Session.Access
import BaseLib.Session.Render

namespace BaseLib

namespace Builtin

def all : List Builtin :=
  [id, add, mul, mod, gt, lt, eq, modeq0, isnull, const, len, str, item, dup, range, chars, key, value,
    fail, isword, bracket, index, groups, pair, second, add2, concat2, repeated, cmp, cmpdesc, cmplen,
    cmpzero, cmpmod, defaulted, factory, listen, listenAdd]

def name : Builtin → String
  | id => "id"
  | add => "add"
  | mul => "mul"
  | mod => "mod"
  | gt => "gt"
  | lt => "lt"
  | eq => "eq"
  | modeq0 => "modeq0"
  | isnull => "isnull"
  | const => "const"
  | len => "len"
  | str => "str"
  | item => "item"
  | dup => "dup"
  | range => "range"
  | chars => "chars"
  | key => "key"
  | value => "value"
  | fail => "raise"
  | isword => "isword"
  | bracket => "bracket"
  | index => "index"
  | groups => "groups"
  | pair => "pair"
  | second => "second"
  | add2 => "add2"
  | concat2 => "concat2"
  | repeated => "repeat"
  | cmp => "cmp"
  | cmpdesc => "cmpdesc"
  | cmplen => "cmplen"
  | cmpzero => "cmpzero"
  | cmpmod => "cmpmod"
  | defaulted => "defaulted"
  | factory => "factory"
  | listen => "listen"
  | listenAdd => "listen_add"
  | program _ _ => "program"

def ofName? (name : String) : Option Builtin := all.find? (·.name == name)

def required : Builtin → Nat
  | pair | second | add2 | concat2 | repeated | cmp | cmpdesc | cmplen | cmpzero | cmpmod => 2
  | factory | listen | listenAdd => 0
  | program arity _ => arity
  | _ => 1

def most? : Builtin → Option Nat
  | defaulted => some 2
  | listen | listenAdd => none
  | b => some b.required

def takes (b : Builtin) (count : Nat) : Bool := b.required ≤ count && b.most?.all (count ≤ ·)

end Builtin

def Session.takesIndex (s : Session) (f : Value) : Bool :=
  match s.object? f with
  | some (.function f) => 2 ≤ f.builtin.required
  | _ => false

def Session.capture? (s : Session) (v : Value) : Option Regex.Group :=
  match s.object? v with
  | some (.match_ m _) => some m.whole
  | some (.group g) => some g
  | _ => none

def captureOf (v : Value) : Action Regex.Group := do
  match (← get).capture? v with
  | some g => pure g
  | none => misuse .noSuchMember

def groupsOfMatch (v : Value) : Action (List Regex.Group) := do
  let s ← get
  match s.object? v with
  | some (.match_ _ groups) =>
    match s.store[groups]? with
    | some (.groups members _) => pure (s.groupsOf members)
    | _ => pure []
  | _ => misuse .noSuchMember

def comparison (x y : Value) : Action Int := do ofExcept ((← get).compare3 x y)

def orderOf (op : OrderOp) (x y : Value) : Action Bool := do ofExcept ((← get).order op x y)

def keyOf (x : Value) : Action Value := do
  match (← get).object? x with
  | some (.pair key _) => pure key
  | _ => misuse .noSuchMember

def valueOf (x : Value) : Action Value := do
  match (← get).object? x with
  | some (.pair _ v) | some (.nullable v) => pure v
  | _ => pure (.text (← captureOf x).value)

def Operator.apply (o : Operator) (args : List Value) : Action Value :=
  match o, args with
  | add, [x, y] => addValues x y
  | subtract, [x, y] => subValues x y
  | multiply, [x, y] => mulValues x y
  | modulo, [x, y] => modValues x y
  | negate, [x] => negValue x
  | magnitude, [x] => absValue x
  | less, [x, y] => do pure (.bool (← orderOf .lt x y))
  | equal, [x, y] => do pure (.bool ((← get).equals x y))
  | compare, [x, y] => do pure (.int (← comparison x y))
  | display, [x] => do pure (.ofCodes (← displayOf x))
  | length, [x] => do pure (.int (← lengthOf x))
  | item, [x, i] => itemOf x i
  | array, items => newArray items
  | key, [x] => keyOf x
  | value, [x] => valueOf x
  | _, _ => misuse .wrongType

def Program.run : Program → Action Value
  | ends r => ofExcept r
  | uses o args next => do
    let r ← outcome (o.apply args)
    (next r).run

def callUnary (b : Builtin) (k x : Value) : Action Value := do
  match b with
  | .add => addValues x k
  | .mul => mulValues x k
  | .mod => modValues x k
  | .gt => pure (.bool (← orderOf .gt x k))
  | .lt => pure (.bool (← orderOf .lt x k))
  | .eq => pure (.bool ((← get).equals x k))
  | .modeq0 => do
    let r ← modValues x k
    pure (.bool ((← get).looselyEquals r (.int 0)))
  | .isnull => pure (.bool (x == .null))
  | .const => pure k
  | .len => pure (.int (← lengthOf x))
  | .str => pure (.ofCodes (← displayOf x))
  | .item => itemOf x k
  | .dup => newArray [x, x]
  | .range => do
    let n ← needInt x
    newArray ((List.range n.toNat).map fun (i : Nat) => .int i)
  | .chars =>
    match x with
    | .text t => newArray (t.map fun c => .text [c])
    | .broken t => newArray (t.codes.map fun c => .ofCodes [c])
    | _ => misuse .wrongType
  | .key => keyOf x
  | .value => valueOf x
  | .fail => do fail (.custom .invalidOperation (← displayOf k) none)
  | .isword => do
    let t := (← captureOf x).value
    pure (.bool (!t.isEmpty && t.all fun c => Text.isLetter c.toNat))
  | .bracket => do pure (.text ('[' :: (← captureOf x).value ++ [']']))
  | .index => do pure (.text (Decimal.digits (← captureOf x).index))
  | .groups => do
    pure (.text (Text.join ['|'] ((← groupsOfMatch x).map (·.value))))
  | .defaulted => newArray [x, .int 5]
  | .program _ body => (body [x]).run
  | _ => pure x

def callBinary (b : Builtin) (k x y : Value) : Action Value := do
  match b with
  | .pair | .defaulted => newArray [x, y]
  | .second => pure y
  | .add2 => addValues x y
  | .concat2 => do
    let shown ← displayOf x
    pure (.ofCodes (shown ++ (← displayOf y)))
  | .repeated => do newArray (List.replicate (← needInt y).toNat x)
  | .cmp => do pure (.int (← comparison x y))
  | .cmpdesc => do pure (.int (← comparison y x))
  | .cmplen => do pure (.int ((← lengthOf x) - (← lengthOf y) : Int))
  | .cmpmod => do
    let a ← modValues x k
    let b ← modValues y k
    subValues a b
  | .program _ body => (body [x, y]).run
  | _ => pure (.int 0)

def report (v : Value) : Action Report := do pure ((← get).report v)

def reportAll : List Value → Action (List Report)
  | [] => pure []
  | v :: vs => do pure ((← report v) :: (← reportAll vs))

def Session.listeners (s : Session) (id : Nat) : List Value :=
  match s.store[id]? with
  | some (.event listeners) => listeners
  | _ => []

def addListener (event : Nat) (f : Function) : Action Unit := do
  match (← get).store[event]? with
  | some (.event listeners) =>
    let v ← alloc (.function f)
    assign event (.event (listeners ++ [v]))
  | _ => misuse .noSuchMember

def listenAndAdd (k : Value) (args : List Value) : Action Unit := do
  let s ← get
  match s.object? k with
  | some (.array [name, .text event, newName]) =>
    record (.list ((← report name) :: (← reportAll args)))
    match s.bindings.lookup (String.ofList event) with
    | some (.ref id) => addListener id ⟨.listen, newName, false⟩
    | _ => misuse .noSuchMember
  | _ => misuse .wrongType

def callFunction (f : Function) (args : List Value) : Action Value := do
  if !f.builtin.takes args.length then misuse .wrongType
  else
    match f.builtin, args with
    | .factory, _ =>
      record (.ofString "factory")
      pure f.operand
    | .listen, args =>
      record (.list ((← report f.operand) :: (← reportAll args)))
      pure .null
    | .listenAdd, args =>
      listenAndAdd f.operand args
      pure .null
    | b, [x] =>
      if f.logs then record (← report x)
      callUnary b f.operand x
    | .defaulted, [x, y] =>
      if f.logs then record (← report x)
      newArray [x, y]
    | b, [x, y] => callBinary b f.operand x y
    | .program _ body, args => (body args).run
    | _, _ => misuse .wrongType

/-- One call of a value: `conduct` is what functions do, and `call` is how listeners are called. -/
def callWith {m : Type → Type} [Monad m] [MonadState Session m] [MonadExcept Fault m]
    (conduct : Function → List Value → m Value) (call : Value → List Value → m Value) (f : Value)
    (args : List Value) : m Value := do
  match (← get).object? f with
  | some (.function f) => conduct f args
  | some (.multicast event) =>
    -- the listeners of the moment when the call begins
    let listeners := (← get).listeners event
    listeners.forM fun l => discard (call l args)
    pure .null
  | _ => throw (.misuse .wrongType)

def applyAt : Nat → Value → List Value → Action Value
  | 0, _, _ => misuse .tooDeep
  | steps + 1, f, args => callWith callFunction (applyAt steps) f args

def apply (f : Value) (args : List Value) : Action Value := do applyAt (← get).steps f args

def holds (p : Value) (args : List Value) : Action Bool := do
  let r ← apply p args
  pure ((← get).truthy r)

end BaseLib
