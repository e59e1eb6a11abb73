import BaseLib.Session.State

namespace BaseLib.Session

open Text (plain codesOf)

def forms (s : Session) (o : Object) : List Nat × List Nat :=
  let rooted (display : List Nat) := (display, Datum.tagged o.type display)
  match o with
  | .error cause =>
    (plain cause.kind.name ++ plain ": " ++ cause.message,
      plain cause.kind.name ++ plain "(" ++ codesOf (Text.Quoted.encode cause.text) ++ plain ")")
  | .builder b => rooted b.codes
  | .writer (.builder b) _ => rooted (s.buffer b).codes
  | .regex r _ => rooted (codesOf r.pattern)
  | .match_ m _ => rooted (codesOf m.whole.value)
  | .group g => rooted (codesOf g.value)
  | .culture name _ => rooted (name.codes?.getD (plain o.type))
  | o => if o.isRooted then rooted (plain o.type)
    else (Datum.tagged o.type (plain "object"), Datum.tagged o.type (plain "object"))

/-- The tree of a value; `depth` bounds the nesting of objects. -/
def viewAt (s : Session) : Nat → Value → Datum
  | 0, _ => .object s.store.size (plain "...") (plain "...")
  | depth + 1, v =>
    match v with
    | .null => .null
    | .bool b => .bool b
    | .int n => .number (.int n)
    | .double d => .number (.double d)
    | .text t => .text (codesOf t)
    | .broken t => .text t.codes
    | .symbol x => .symbol x
    | .day n => .day n
    | .flags t bits => .flags t bits
    | .ref id =>
      match s.store[id]? with
      | none => .null
      | some (.array items) => .array id (items.map (viewAt s depth))
      | some (.tuple items) => .tuple (items.map (viewAt s depth))
      | some (.map entries) =>
        .map id (entries.map fun (k, x) => .tuple [viewAt s depth k, viewAt s depth x])
      | some (.typeName name) => .typeName name
      | some (.nullable x) => .nullable (viewAt s depth x)
      | some (.pair k x) => .pair (viewAt s depth k) (viewAt s depth x)
      | some (.timeSpan t) => .timeSpan t
      | some (.dateTime d) => .dateTime d
      | some (.point x y) => .point x y
      | some (.encoding code) => .encoding code
      | some (.options o) => .options o
      | some o => .object id (s.forms o).1 (s.forms o).2

def view (s : Session) (v : Value) : Datum := s.viewAt s.depth v

def equals (s : Session) (x y : Value) : Bool := (s.view x).equals s.offset (s.view y)

def looselyEquals (s : Session) (x y : Value) : Bool := (s.view x).eqv s.offset true (s.view y)

def hash (s : Session) (v : Value) : Int := (s.view v).hash s.offset

def display (s : Session) (v : Value) : Except Fault (List Nat) := (s.view v).display

def literal (s : Session) (v : Value) : Except Fault (List Nat) := (s.view v).literal

/-- The text of a value on its own: the message of an error, and the literal form of what is neither a
text nor a value of the library. -/
def printed (s : Session) (v : Value) : Except Fault (List Nat) :=
  match v with
  | .text t => .ok (codesOf t)
  | .broken t => .ok t.codes
  | .symbol _ | .day _ | .flags _ _ => s.display v
  | v =>
    match s.object? v with
    | some (.error cause) => .ok cause.message
    | some o => if o.isRooted then s.display v else s.literal v
    | none => s.literal v

def compare3 (s : Session) (x y : Value) : Except Fault Int :=
  (s.view x).compare3 s.offset (s.view y)

def order (s : Session) (op : OrderOp) (x y : Value) : Except Fault Bool :=
  (s.view x).order s.offset op (s.view y)

def keying (s : Session) : Keying Value := ⟨(· == .null), s.hash, s.equals⟩

def showsAt (s : Session) (builder : Nat) : Nat → Value → Bool
  | 0, _ => false
  | depth + 1, v =>
    match v with
    | .ref id =>
      match s.store[id]? with
      | some (.builder _) => id == builder
      | some (.writer (.builder b) _) => b == builder
      | some (.array items) | some (.tuple items) => items.any (showsAt s builder depth)
      | some (.map entries) =>
        entries.any fun (k, x) => showsAt s builder depth k || showsAt s builder depth x
      | some (.nullable x) => showsAt s builder depth x
      | some (.pair k x) => showsAt s builder depth k || showsAt s builder depth x
      | _ => false
    | _ => false

def shows (s : Session) (builder : Nat) (v : Value) : Bool := s.showsAt builder s.depth v

def truthy (s : Session) (v : Value) : Bool :=
  match v with
  | .null => false
  | .bool b => b
  | .int n => n != 0
  | .double d => !d.isZero
  | .text t => !t.isEmpty
  | .broken _ | .symbol _ => true
  | .day n => n != 0
  | .flags _ bits => bits != 0
  | .ref id =>
    match s.store[id]? with
    | some (.array items) | some (.tuple items) => !items.isEmpty
    | some (.map entries) => !entries.isEmpty
    | some (.list _ storage) => !(s.items storage).isEmpty
    | some (.hashSet members) => members.size != 0
    | some (.dictionary entries) => entries.size != 0
    | some (.event listeners) => !listeners.isEmpty
    | some (.groups members _) => !(s.items members).isEmpty
    | _ => true

end BaseLib.Session
