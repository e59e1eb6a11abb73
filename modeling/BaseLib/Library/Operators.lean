import BaseLib.Library.Methods

namespace BaseLib.Library.Operators

def contains (x v : Value) : Action Bool := do
  let s ← get
  let among (items : List Value) : Bool := items.any fun y => s.looselyEquals y v
  match x with
  | .text t => do pure (Text.contains (← needText v) t)
  | .broken _ => misuse .surrogate
  | x =>
    match s.object? x with
    | some (.array items) | some (.tuple items) => pure (among items)
    | some (.map entries) => pure (among (entries.map (·.1)))
    | some (.list _ storage) => pure (0 ≤ Sequence.indexOf s.equals (s.items storage) v)
    | some (.hashSet members) => pure (members.contains s.keying v)
    | some (.dictionary entries) => pure (entries.contains s.keying v)
    | _ =>
      foldSource x false fun _ y => do
        let same := (← get).looselyEquals y v
        pure (!same, same)

def next (x : Value) : Action Value := do
  match x, (← get).object? x with
  | .ref id, some (.cursor _) =>
    if ← moveNext id then
      match (← get).object? x with
      | some (.cursor c) => ofResult (currentOf c)
      | _ => misuse .wrongType
    else misuse .exhausted
  | _, some (.generator (v :: rest) closings) => do
    match x with
    | .ref id =>
      assign id (.generator rest closings)
      pure v
    | _ => misuse .wrongType
  | _, some (.generator [] _) => misuse .exhausted
  | _, some (.plain "IEnumerator") => misuse .abstractMember
  | _, _ => misuse .wrongType

def release (x : Value) : Action Value := do
  match x, (← get).object? x with
  | .ref id, some o =>
    match (Methods.own id o).lookup "Dispose" with
    | some m => do
      discard (m.call [])
      yes true
    | none => misuse .wrongType
  | _, _ => misuse .wrongType

def locked (_x fails : Value) : Action Value := do
  if (← get).truthy fails then fail (.custom .invalidOperation (Text.plain "in lock") none) else yes true

def binaryAnswer (f : Session → Value → Value → Bool) : Member := .binary fun x y => do
  yes (f (← get) x y)

def operators : Members :=
  [("op.len", .unary fun x => do pure (.int (← lengthOf x))),
    ("op.getitem", .binary itemOf),
    ("op.setitem", .ternary fun x i v => do
      setItemOf x i v
      done),
    ("op.contains", .binary fun x v => do yes (← contains x v)),
    ("op.eq", binaryAnswer Session.looselyEquals),
    ("op.ne", binaryAnswer fun s x y => !s.looselyEquals x y),
    ("op.lt", .binary fun x y => do yes (← orderOf .lt x y)),
    ("op.le", .binary fun x y => do yes (← orderOf .le x y)),
    ("op.gt", .binary fun x y => do yes (← orderOf .gt x y)),
    ("op.ge", .binary fun x y => do yes (← orderOf .ge x y)),
    ("op.add", .binary addValues),
    ("op.sub", .binary subValues),
    ("op.neg", .unary negValue),
    ("op.abs", .unary absValue),
    ("op.str", .unary fun x => do pure (.ofCodes (← ofExcept ((← get).printed x)))),
    ("op.repr", .unary fun x => do pure (.ofCodes (← ofExcept ((← get).literal x)))),
    ("op.list", .unary fun x => do newArray (← elements x)),
    ("op.next", .unary next),
    ("op.same", .binary fun x y => yes (x == y)),
    ("op.invoke", .variadic 1 fun args => apply (args.headD .null) (args.drop 1)),
    ("op.with", .unary release),
    ("op.lock", .binary locked [.bool false])]

def composite (fmt args provider : Value) : Action Value := do
  let items ← match (← get).object? args with
    | some (.array items) | some (.tuple items) => pure items
    | _ => misuse .wrongType
  pure (.ofCodes (← ofExcept ((← get).expandFormat provider fmt items)))

def sameKey (s : Session) (a b : Value) : Bool :=
  s.keying.answers (s.keying.token a) (s.keying.token b)

def textValue (t : String) : Value := .text t.toList

def memberRow (m : Surface.Member) : Action Value :=
  newArray [textValue m.name, textValue m.kind.name, textValue m.status, textValue m.reference]

def membersOf (typeName : Value) : Action Value := do
  let name := String.ofList (← needText typeName)
  match Surface.findType? name with
  | some _ => do newArray (← (Surface.membersOf name).mapM memberRow)
  | none => misuse .noSuchMember

def functions : Members :=
  [("default_compare", .binary fun x y => do pure (.int (← comparison x y))),
    ("composite_format", .ternary composite [.null]),
    ("canonical_equal", binaryAnswer sameKey),
    ("get_enumerator", .unary newCursor),
    ("split_reference", .unary fun reference => do
      let (typeName, member) := Surface.splitReference (← textOwner reference)
      newArray [textValue typeName, textValue member]),
    ("check_reference", .unary fun reference => do
      pure (textValue (Surface.checkReference (← textOwner reference)))),
    ("read_references", .unary fun source => do
      newArray ((Surface.readReferences (← textOwner source)).map .text)),
    ("exported_types", .nullary (newArray (Surface.exported.map textValue))),
    ("members_of", .unary membersOf)]

end BaseLib.Library.Operators
