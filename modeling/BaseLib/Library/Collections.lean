import BaseLib.Library.Member

namespace BaseLib.Library.Collections

def keyed : Action (Keying Value) := do pure (← get).keying

def extend (storage : Nat) (source : Value) : Action Unit := do
  discard <| foldSource source () fun _ v => do
    assign storage (.array ((← get).items storage ++ [v]))
    pure (true, ())

def addRange (self storage : Nat) (source : Value) : Action Value := do
  if source == .null then fail .nullCollection
  else if source == .ref self then do
    let items := (← get).items storage
    assign storage (.array (items ++ items))
    done
  else do
    extend storage source
    done

def newList (kind : ListKind) (source : Value) : Action Value := do
  match source, source.integer? with
  | .null, _ => newListOf kind []
  | _, some capacity =>
    if capacity < 0 then fail (.outOfRange "capacity") else newListOf kind []
  | source, none => do newListOf kind (← elements source)

def update (storage : Nat) (f : List Value → Except Failure (List Value)) : Action Value := do
  assign storage (.array (← ofResult (f ((← get).items storage))))
  done

def exchange (self : Nat) (kind : ListKind) (items : List Value) : Action Unit := do
  let storage ← allocArray items
  assign self (.list kind storage)

def comparedLess (comparison : Value) : Sorting.Less (StateT Session Id) Value Fault := fun a b s =>
  let less : Action Bool := do
    if comparison == .null then pure ((← BaseLib.comparison a b) < 0)
    else do orderOf .lt (← apply comparison [a, b]) (.int 0)
  less.run s

def sort (storage : Nat) (comparison : Value) : Action Value := do
  let items := (← get).items storage
  let (e, sorted) ← fun s =>
    let (r, s) := Sorting.sort (comparedLess comparison) items s
    (.ok r, s)
  assign storage (.array sorted)
  match e with
  | some e => throw e
  | none => done

def keptBy (p : Value) : List Value → Action (List Value)
  | [] => pure []
  | x :: xs => do
    if ← holds p [x] then keptBy p xs else do pure (x :: (← keptBy p xs))

def removeAll (self : Nat) (kind : ListKind) (storage : Nat) (p : Value) : Action Value := do
  let items := (← get).items storage
  let kept ← keptBy p items
  exchange self kind kept
  pure (.int (items.length - kept.length : Nat))

def indexIn (items : List Value) (v : Value) : Action Int := do
  pure (Sequence.indexOf (← get).equals items v)

def remove (storage : Nat) (v : Value) : Action Value := do
  let s ← get
  let (items, removed) := Sequence.remove s.equals (s.items storage) v
  assign storage (.array items)
  yes removed

def listMembers (self : Nat) (kind : ListKind) (storage : Nat) : Members :=
  let contents : Action (List Value) := do pure ((← get).items storage)
  let stackMembers : Members :=
    [("Push", .unary fun v => update storage fun xs => .ok (xs ++ [v])),
      ("Pop", .nullary do
        let (x, rest) ← ofResult (Sequence.pop (← contents))
        assign storage (.array rest)
        pure x),
      ("Peek", .nullary do ofResult (Sequence.peek (← contents)))]
  [("get_Item", .unary fun i => do
      let i ← needInt i
      ofResult (Sequence.get (← contents) i)),
    ("set_Item", .binary fun i v => do
      let i ← needInt i
      update storage (Sequence.set · i v)),
    ("Add", .unary fun v => update storage fun xs => .ok (xs ++ [v])),
    ("AddRange", .unary (addRange self storage)),
    ("Insert", .binary fun i v => do
      let i ← needInt i
      update storage (Sequence.insert · i v)),
    ("RemoveAt", .unary fun i => do
      let i ← needInt i
      update storage (Sequence.removeAt · i)),
    ("RemoveRange", .binary fun i n => do
      let i ← needInt i
      let n ← needInt n
      update storage (Sequence.removeRange · i n)),
    ("Remove", .unary (remove storage)),
    ("RemoveAll", .unary (removeAll self kind storage)),
    ("Clear", .nullary do
      exchange self kind []
      done),
    ("ToArray", .nullary do newArray (← contents)),
    ("IndexOf", .unary fun v => do pure (.int (← indexIn (← contents) v))),
    ("Contains", .unary fun v => do yes (0 ≤ (← indexIn (← contents) v))),
    ("Reverse", .nullary (update storage fun xs => .ok xs.reverse)),
    ("Sort", .unary (sort storage) [.null])] ++
  if kind = .stack then stackMembers else []

def addMember (members : Table Value Value) (v : Value) : Action (Table Value Value × Bool) := do
  match members.add? (← keyed) v v with
  | some members => pure (members, true)
  | none => pure (members, false)

def newSet (source : Value) : Action Value := do
  if source == .null then alloc (.hashSet .empty)
  else do
    let members ← foldSource source Table.empty fun members v => do
      pure (true, (← addMember members v).1)
    alloc (.hashSet members)

def setMembers (self : Nat) (members : Table Value Value) : Members :=
  [("Add", .unary fun v => do
      let (members, added) ← addMember members v
      assign self (.hashSet members)
      yes added),
    ("Contains", .unary fun v => do yes (members.contains (← keyed) v)),
    ("Remove", .unary fun v => do
      let keying ← keyed
      assign self (.hashSet (members.erase keying v))
      yes (members.contains keying v)),
    ("Clear", .nullary do
      assign self (.hashSet .empty)
      done)]

def addBinding (entries : Table Value (Value × Value)) (k v : Value) :
    Action (Table Value (Value × Value)) := do
  let s ← get
  match entries.add? s.keying k (k, v) with
  | some entries => pure entries
  | none => fail (.keyTaken (← displayOf k))

def addBindings (entries : Table Value (Value × Value)) :
    List (Value × Value) → Action (Table Value (Value × Value))
  | [] => pure entries
  | (k, v) :: rest => do addBindings (← addBinding entries k v) rest

def newDictionary (other : Value) : Action Value := do
  match other, other.integer? with
  | .null, _ | _, some _ => alloc (.dictionary .empty)
  | other, none =>
    match (← get).object? other with
    | some (.dictionary entries) => alloc (.dictionary entries)
    | some (.map entries) => do alloc (.dictionary (← addBindings .empty entries))
    | _ => fail .notADictionary

def setItem (self : Nat) (entries : Table Value (Value × Value)) (k v : Value) : Action Value := do
  assign self (.dictionary (bindKey (← get) k v entries))
  done

def tryGetValue (entries : Table Value (Value × Value)) (k holder : Value) : Action Value := do
  let found := entries.get? (← keyed) k
  writeHolder holder ((found.map (·.2)).getD .null)
  yes found.isSome

def dictionaryMembers (self : Nat) (entries : Table Value (Value × Value)) : Members :=
  [("get_Item", .unary (dictionaryItem entries)),
    ("set_Item", .binary (setItem self entries)),
    ("Add", .binary fun k v => do
      assign self (.dictionary (← addBinding entries k v))
      done),
    ("TryGetValue", .binary (tryGetValue entries)),
    ("ContainsKey", .unary fun k => do yes (entries.contains (← keyed) k)),
    ("ContainsValue", .unary fun v => do
      let s ← get
      yes (entries.values.any fun e => s.equals e.2 v)),
    ("Remove", .unary fun k => do
      let keying ← keyed
      assign self (.dictionary (entries.erase keying k))
      yes (entries.contains keying k)),
    ("Clear", .nullary do
      assign self (.dictionary .empty)
      done)]

def resize (holder newLength : Value) : Action Value := do
  let n ← needInt newLength
  if n < 0 then fail (.outOfRange "newSize")
  let old ← readHolder holder
  if old == .null then
    if Word.maxSize < n.toNat then misuse .tooLarge
    writeHolder holder (← newArray (List.replicate n.toNat .null))
  else
    let (_, items) ← arrayOf old
    if (items.length : Int) != n then
      if items.length + Word.maxSize < n.toNat then misuse .tooLarge
      writeHolder holder (← newArray (Sequence.resize .null items n.toNat))
  done

def arrays : Members :=
  [("NArray.IndexOf", .binary fun values v => do
      pure (.int (← indexIn (← iterated values) v))),
    ("NArray.ToEnumerable", .unary fun array => alloc (.arrayView array)),
    ("NArray.Resize", .binary resize)]

def newCursorOf (kind : CursorKind) (source : Value) : Action Value := do
  let s ← get
  let walk ←
    match kind with
    | .iterator => foreignWalk source
    | .array => openWalk s.steps (← alloc (.arrayView source))
    | _ =>
      if s.cursorKind source = kind then openWalk s.steps source else misuse .noSuchMember
  alloc (.cursor (.start kind walk))

def cursorMembers (self : Nat) : Members :=
  [("MoveNext", .nullary do yes (← moveNext self)),
    ("Dispose", .nullary do
      disposeCursor self
      done)]

end BaseLib.Library.Collections
