import BaseLib.Collection.Sorting
import BaseLib.Session.Call

namespace BaseLib

def closeGenerator (id : Nat) : Action Unit := do
  match (← get).store[id]? with
  | some (.generator _ closings) => assign id (.generator [] (closings + 1))
  | _ => pure ()

def Walk.close : Walk → Action Unit
  | .generator id => closeGenerator id
  | .guarded w | .select _ w | .filter _ w | .take _ w | .skip _ w | .distinct _ w => w.close
  | .flatten _ _ _ _ _ inner outer => do
    inner.close
    outer.close
  | .chain first second => do
    first.close
    second.close
  | _ => pure ()

/-- What one step of a walk gives: an element, the end or a failure, and the walk after it. -/
abbrev Pulled := Except Fault (Option Value) × Walk

namespace Pulled

def finish : Pulled := (.ok none, .ended)

def give (v : Value) (w : Walk) : Pulled := (.ok (some v), w)

def failWith (e : Fault) (rest : Walk) : Action Pulled := do
  rest.close
  pure (.error e, .ended)

end Pulled

def elementCount (s : Session) (count : Value) : Except Fault Nat := do
  let zero : Value := .int 0
  if ← s.order .gt zero count then pure 0
  else
    match count.asInt? with
    | some n => if n ≤ 9223372036854775807 then pure n.toNat else .error Misuse.badValue
    | none => .error Misuse.badValue

def keyLess (f : Value) : Sorting.Less (StateT Session Id) Value Fault := fun a b s =>
  let less : Action Bool := do
    let x ← apply f [a]
    let y ← apply f [b]
    pure ((← comparison x y) < 0)
  less.run s

/-- Sorts by the last key first, so that earlier keys decide before later ones. -/
def sortByKeys (items : List Value) : List (Value × Bool) → Action (List Value)
  | [] => pure items
  | (f, descending) :: rest => do
    let items ← sortByKeys items rest
    let sort := if descending then Sorting.sortDescending else Sorting.sort
    let (e, sorted) ← fun s =>
      let (r, s) := sort (keyLess f) items s
      (.ok r, s)
    match e with
    | some e => throw e
    | none => pure sorted

def foreignWalk (source : Value) : Action Walk := do
  match source with
  | .text t => pure (.items (t.map fun c => .text [c]))
  | .broken t => pure (.items (t.codes.map fun c => .ofCodes [c]))
  | .ref id =>
    match (← get).store[id]? with
    | some (.array _) => pure (.live id 0)
    | some (.tuple items) => pure (.items items)
    | some (.map entries) => pure (.keys id entries.length 0)
    | some (.generator _ _) => pure (.generator id)
    | some (.cursor _) | some (.plain "IEnumerator") => pure (.cursor id)
    | some (.list _ _) | some (.hashSet _) | some (.dictionary _) | some (.arrayView _)
    | some (.groups _ _) | some (.sequence _) | some (.plain "IEnumerable") => pure (.pending source)
    | _ => misuse .wrongType
  | _ => misuse .wrongType

def newPairs : List (Value × Value) → Action (List Value)
  | [] => pure []
  | (k, v) :: rest => do
    let p ← alloc (.pair k v)
    pure (p :: (← newPairs rest))

def leafStep (w : Walk) : Action Pulled := do
  let s ← get
  match w with
  | .items (x :: rest) => pure (.give x (.items rest))
  | .live array next =>
    match (s.items array)[next]? with
    | some x => pure (.give x (.live array (next + 1)))
    | none => pure .finish
  | .keys map size next =>
    match s.store[map]? with
    | some (.map entries) =>
      if entries.length ≠ size then pure (.error (.misuse .changedMeanwhile), .ended)
      else
        match entries[next]? with
        | some (k, _) => pure (.give k (.keys map size (next + 1)))
        | none => pure .finish
    | _ => pure .finish
  | .generator id =>
    match s.store[id]? with
    | some (.generator (x :: rest) closings) => do
      assign id (.generator rest closings)
      pure (.give x (.generator id))
    | _ => pure (.ok none, .generator id)
  | .busy => pure (.error (.misuse .badValue), .busy)
  | _ => pure .finish

mutual

def openWalk : Nat → Value → Action Walk
  | 0, _ => misuse .tooDeep
  | steps + 1, source => do
    let s ← get
    match s.object? source with
    | some (.list _ storage) => pure (.live storage 0)
    | some (.hashSet members) => pure (.items members.values)
    | some (.dictionary entries) => do pure (.items (← newPairs entries.values))
    | some (.groups members _) => pure (.live members 0)
    | some (.arrayView array) => openWalk steps array
    | some (.sequence q) => openQuery steps q
    | some (.plain "IEnumerable") => misuse .abstractMember
    | _ => foreignWalk source

def openQuery : Nat → Query → Action Walk
  | 0, _ => misuse .tooDeep
  | steps + 1, q => do
    match q with
    | .select source f => pure (.select f (.pending source))
    | .filter source p => pure (.filter p (.pending source))
    | .flatten source f indexed combine =>
      pure (.flatten f indexed combine 0 .null .ended (.pending source))
    | .concat first second => pure (.chain (.pending first) (.pending second))
    | .take source count => do pure (.take (← ofExcept (elementCount (← get) count)) (.pending source))
    | .skip source count => do pure (.skip (← ofExcept (elementCount (← get) count)) (.pending source))
    | .distinct source => pure (.distinct .empty (.pending source))
    | .reverse source => do pure (.items (← drain steps (.pending source)).reverse)
    | .ordered source keys => do
      let items ← drain steps (.pending source)
      pure (.items (← sortByKeys items keys))
    | .factory f => do foreignWalk (← apply f [])

/-- Sources are opened when their first element is asked for. A step that fails ends the walk that it belongs
to; a walk that ends early closes the sequences that come only once. -/
def pull : Nat → Walk → Action Pulled
  | 0, w => pure (.error (.misuse .tooDeep), w)
  | steps + 1, w => do
    match w with
    | .pending source =>
      match ← outcome (openWalk steps source) with
      | .error e => pure (.error e, .ended)
      | .ok w => pull steps (.guarded w)
    | .guarded w =>
      match ← pull steps w with
      | (.error e, w) => Pulled.failWith e w
      | (.ok none, w) => do
        w.close
        pure .finish
      | (.ok (some x), w) => pure (.give x (.guarded w))
    | .cursor id =>
      match ← outcome (advance steps id) with
      | .error e => pure (.error e, .cursor id)
      | .ok none => pure (.ok none, .cursor id)
      | .ok (some x) => pure (.give x (.cursor id))
    | .select f w =>
      match ← pull steps w with
      | (.error e, w) => Pulled.failWith e w
      | (.ok none, _) => pure .finish
      | (.ok (some x), w) =>
        match ← outcome (apply f [x]) with
        | .error e => Pulled.failWith e w
        | .ok y => pure (.give y (.select f w))
    | .filter p w =>
      match ← pull steps w with
      | (.error e, w) => Pulled.failWith e w
      | (.ok none, _) => pure .finish
      | (.ok (some x), w) =>
        match ← outcome (holds p [x]) with
        | .error e => Pulled.failWith e w
        | .ok true => pure (.give x (.filter p w))
        | .ok false => pull steps (.filter p w)
    | .flatten f indexed combine index item inner outer =>
      match ← pull steps inner with
      | (.error e, inner) => do
        inner.close
        Pulled.failWith e outer
      | (.ok (some y), inner) =>
        let rest := Walk.flatten f indexed combine index item inner outer
        if combine == .null then pure (.give y rest)
        else
          match ← outcome (apply combine [item, y]) with
          | .error e => Pulled.failWith e rest
          | .ok z => pure (.give z rest)
      | (.ok none, _) =>
        match ← pull steps outer with
        | (.error e, outer) => Pulled.failWith e outer
        | (.ok none, _) => pure .finish
        | (.ok (some x), outer) =>
          match ← outcome (apply f (if indexed then [x, .int index] else [x])) with
          | .error e => Pulled.failWith e outer
          | .ok source =>
            pull steps (.flatten f indexed combine (index + 1) x (.pending source) outer)
    | .chain first second =>
      match ← pull steps first with
      | (.error e, first) => pure (.error e, .chain first second)
      | (.ok none, _) => pull steps second
      | (.ok (some x), first) => pure (.give x (.chain first second))
    | .take 0 w => do
      w.close
      pure .finish
    | .take (count + 1) w =>
      match ← pull steps w with
      | (.error e, w) => Pulled.failWith e w
      | (.ok none, _) => pure .finish
      | (.ok (some x), w) => pure (.give x (.take count w))
    | .skip count w =>
      match ← pull steps w with
      | (.error e, w) => Pulled.failWith e w
      | (.ok none, _) => pure .finish
      | (.ok (some x), w) =>
        match count with
        | 0 => pure (.give x (.skip 0 w))
        | count + 1 => pull steps (.skip count w)
    | .distinct seen w =>
      match ← pull steps w with
      | (.error e, w) => Pulled.failWith e w
      | (.ok none, _) => pure .finish
      | (.ok (some x), w) =>
        match seen.add? (← get).keying x x with
        | some seen => pure (.give x (.distinct seen w))
        | none => pull steps (.distinct seen w)
    | w => leafStep w

/-- Moves a cursor to its next element. At the end the cursor is exhausted and its walk given up; a
failure leaves its state as it was, and so does a move that its own walk asks for. -/
def advance : Nat → Nat → Action (Option Value)
  | 0, _ => misuse .tooDeep
  | steps + 1, id => do
    match (← get).store[id]? with
    | some (.cursor c) =>
      if c.state == .exhausted then pure none
      else do
        assign id (.cursor { c with walk := .busy })
        match ← pull steps c.walk with
        | (.error e, w) => do
          assign id (.cursor { c with walk := w })
          throw e
        | (.ok none, w) => do
          assign id (.cursor { c with state := .exhausted, current := .null, walk := .ended })
          w.close
          pure none
        | (.ok (some x), w) => do
          assign id (.cursor { c with state := .positioned, current := x, walk := w })
          pure (some x)
    | _ => misuse .abstractMember

def drain : Nat → Walk → Action (List Value)
  | 0, _ => misuse .tooDeep
  | steps + 1, w => do
    match ← pull steps w with
    | (.error e, _) => throw e
    | (.ok none, _) => pure []
    | (.ok (some x), w) => do pure (x :: (← drain steps w))

end

def foldWalk {σ : Type} (step : σ → Value → Action (Bool × σ)) : Nat → σ → Walk → Action σ
  | 0, _, _ => misuse .tooDeep
  | steps + 1, state, w => do
    match ← pull steps w with
    | (.error e, _) => throw e
    | (.ok none, _) => pure state
    | (.ok (some x), w) =>
      match ← outcome (step state x) with
      | .error e => do
        w.close
        throw e
      | .ok (true, state) => foldWalk step steps state w
      | .ok (false, state) => do
        w.close
        pure state

def foldSource {σ : Type} (source : Value) (state : σ) (step : σ → Value → Action (Bool × σ)) :
    Action σ := do
  foldWalk step (← get).steps state (.pending source)

def elements (source : Value) : Action (List Value) := do
  drain (← get).steps (.pending source)

def Session.cursorKind (s : Session) (source : Value) : CursorKind :=
  match s.object? source with
  | some (.list _ _) => .list
  | some (.hashSet _) => .hashSet
  | some (.dictionary _) => .dictionary
  | some (.groups _ _) | some (.arrayView _) | some (.array _) => .array
  | _ => .iterator

def newCursor (source : Value) : Action Value := do
  let s ← get
  let walk ← openWalk s.steps source
  alloc (.cursor (.start (s.cursorKind source) walk))

def moveNext (id : Nat) : Action Bool := do pure (← advance (← get).steps id).isSome

def disposeCursor (id : Nat) : Action Unit := do
  match (← get).store[id]? with
  | some (.cursor c) =>
    if c.state != .exhausted then
      assign id (.cursor { c with state := .exhausted, current := .null, walk := .ended })
      c.walk.close
  | _ => misuse .abstractMember

def currentOf (c : Cursor) : Except Failure Value :=
  match c.state with
  | .notStarted => .error .notStarted
  | .exhausted => .error .alreadyFinished
  | .positioned => .ok c.current

end BaseLib
