import BaseLib.Library.Collections

namespace BaseLib.Library.Queries

open Collections

def lazily (source : Value) (q : Query) : Action Value := do
  notNull source "source"
  alloc (.sequence q)

def flatten (source f combine : Value) : Action Value := do
  notNull source "source"
  alloc (.sequence (.flatten source f ((← get).takesIndex f) combine))

def concat (first second : Value) : Action Value := do
  notNull first "first"
  notNull second "second"
  alloc (.sequence (.concat first second))

def orderBy (descending : Bool) (source f : Value) : Action Value :=
  lazily source (.ordered source [(f, descending)])

def thenBy (descending : Bool) (source f : Value) : Action Value := do
  match (← get).object? source with
  | some (.sequence (.ordered source keys)) =>
    alloc (.sequence (.ordered source (keys ++ [(f, descending)])))
  | _ => orderBy descending source f

def satisfies (p x : Value) : Action Bool := if p == .null then pure true else holds p [x]

def selected (f x : Value) : Action Value := if f == .null then pure x else apply f [x]

def complaint (p : Value) : Failure := if p == .null then .noElements else .noMatchingElement

def findFirst (source p : Value) : Action (Option Value) := do
  notNull source "source"
  foldSource source none fun _ x => do
    if ← satisfies p x then pure (false, some x) else pure (true, none)

def findLast (source p : Value) : Action (Option Value) := do
  notNull source "source"
  foldSource source none fun last x => do
    if ← satisfies p x then pure (true, some x) else pure (true, last)

def count (source p : Value) : Action Nat := do
  notNull source "source"
  foldSource source 0 fun n x => do
    if ← satisfies p x then pure (true, n + 1) else pure (true, n)

def exists_ (source : Value) (wanted : Bool) (test : Value → Action Bool) : Action Bool := do
  notNull source "source"
  foldSource source false fun _ x => do
    if (← test x) == wanted then pure (false, true) else pure (true, false)

def sum (source f : Value) : Action Value := do
  notNull source "source"
  foldSource source (.int 0) fun total x => do
    let v ← selected f x
    match v.operand? with
    | some _ => pure (true, ← addValues total v)
    | none => misuse .wrongType

/-- Of the value that is kept and a new one the one that comes last in an order, or first for a negative
direction; of equal ones the one that is kept. -/
def better (direction : Int) (best : Option Value) (v : Value) : Action Value := do
  match best with
  | none => pure v
  | some b =>
    let c ← comparison v b
    pure (if 0 < c * direction then v else b)

def extreme (direction : Int) (source f : Value) : Action Value := do
  notNull source "source"
  let best ← foldSource source (none : Option Value) fun best x => do
    pure (true, some (← better direction best (← selected f x)))
  match best with
  | some v => pure v
  | none => fail .noElements

def toDictionary (source k v : Value) : Action Value := do
  notNull source "source"
  let entries ← foldSource source Table.empty fun entries x => do
    let key ← apply k [x]
    let value ← selected v x
    pure (true, ← addBinding entries key value)
  alloc (.dictionary entries)

def members : Members :=
  [("Enumerable.Empty", .nullary (newListOf .list [])),
    ("Enumerable.ToList", .unary fun e => do
      notNull e "source"
      newList .list e),
    ("Enumerable.ToArray", .unary fun e => do
      notNull e "source"
      newArray (← elements e)),
    ("Enumerable.ToDictionary", .ternary toDictionary [.null]),
    ("Enumerable.Cast", .unary pure),
    ("Enumerable.Select", .binary fun e f => lazily e (.select e f)),
    ("Enumerable.SelectMany", .ternary flatten [.null]),
    ("Enumerable.Where", .binary fun e p => lazily e (.filter e p)),
    ("Enumerable.Concat", .binary concat),
    ("Enumerable.Take", .binary fun e n => lazily e (.take e n)),
    ("Enumerable.Skip", .binary fun e n => lazily e (.skip e n)),
    ("Enumerable.Distinct", .unary fun e => lazily e (.distinct e)),
    ("Enumerable.Reverse", .unary fun e => lazily e (.reverse e)),
    ("Enumerable.OrderBy", .binary (orderBy false)),
    ("Enumerable.OrderByDescending", .binary (orderBy true)),
    ("Enumerable.ThenBy", .binary (thenBy false)),
    ("Enumerable.ThenByDescending", .binary (thenBy true)),
    ("Enumerable.First", .binary (fun e p => do
      match ← findFirst e p with
      | some x => pure x
      | none => fail (complaint p)) [.null]),
    ("Enumerable.FirstOrDefault", .binary (fun e p => do
      pure ((← findFirst e p).getD .null)) [.null]),
    ("Enumerable.Last", .binary (fun e p => do
      match ← findLast e p with
      | some x => pure x
      | none => fail (complaint p)) [.null]),
    ("Enumerable.Any", .binary (fun e p => do
      yes (← exists_ e true (satisfies p))) [.null]),
    ("Enumerable.All", .binary fun e p => do
      yes !(← exists_ e false fun x => holds p [x])),
    ("Enumerable.Contains", .binary fun e v => do
      yes (← exists_ e true fun x => do pure ((← get).equals x v))),
    ("Enumerable.Count", .binary (fun e p => do
      pure (.int (← count e p))) [.null]),
    ("Enumerable.Sum", .binary sum [.null]),
    ("Enumerable.Max", .binary (extreme 1) [.null]),
    ("Enumerable.Min", .binary (extreme (-1)) [.null])]

end BaseLib.Library.Queries
