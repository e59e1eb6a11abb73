import BaseLib.Bytes.Encoding
import BaseLib.Session.Report
import BaseLib.Session.Value
import BaseLib.Value.Order

namespace BaseLib

structure LogRecord where
  logger : String
  level : String
  text : List Char
  deriving DecidableEq, Repr, Inhabited

structure Session where
  store : Array Object
  /-- How many steps an enumeration or a chain of calls may take. -/
  steps : Nat
  /-- Minutes that the clock of the host runs ahead of UTC. -/
  offset : Int
  now : DateTime
  /-- The names of characters that the host knows. -/
  characters : Regex.CharacterNames
  /-- The options in force; none until they are asked for. -/
  options : Option Options
  environment : List (List Char × List Char)
  console : Value
  nextThread : Nat
  bindings : List (String × Value)
  trace : List Report
  stdout : List Char
  stderr : List Char
  log : List LogRecord
  deriving Inhabited

/-- An action works on a session and may fail; what it changed before it failed stays changed. -/
abbrev Action (α : Type) := ExceptT Fault (StateM Session) α

namespace Session

def singletons : List (String × Object) :=
  [("CultureInfo.InvariantCulture.NumberFormat", .symbols NumberSymbols.invariant),
    ("CultureInfo.InvariantCulture", .culture (.text "Invariant".toList) (.ref 0)),
    ("TimeSpan.Zero", .timeSpan TimeSpan.zero),
    ("TimeSpan.MaxValue", .timeSpan TimeSpan.maxValue),
    ("TimeSpan.MinValue", .timeSpan TimeSpan.minValue),
    ("DateTime.MinValue", .dateTime DateTime.minValue),
    ("DateTime.MaxValue", .dateTime DateTime.maxValue),
    ("Encoding.UTF8", .encoding Encoding.utf8.codeName.toList),
    ("Encoding.ASCII", .encoding Encoding.ascii.codeName.toList),
    ("Encoding.Unicode", .encoding Encoding.utf16.codeName.toList),
    ("EventArgs.Empty", .plain "EventArgs"),
    ("Thread.CurrentThread", .thread 1 .null),
    ("Console.Out", .writer (.host "stdout".toList) .null)]

def singleton? (path : String) : Option Value :=
  let i := singletons.findIdx (·.1 == path)
  if i < singletons.length then some (.ref i) else none

def currentCulture : Nat := 1

def start (offset : Int) : Session where
  store := (singletons.map (·.2)).toArray
  steps := 1000000
  offset
  now := DateTime.minValue
  characters := .empty
  options := none
  environment := []
  console := (singleton? "Console.Out").getD .null
  nextThread := 2
  bindings := []
  trace := []
  stdout := []
  stderr := []
  log := []

def object? (s : Session) : Value → Option Object
  | .ref id => s.store[id]?
  | _ => none

/-- No chain of distinct objects is longer than this. -/
def depth (s : Session) : Nat := s.store.size + 1

def items (s : Session) (id : Nat) : List Value :=
  match s.store[id]? with
  | some (.array items) => items
  | _ => []

def buffer (s : Session) (id : Nat) : Text.Buffer :=
  match s.store[id]? with
  | some (.builder text) => text
  | _ => .empty

end Session

def fail {α : Type} (f : Failure) : Action α := throw (.failure f)

def misuse {α : Type} (m : Misuse) : Action α := throw (.misuse m)

def ofExcept {α : Type} : Except Fault α → Action α
  | .ok a => pure a
  | .error e => throw e

def ofResult {α : Type} : Except Failure α → Action α
  | .ok a => pure a
  | .error e => fail e

def outcome {α : Type} (a : Action α) : Action (Except Fault α) := fun s =>
  let (r, s) := a.run s
  (.ok r, s)

def alloc (o : Object) : Action Value := do
  let s ← get
  set { s with store := s.store.push o }
  pure (.ref s.store.size)

def allocArray (items : List Value) : Action Nat := do
  let s ← get
  set { s with store := s.store.push (.array items) }
  pure s.store.size

def newArray (items : List Value) : Action Value := do pure (.ref (← allocArray items))

def assign (id : Nat) (o : Object) : Action Unit :=
  modify fun s => { s with store := s.store.setIfInBounds id o }

def record (r : Report) : Action Unit := modify fun s => { s with trace := s.trace ++ [r] }

def readOptions : Action Options := do
  let s ← get
  match s.options with
  | some o => pure o
  | none =>
    let o ← ofResult (Options.ofEnvironment fun name => s.environment.lookup name.toList)
    modify fun s => { s with options := some o }
    pure o

def refusePlanned {α : Type} (member : String) : Action α := do
  let o ← readOptions
  if o.tracePlanned then
    modify fun s =>
      { s with log := s.log ++
        [⟨"corlib.errors", "WARNING", ("unported member called: " ++ member).toList⟩] }
  fail (.planned member)

end BaseLib
