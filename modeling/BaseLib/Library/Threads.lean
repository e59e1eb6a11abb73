import BaseLib.Library.Member

namespace BaseLib.Library.Threads

/-- Are a stored value and a comparand the same? Objects of the library are told apart by identity,
all other values by equality. -/
def sameSlot (s : Session) (stored comparand : Value) : Bool :=
  match s.object? stored with
  | some o => if o.isRooted then stored == comparand else s.equals stored comparand
  | none => s.equals stored comparand

def exchange (holder x : Value) : Action Value := do
  let old ← readHolder holder
  writeHolder holder x
  pure old

def compareExchange (holder x comparand : Value) : Action Value := do
  let old ← readHolder holder
  if sameSlot (← get) old comparand then writeHolder holder x
  pure old

def addTo (holder x : Value) : Action Value := do
  let sum ← addValues (← readHolder holder) x
  writeHolder holder (.int (Word.wrap (← needInt sum)))
  readHolder holder

/-- There is one thread: locks do nothing, and an update has nobody to race with. -/
def newThread (_start : Value) : Action Value := do
  let s ← get
  set { s with nextThread := s.nextThread + 1 }
  alloc (.thread s.nextThread .null)

def members : Members :=
  [("Start", .planned "Thread.Start"), ("Join", .planned "Thread.Join")]

def statics : Members :=
  [("Monitor.Enter", .unary fun _ => done),
    ("Monitor.Exit", .unary fun _ => done),
    ("Monitor.TryEnter", .binary (fun _ _ => yes true) [.int 0]),
    ("Interlocked.CompareExchange", .ternary compareExchange),
    ("Interlocked.Exchange", .binary exchange),
    ("Interlocked.Increment", .unary (addTo · (.int 1))),
    ("Interlocked.Decrement", .unary (addTo · (.int (-1)))),
    ("Interlocked.Add", .binary addTo),
    ("ThreadPool.QueueUserWorkItem", .planned "ThreadPool.QueueUserWorkItem")]

end BaseLib.Library.Threads
