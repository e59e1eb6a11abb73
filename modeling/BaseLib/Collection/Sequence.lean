import BaseLib.Error

namespace BaseLib.Sequence

variable {α : Type}

def position (limit : Nat) (index : Int) : Except Failure Nat :=
  if 0 ≤ index ∧ index < limit then .ok index.toNat else .error .elementIndex

def get (xs : List α) (index : Int) : Except Failure α := do
  let i ← position xs.length index
  match xs[i]? with
  | some x => pure x
  | none => throw .elementIndex

def set (xs : List α) (index : Int) (x : α) : Except Failure (List α) := do
  let i ← position xs.length index
  pure (xs.set i x)

def insert (xs : List α) (index : Int) (x : α) : Except Failure (List α) := do
  let i ← position (xs.length + 1) index
  pure (xs.insertIdx i x)

def removeAt (xs : List α) (index : Int) : Except Failure (List α) := do
  let i ← position xs.length index
  pure (xs.eraseIdx i)

def removeRange (xs : List α) (index count : Int) : Except Failure (List α) :=
  if index < 0 then .error (.outOfRange "index")
  else if count < 0 then .error (.outOfRange "count")
  else if (xs.length : Int) - index < count then .error .boundsOutside
  else .ok (xs.take index.toNat ++ xs.drop (index.toNat + count.toNat))

/-- The first position whose element equals `x`; the element stands on the left of the equality. -/
def indexOf? (same : α → α → Bool) (xs : List α) (x : α) : Option Nat :=
  xs.findIdx? fun y => same y x

def indexOf (same : α → α → Bool) (xs : List α) (x : α) : Int :=
  match indexOf? same xs x with
  | some i => i
  | none => -1

def remove (same : α → α → Bool) (xs : List α) (x : α) : List α × Bool :=
  match indexOf? same xs x with
  | some i => (xs.eraseIdx i, true)
  | none => (xs, false)

def pop (xs : List α) : Except Failure (α × List α) :=
  match xs.getLast? with
  | some x => .ok (x, xs.dropLast)
  | none => .error .stackEmpty

def peek (xs : List α) : Except Failure α :=
  match xs.getLast? with
  | some x => .ok x
  | none => .error .stackEmpty

def resize (fill : α) (xs : List α) (length : Nat) : List α :=
  xs.take length ++ List.replicate (length - xs.length) fill

end BaseLib.Sequence
