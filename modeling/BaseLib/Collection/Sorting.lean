namespace BaseLib.Sorting

variable {m : Type → Type} [Monad m] {α ε : Type}

abbrev Less (m : Type → Type) (α ε : Type) := α → α → m (Except ε Bool)

def runLength (less : Less m α ε) (descending : Bool) : α → List α → m (Except ε Nat)
  | _, [] => pure (.ok 0)
  | prev, x :: rest => do
    match ← less x prev with
    | .error e => pure (.error e)
    | .ok b =>
      if b == descending then
        match ← runLength less descending x rest with
        | .error e => pure (.error e)
        | .ok n => pure (.ok (n + 1))
      else pure (.ok 0)

def firstRun (less : Less m α ε) (xs : List α) : m (Except ε (List α × List α)) := do
  match xs with
  | x :: y :: rest =>
    match ← less y x with
    | .error e => pure (.error e)
    | .ok descending =>
      match ← runLength less descending y rest with
      | .error e => pure (.error e)
      | .ok n =>
        let run := xs.take (n + 2)
        pure (.ok (if descending then run.reverse else run, xs.drop (n + 2)))
  | _ => pure (.ok (xs, []))

/-- The place of `x` in a sorted list, between `low` and `low + width`, after all elements that do not
come after it. -/
def bisect (less : Less m α ε) (sorted : List α) (x : α) (low : Nat) : Nat → m (Except ε Nat)
  | 0 => pure (.ok low)
  | width + 1 =>
    let half := (width + 1) / 2
    match sorted[low + half]? with
    | none => pure (.ok low)
    | some y => do
      match ← less x y with
      | .error e => pure (.error e)
      | .ok true => bisect less sorted x low half
      | .ok false => bisect less sorted x (low + half + 1) (width - half)
termination_by width => width

def insertAll (less : Less m α ε) (sorted : List α) : List α → m (Option ε × List α)
  | [] => pure (none, sorted)
  | x :: rest => do
    match ← bisect less sorted x 0 sorted.length with
    | .error e => pure (some e, sorted ++ x :: rest)
    | .ok i => insertAll less (sorted.insertIdx i x) rest

/-- Sorts a sequence and keeps the order of equal elements; with an error, the sequence as far as it came. The
first run is reversed if it descends strictly, and all elements after it are put in place by bisection, however
many there are: merging runs from 64 elements on makes other comparisons, and comes to another sequence only if
they are inconsistent or fail. -/
def sort (less : Less m α ε) (xs : List α) : m (Option ε × List α) := do
  match ← firstRun less xs with
  | .error e => pure (some e, xs)
  | .ok (run, rest) => insertAll less run rest

def sortDescending (less : Less m α ε) (xs : List α) : m (Option ε × List α) := do
  let (e, sorted) ← sort less xs.reverse
  pure (e, sorted.reverse)

end BaseLib.Sorting
