namespace BaseLib.Text

def find? (p : List Char) : List Char → Option Nat
  | [] => if p.isEmpty then some 0 else none
  | c :: s => if p.isPrefixOf (c :: s) then some 0 else (find? p s).map (· + 1)

def findLast? (p : List Char) : List Char → Option Nat
  | [] => if p.isEmpty then some 0 else none
  | c :: s =>
    match findLast? p s with
    | some i => some (i + 1)
    | none => if p.isPrefixOf (c :: s) then some 0 else none

def findFrom? (p s : List Char) (start : Nat) : Option Nat :=
  (find? p (s.drop start)).map (· + start)

def contains (s p : List Char) : Bool := (find? p s).isSome

/-- Replaces the occurrences of a nonempty text; the next `skip` characters are part of one. -/
def replaceAfter (old new : List Char) : Nat → List Char → List Char
  | _, [] => []
  | skip + 1, _ :: s => replaceAfter old new skip s
  | 0, c :: s =>
    if old.isPrefixOf (c :: s) then new ++ replaceAfter old new (old.length - 1) s
    else c :: replaceAfter old new 0 s

def replace (old new s : List Char) : List Char :=
  if old.isEmpty then new ++ s.flatMap (· :: new) else replaceAfter old new 0 s

/-- Cuts a text where `width` finds a separator, and says how many of the next characters belong to
one. The result is the first piece and the others. -/
def cutAfter (width : List Char → Nat) : Nat → List Char → List Char × List (List Char)
  | _, [] => ([], [])
  | skip + 1, _ :: s => cutAfter width skip s
  | 0, c :: s =>
    match width (c :: s) with
    | 0 =>
      let (first, others) := cutAfter width 0 s
      (c :: first, others)
    | n + 1 =>
      let (first, others) := cutAfter width n s
      ([], first :: others)

def cut (width : List Char → Nat) (s : List Char) : List (List Char) :=
  let (first, others) := cutAfter width 0 s
  first :: others

def byLength (separators : List (List Char)) : List (List Char) :=
  separators.mergeSort fun p q => q.length ≤ p.length

/-- The length of the first separator that stands at the front of a text, zero if there is none. -/
def firstAt (separators : List (List Char)) (s : List Char) : Nat :=
  ((separators.find? (·.isPrefixOf s)).map List.length).getD 0

def splitOnAny (separators : List (List Char)) (s : List Char) : List (List Char) :=
  cut (firstAt (byLength separators)) s

def splitOn (separator s : List Char) : List (List Char) :=
  cut (fun t => if separator.isPrefixOf t then separator.length else 0) s

def breakOn (p s : List Char) : List Char × Option (List Char) :=
  match find? p s with
  | some i => (s.take i, some (s.drop (i + p.length)))
  | none => (s, none)

def join (separator : List Char) (parts : List (List Char)) : List Char :=
  separator.intercalate parts

end BaseLib.Text
