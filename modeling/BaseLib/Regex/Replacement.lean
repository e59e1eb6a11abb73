import BaseLib.Regex.Match
import BaseLib.Text.Composite

namespace BaseLib.Regex

structure GroupTable where
  groups : List Group
  names : List (List Char)
  deriving DecidableEq, Repr, Inhabited

namespace GroupTable

def ofMatch (m : Match) : GroupTable := ⟨m.groups, m.regex.groupNames⟩

def hasNumber (t : GroupTable) (n : Int) : Bool := 0 ≤ n && n < t.groups.length

def hasName (t : GroupTable) (name : List Char) : Bool := t.names.contains name

def byNumber (t : GroupTable) (n : Int) : Group :=
  let absent := Group.absent (Decimal.withSign (n < 0) (Decimal.digits n.natAbs))
  if n < 0 then absent else (t.groups[n.toNat]?).getD absent

def byKnownName (t : GroupTable) (name : List Char) : Group :=
  (t.groups[t.names.idxOf name]?).getD (Group.absent name)

def keyed? (t : GroupTable) (key : List Char) : Except Fault (Option Group) :=
  if Text.allDigits key then do
    let n ← Text.Composite.readNumeral key
    pure (if t.hasNumber n then some (t.byNumber n) else none)
  else .ok (if t.hasName key then some (t.byKnownName key) else none)

/-- The longest beginning of a run of digits, `length` of them at most, that numbers a group. -/
def longest? (t : GroupTable) (run : List Char) : Nat → Except Fault (Option (Nat × Group))
  | 0 => .ok none
  | length + 1 => do
    let n ← Text.Composite.readNumeral (run.take (length + 1))
    if t.hasNumber n then pure (some (length + 1, t.byNumber n)) else t.longest? run length

end GroupTable

structure Site where
  table : GroupTable
  whole : Group
  text : List Char
  deriving DecidableEq, Repr, Inhabited

def Site.ofMatch (m : Match) (text : List Char) : Site := ⟨GroupTable.ofMatch m, m.whole, text⟩

namespace Site

def lastGroup (s : Site) : List Char :=
  if 1 < s.table.groups.length then (s.table.groups.getLast?.map (·.value)).getD [] else []

/-- What the text after a dollar sign asks for, and how many of its characters do. -/
def token? (s : Site) (after : List Char) : Except Fault (Option (Nat × List Char)) :=
  match after with
  | [] => .ok none
  | '$' :: _ => .ok (some (1, ['$']))
  | '&' :: _ => .ok (some (1, s.whole.value))
  | '\x60' :: _ => .ok (some (1, s.text.take s.whole.index))
  | '\'' :: _ => .ok (some (1, s.text.drop (s.whole.index + s.whole.length)))
  | '_' :: _ => .ok (some (1, s.text))
  | '+' :: _ => .ok (some (1, s.lastGroup))
  | '\x7b' :: rest =>
    match Text.breakOn ['\x7d'] rest with
    | (key, some _) => do
      let g ← s.table.keyed? key
      pure (g.map fun g => (key.length + 2, g.value))
    | (_, none) => .ok none
  | rest => do
    let run := rest.takeWhile (Text.isDigit ·.toNat)
    let g ← s.table.longest? run run.length
    pure (g.map fun (n, g) => (n, g.value))

/-- Expands a replacement text; `skip` more characters belong to the last token. -/
def expandAfter (s : Site) : Nat → List Char → Except Fault (List Char)
  | _, [] => .ok []
  | skip + 1, _ :: rest => s.expandAfter skip rest
  | 0, c :: rest =>
    if c = '$' then do
      match ← s.token? rest with
      | some (n, value) => do pure (value ++ (← s.expandAfter n rest))
      | none => do pure ('$' :: (← s.expandAfter 0 rest))
    else do pure (c :: (← s.expandAfter 0 rest))

def expand (s : Site) (replacement : List Char) : Except Fault (List Char) :=
  s.expandAfter 0 replacement

end Site

end BaseLib.Regex
