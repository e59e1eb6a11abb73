import BaseLib.Regex.Charset

namespace BaseLib.Regex

inductive Anchor
  | textStart
  | lineStart
  | textEnd
  | lineEnd
  | lastLineEnd
  | boundary (ascii negated : Bool)
  deriving DecidableEq, Repr

inductive Greed
  | greedy
  | lazy
  | possessive
  deriving DecidableEq, Repr

inductive Pattern
  | empty
  | char (test : CharTest)
  | anchor (a : Anchor)
  | seq (first second : Pattern)
  | alt (first second : Pattern)
  | capture (group : Nat) (body : Pattern)
  | wrap (body : Pattern)
  | atomic (body : Pattern)
  | backref (group : Nat) (f : Folding)
  | conditional (group : Nat) (yes no : Pattern)
  | ahead (negated : Bool) (body : Pattern)
  | behind (negated : Bool) (width : Nat) (body : Pattern)
  | repetition (low : Nat) (high : Option Nat) (greed : Greed) (body : Pattern)
  deriving DecidableEq, Repr, Inhabited

namespace Pattern

/-- A greatest length stands for itself up to this bound, which means unbounded. -/
def unbounded : Nat := 0x10000000000000000

def width (groups : Nat → Nat × Nat) : Pattern → Nat × Nat
  | empty | anchor _ | ahead _ _ | behind _ _ _ => (0, 0)
  | char _ => (1, 1)
  | seq p q => bounded ((p.width groups).1 + (q.width groups).1, (p.width groups).2 + (q.width groups).2)
  | alt p q => (min (p.width groups).1 (q.width groups).1, max (p.width groups).2 (q.width groups).2)
  | capture _ p | wrap p | atomic p => p.width groups
  | backref g _ => groups g
  | conditional _ p q =>
    (min (p.width groups).1 (q.width groups).1, max (p.width groups).2 (q.width groups).2)
  | repetition low high _ p =>
    let (least, greatest) := p.width groups
    bounded (least * low,
      match high with
      | some n => greatest * n
      | none => if greatest = 0 then 0 else unbounded)
where
  bounded (w : Nat × Nat) : Nat × Nat := (min w.1 unbounded, min w.2 unbounded)

def ofList : List Pattern → Pattern
  | [] => empty
  | [p] => p
  | p :: ps => seq p (ofList ps)

def ofBranches : List Pattern → Pattern
  | [] => empty
  | [p] => p
  | p :: ps => alt p (ofBranches ps)

end Pattern

structure Program where
  body : Pattern
  groups : Nat
  names : List (String × Nat)
  deriving DecidableEq, Repr, Inhabited

end BaseLib.Regex
