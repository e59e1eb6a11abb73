namespace BaseLib.Text

/-- The code points `first, first + stride, …` up to `last`. -/
structure Run where
  first : Nat
  last : Nat
  stride : Nat
  deriving Repr

namespace Run

def mem (r : Run) (n : Nat) : Bool :=
  r.first ≤ n && n ≤ r.last && (n - r.first) % r.stride == 0

def anyMem (rs : List Run) (n : Nat) : Bool := rs.any (·.mem n)

end Run

structure Shift extends Run where
  delta : Int
  deriving Repr

namespace Shift

def map? (ss : List Shift) (n : Nat) : Option Nat :=
  (ss.find? (·.mem n)).map fun s => ((n : Int) + s.delta).toNat

end Shift

end BaseLib.Text
