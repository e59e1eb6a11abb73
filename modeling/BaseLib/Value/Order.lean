import BaseLib.Value.Datum

namespace BaseLib

inductive OrderOp
  | lt
  | le
  | gt
  | ge
  deriving DecidableEq, Repr

namespace OrderOp

def holds : OrderOp → Ordering → Bool
  | lt, o => o == .lt
  | le, o => o != .gt
  | gt, o => o == .gt
  | ge, o => o != .lt

def flip : OrderOp → OrderOp
  | lt => gt
  | le => ge
  | gt => lt
  | ge => le

end OrderOp

def Ordering.sign : Ordering → Int
  | .lt => -1
  | .eq => 0
  | .gt => 1

namespace Datum

def ticks? : Datum → Option Int
  | timeSpan t => some t.ticks
  | dateTime d => some d.ticks
  | _ => none

def compareSpan (t : TimeSpan) (y : Datum) : Except Fault Ordering :=
  match y.ticks? with
  | some n => .ok (compare t.ticks n)
  | none => .error Misuse.noSuchMember

def compareTime (offset : Int) (d : DateTime) : Datum → Except Fault Ordering
  | null => .ok .gt
  | dateTime e => .ok (d.cmp offset e)
  | _ => .error Misuse.noSuchMember

/-- The order of values without parts. NaN has none, so no operator holds of it. -/
def orderLeaf (offset : Int) (op : OrderOp) : Datum → Datum → Except Fault Bool
  | timeSpan t, y => (compareSpan t y).map op.holds
  | dateTime d, y => (compareTime offset d y).map op.holds
  | x, timeSpan t => (compareSpan t x).map op.flip.holds
  | x, dateTime d => (compareTime offset d x).map op.flip.holds
  | text a, text b => .ok (op.holds (compareOfLessAndEq a b))
  | x, y =>
    match x.number?, y.number? with
    | some a, some b => .ok ((a.compare? b).any op.holds)
    | _, _ => .error Misuse.wrongType

mutual

def order (offset : Int) (op : OrderOp) : Datum → Datum → Except Fault Bool
  | array id items, y => match y with
    | array id' items' => if id = id' then .ok (op.holds .eq) else orderAll offset op items items'
    | _ => orderLeaf offset op (array id items) y
  | tuple items, y => match y with
    | tuple items' => orderAll offset op items items'
    | _ => orderLeaf offset op (tuple items) y
  | x, y => orderLeaf offset op x y

def orderAll (offset : Int) (op : OrderOp) : List Datum → List Datum → Except Fault Bool
  | [], [] => .ok (op.holds .eq)
  | [], _ => .ok (op.holds .lt)
  | _, [] => .ok (op.holds .gt)
  | x :: xs, y :: ys => if eqv offset true x y then orderAll offset op xs ys else order offset op x y

end

def refuseType {α : Type} : Except Fault α → Except Fault α
  | .error (.misuse .wrongType) => .error Failure.incomparable
  | r => r

/-- The three-way comparison: null first, times and durations by their own order, all else by the
operators. -/
def compare3 (offset : Int) (x y : Datum) : Except Fault Int :=
  match x, y with
  | null, null => .ok 0
  | null, _ => .ok (-1)
  | _, null => .ok 1
  | timeSpan t, y => (compareSpan t y).map Ordering.sign
  | dateTime d, y => (compareTime offset d y).map Ordering.sign
  | x, y => refuseType do
    let after ← order offset .gt x y
    let before ← order offset .lt x y
    pure (after.toNat - before.toNat : Int)

end Datum

end BaseLib
