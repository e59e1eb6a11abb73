import BaseLib.Library.Member

namespace BaseLib.Library.Events

def without (same : Value → Value → Bool) (listeners : List Value) (listener : Value) : List Value :=
  listeners.eraseP fun x => same x listener

def members (self : Nat) (listeners : List Value) : Members :=
  [("Add", .unary fun f => do
      assign self (.event (listeners ++ [f]))
      done),
    ("Remove", .unary fun f => do
      assign self (.event (without (← get).looselyEquals listeners f))
      done),
    ("ToMulticastFunction", .nullary do
      if listeners.isEmpty then pure .null else alloc (.multicast self))]

def handlerMembers : Members := [("Invoke", .binary fun _ _ => done)]

end BaseLib.Library.Events
