import BaseLib.Script.Expr

namespace BaseLib.Script

inductive Request
  | construct (type : String) (args : List Expr)
  | call (name : String) (args : List Expr)
  | invoke (target name : String) (args : List Expr)
  | read (target property : String)
  | write (target property : String) (value : Expr)
  | value (e : Expr)
  deriving Inhabited

structure Step where
  request : Request
  bound : Option String
  deriving Inhabited

structure Answer where
  outcome : Except Fault Report
  target : Option Report
  holder : Option Report
  trace : List Report
  stdout : List Char
  stderr : List Char
  log : List LogRecord
  deriving Inhabited

def holderPlace? (name : String) : Option Nat :=
  match name with
  | "NNumber.TryParse" | "NBoolean.TryParse" => some 1
  | "NArray.Resize" => some 0
  | name => if (Library.Catalogue.parts name).1 = "Interlocked" then some 0 else none

def memberHolderPlace? (name : String) : Option Nat := if name = "TryGetValue" then some 1 else none

def argumentAt (place : Option Nat) (args : List Value) : Option Value := place.bind (args[·]?)

structure Prepared where
  run : Action Value
  holder : Option Value

def Request.prepare : Request → Action Prepared
  | .construct type args => do pure ⟨Library.Types.construct type (← evalAll args), none⟩
  | .call name args => do
    let args ← evalAll args
    pure ⟨Library.Catalogue.call name args, argumentAt (holderPlace? name) args⟩
  | .invoke target name args => do
    let self ← (Expr.named target).eval
    let args ← evalAll args
    pure ⟨Library.Methods.call self name args, argumentAt (memberHolderPlace? name) args⟩
  | .read target property => do
    pure ⟨Library.Properties.read (← (Expr.named target).eval) property, none⟩
  | .write target property x => do
    let self ← (Expr.named target).eval
    let v ← x.eval
    pure ⟨do
      Library.Properties.write self property v
      pure .null, none⟩
  | .value e => do pure ⟨e.eval, none⟩

def Request.target? : Request → Option String
  | .invoke target _ _ | .write target _ _ => some target
  | _ => none

def bindVariable (name : Option String) (v : Value) (s : Session) : Session :=
  match name with
  | some name => { s with bindings := (name, v) :: s.bindings }
  | none => s

def quiet (s : Session) : Session := { s with trace := [], stdout := [], stderr := [], log := [] }

def targetReport (s : Session) (name : String) : Option Report :=
  match s.bindings.lookup name with
  | some v => if (s.object? v).any Session.tellsItself then some (s.report v) else none
  | none => none

def holderReport (s : Session) (v : Value) : Option Report :=
  match s.object? v with
  | some (.array _) => some (s.report v)
  | _ => none

def Step.run (step : Step) (s : Session) : Answer × Session :=
  let tell (outcome : Except Fault Value) (holder : Option Value) (s : Session) : Answer × Session :=
    let s := match outcome with
      | .ok v => bindVariable step.bound v s
      | .error _ => s
    (⟨outcome.map s.report, step.request.target?.bind (targetReport s), holder.bind (holderReport s),
      s.trace, s.stdout, s.stderr, s.log⟩, s)
  match (step.request.prepare).run (quiet s) with
  | (.error e, s) => tell (.error e) none s
  | (.ok p, s) =>
    let (outcome, s) := p.run.run s
    tell outcome p.holder s

def runFrom (s : Session) : List Step → List Answer
  | [] => []
  | step :: steps =>
    let (answer, s) := step.run s
    answer :: runFrom s steps

def run (offset : Int) (steps : List Step) : List Answer := runFrom (Session.start offset) steps

end BaseLib.Script
