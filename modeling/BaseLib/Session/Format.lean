import BaseLib.Number.Format
import BaseLib.Session.View
import BaseLib.Text.Composite

namespace BaseLib

namespace Value

def integer? : Value → Option Int
  | int n => some n
  | day n => some n
  | flags _ bits => some bits
  | _ => none

def number? : Value → Option Number
  | double d => some (.double d)
  | v => v.integer?.map .int

end Value

namespace Session

def symbolsAt? (s : Session) (v : Value) : Option NumberSymbols :=
  match s.object? v with
  | some (.symbols x) => some x
  | _ => none

def currentSymbols (s : Session) : Except Fault NumberSymbols :=
  match s.object? (.ref currentCulture) with
  | some (.culture _ numberFormat) =>
    match s.symbolsAt? numberFormat with
    | some x => .ok x
    | none => .error Misuse.noSuchMember
  | _ => .error Misuse.noSuchMember

def symbolsOf (s : Session) (provider : Value) : Except Fault NumberSymbols :=
  match s.object? provider with
  | some (.symbols x) => .ok x
  | some (.culture _ numberFormat) =>
    match s.symbolsAt? numberFormat with
    | some x => .ok x
    | none => s.currentSymbols
  | some (.plain "IFormatProvider") => .error Misuse.abstractMember
  | _ => s.currentSymbols

def isProvider (s : Session) (v : Value) : Bool :=
  match s.object? v with
  | some (.symbols _) | some (.culture _ _) | some (.plain "IFormatProvider") => true
  | _ => false

def formatNumber (s : Session) (v : Value) (fmt : List Char) (provider : Value) :
    Except Fault (List Char) := do
  let symbols ← s.symbolsOf provider
  match v with
  | .bool b => .ok (Datum.boolText b)
  | v =>
    match v.number? with
    | some x => x.format fmt symbols
    | none => .error Misuse.wrongType

/-- A value in the format of an item. Numbers and times have no format with a surrogate, and other values none
at all. -/
def formatItem (s : Session) (provider : Value) (v : Value) (fmt : List Nat) :
    Except Fault (List Nat) :=
  let scalar := fmt.all Text.isScalar
  match v.number? with
  | some x =>
    if scalar then (s.formatNumber v (Text.charsOf fmt) provider).map Text.codesOf
    else do
      let _ ← s.symbolsOf provider
      if x.isFinite then .error (Failure.badCustomFormat fmt) else .ok (Text.codesOf x.display)
  | none =>
    match s.object? v with
    | some (.dateTime d) =>
      if fmt.isEmpty then .ok (Text.codesOf d.toText)
      else if scalar then
        ((d.format (String.ofList (Text.charsOf fmt))).map Text.codesOf).mapError .failure
      else .error (Failure.badDateFormat fmt)
    | _ => s.display v

def expandFormat (s : Session) (provider : Value) (fmt : Value) (args : List Value) :
    Except Fault (List Nat) :=
  match fmt, fmt.codes? with
  | .null, _ => .error (Failure.nullArgument "format")
  | _, some f => Text.Composite.expand (s.formatItem provider) args (Text.Composite.pieces f)
  | _, none => .error Misuse.wrongType

def formatArguments (s : Session) (rest : List Value) : List Value :=
  match rest with
  | [v] =>
    match s.object? v with
    | some (.array items) => items
    | _ => rest
  | _ => rest

def formatParts (s : Session) (args : List Value) :
    Except Fault (Value × Value × List Value) :=
  match args with
  | [] => .error (Failure.nullArgument "format")
  | first :: rest =>
    if s.isProvider first || (first == .null && !rest.isEmpty) then
      match rest with
      | [] => .error Misuse.outsideHolder
      | fmt :: rest => .ok (first, fmt, s.formatArguments rest)
    else .ok (.null, first, s.formatArguments rest)

def formatCall (s : Session) (args : List Value) : Except Fault (List Nat) := do
  let (provider, fmt, rest) ← s.formatParts args
  s.expandFormat provider fmt rest

def written (s : Session) (v : Value) (args : List Value) : Except Fault (List Nat) :=
  if args.isEmpty then s.display v else s.formatCall (v :: args)

end Session

end BaseLib
