import BaseLib.Library.Streams

namespace BaseLib.Library.Environment

def bound? (entries : List (Value × Value)) (name : String) : Option Value :=
  (entries.find? fun e => e.1 == Value.text name.toList).map (·.2)

def textAt (entries : List (Value × Value)) (name : String) : Option (List Char) :=
  match bound? entries name with
  | some (Value.text t) => some t
  | _ => none

def isTextOrAbsent (entries : List (Value × Value)) (name : String) : Bool :=
  (bound? entries name).isNone || (textAt entries name).isSome

def entriesOf (map : Value) : Action (List (Value × Value)) := do
  match (← get).object? map with
  | some (.map entries) => pure entries
  | _ => misuse .noSuchMember

def optionsFrom (map : Value) : Action Value := do
  let entries ← entriesOf map
  if Options.settings.all (isTextOrAbsent entries) then
    alloc (.options (← ofResult (Options.ofEnvironment (textAt entries))))
  else misuse .noSuchMember

def withOption (s : Session) (o : Options) (name : List Char) (v : Value) :
    Except Fault Options :=
  match String.ofList name, v with
  | "new_line", v =>
    match v.codes? with
    | some newLine => .ok { o with newLine }
    | none => .error Misuse.wrongType
  | "strict_math", v => .ok { o with strictMath := s.truthy v }
  | "trace_unported", v => .ok { o with tracePlanned := s.truthy v }
  | _, _ => .error Misuse.wrongType

def withOptions (s : Session) (o : Options) : List (Value × Value) → Except Fault Options
  | [] => .ok o
  | (.text name, v) :: rest => do withOptions s (← withOption s o name v) rest
  | _ => .error Misuse.wrongType

def configure (map : Value) : Action Value := do
  let entries ← entriesOf map
  let o ← readOptions
  let o ← ofExcept (withOptions (← get) o entries)
  modify fun s => { s with options := some o }
  alloc (.options o)

def newOptions (newLine strictMath tracePlanned : Value) : Action Value := do
  let s ← get
  let o ← ofExcept (withOptions s {} [(.text "new_line".toList, newLine),
    (.text "strict_math".toList, strictMath), (.text "trace_unported".toList, tracePlanned)])
  alloc (.options o)

def optionProperty? (o : Options) (name : String) : Option Value :=
  match name with
  | "new_line" => some (.ofCodes o.newLine)
  | "strict_math" => some (.bool o.strictMath)
  | "trace_unported" => some (.bool o.tracePlanned)
  | _ => none

def setVariable (name value : Value) : Action Value := do
  let n ← needText name
  let v ← needText value
  modify fun s => { s with environment := (n, v) :: s.environment }
  done

def getVariable (name : Value) : Action Value := do
  notNull name "variable"
  let n ← needText name
  pure (((← get).environment.lookup n).map Value.text |>.getD .null)

def statics : Members :=
  [("Environment.GetEnvironmentVariable", .unary getVariable),
    ("RuntimeOptions.from_env", .unary optionsFrom),
    ("configure", .unary configure),
    ("get_options", .nullary do alloc (.options (← readOptions))),
    ("reset_options", .nullary do
      modify fun s => { s with options := none }
      done),
    ("setenv", .binary setVariable),
    ("unported", .unary fun member => do
      refusePlanned (String.ofList (← needChars (← ofExcept ((← get).printed member)))))]

def newEncoding (code : Value) : Action Value := do alloc (.encoding (← needText code))

def encodingOf (code : List Char) : Action Encoding :=
  match Encoding.ofName? code with
  | some e => pure e
  | none => misuse .unknownCodec

def encodedText (v : Value) : Action (List Char) :=
  match v.codes? with
  | some codes => pure (codes.map fun n => if Text.isScalar n then Char.ofNat n else '?')
  | none => misuse .noSuchMember

def getBytes (code : List Char) (s : Value) : Action Value := do
  notNull s "s"
  let t ← encodedText s
  let e ← encodingOf code
  newArray ((e.encode t).map fun (n : Nat) => .int n)

def givenBytes (v : Value) : Action (List Nat) := do
  match ← outcome (Streams.rawBytes v) with
  | .ok bytes => pure bytes
  | .error (.misuse .badValue) => fail .undecodableByte
  | .error e => throw e

def getString (code : List Char) (data : Value) : Action Value := do
  notNull data "bytes"
  let bytes ← givenBytes data
  let e ← encodingOf code
  pure (.text (e.decode bytes))

def encodingMembers (code : List Char) : Members :=
  [("GetBytes", .unary (getBytes code)), ("GetString", .unary (getString code))]

end BaseLib.Library.Environment
