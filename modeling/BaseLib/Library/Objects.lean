import BaseLib.Library.Numbers

namespace BaseLib.Library.Objects

/-- The hash of a value. A member of an enumeration that counts as a number is its own hash. -/
def hashAt : Nat → Value → Action Value
  | 0, _ => misuse .tooDeep
  | depth + 1, v => do
    let s ← get
    match v, s.object? v with
    | .day _, _ | .flags _ _, _ => pure v
    | _, some (.nullable x) => hashAt depth x
    | _, _ => pure (.int (s.hash v))

def hashOf (v : Value) : Action Value := do hashAt (← get).depth v

def textOf (v : Value) : Action Value := do
  match (← get).object? v with
  | some (.culture name _) => pure name
  | _ => do pure (.ofCodes (← displayOf v))

def common (self : Value) (o : Object) : Members :=
  [("Equals", .unary fun other => do yes ((← get).equals self other)),
    ("GetHashCode", .nullary (hashOf self)),
    ("ToString", .nullary (textOf self)),
    ("GetType", .nullary (alloc (.typeName (Text.plain o.type))))]

def statics : Members :=
  [("NObject.ReferenceEquals", .binary fun a b => yes (a == b)),
    ("NObject.GenericEquals", .binary fun a b => do yes ((← get).equals a b)),
    ("NObject.GenericToString", .unary textOf),
    ("NObject.GenericGetHashCode", .unary hashOf)]

def optionalText (v : Value) : Action (Option String) := do
  match v with
  | .null => pure none
  | v => do pure (some (String.ofList (← needText v)))

def newError (kind : ErrorKind) (message param : Value) : Action Value := do
  let text ← if message == .null then pure (Text.plain kind.defaultText) else needCodes message
  alloc (.error (.custom kind text (← optionalText param)))

/-- The constructor of a kind of exceptions: the name of a parameter comes after the text, and before
it where the kind is about a parameter. -/
def errorConstructor (kind : ErrorKind) : Member :=
  match kind with
  | .argument => .binary (newError kind) [.null, .null]
  | .argumentNull | .argumentOutOfRange =>
    .binary (fun param message => newError kind message param) [.null, .null]
  | _ => .unary (fun message => newError kind message .null) [.null]

def textOrNull (t : Option String) : Value := (t.map fun t => Value.text t.toList).getD .null

def errorProperty? (cause : Failure) (name : String) : Option Value :=
  match name with
  | "Message" => some (.ofCodes cause.message)
  | "ParamName" => if cause.kind.hasParam then some (textOrNull cause.param) else none
  | _ => none

def nullableMembers (value : Value) : Members :=
  [("GetValueOrDefault", .unary (fun default =>
      pure (if value == .null then default else value)) [.null])]

def symbolProperty? (s : NumberSymbols) (name : String) : Option Value :=
  match name with
  | "NumberDecimalSeparator" => some (.text s.decimalSeparator.toList)
  | "NumberGroupSeparator" => some (.text s.groupSeparator.toList)
  | "PercentSymbol" => some (.text s.percent.toList)
  | "CurrencySymbol" => some (.text s.currency.toList)
  | "NegativeSign" => some (.text s.negativeSign.toList)
  | _ => none

def setSymbol? (s : NumberSymbols) (name : String) (t : String) : Option NumberSymbols :=
  match name with
  | "NumberDecimalSeparator" => some { s with decimalSeparator := t }
  | "NumberGroupSeparator" => some { s with groupSeparator := t }
  | "PercentSymbol" => some { s with percent := t }
  | "CurrencySymbol" => some { s with currency := t }
  | "NegativeSign" => some { s with negativeSign := t }
  | _ => none

def newCulture (name : Value) : Action Value := do
  alloc (.culture name (← alloc (.symbols NumberSymbols.invariant)))

def nameOf (v : Value) : Action Value := do
  match (← get).object? v with
  | some (.typeName name) => pure (.ofCodes name)
  | some (.culture name _) | some (.thread _ name) => pure name
  | some (.group g) => pure (.text g.name)
  | some (.match_ m _) => pure (.text m.whole.name)
  | _ => misuse .noSuchMember

def formatMembers (symbols : Value) : Members :=
  [("GetFormat", .unary fun type => do
      let name ← nameOf type
      pure (if name == .text "NumberFormatInfo".toList then symbols else .null))]

def dayOfName? (name : String) : Option Value :=
  let i := Civil.weekdayNames.idxOf name
  if i < Civil.weekdayNames.length then some (.day i) else none

def enumerator? (typeName member : String) : Option Value :=
  if typeName = "DayOfWeek" then dayOfName? member
  else
    match FlagType.all.find? (·.name == typeName) with
    | some t => (t.members.lookup member).map (.flags t)
    | none => (Symbol.ofPath? (typeName ++ "." ++ member)).map .symbol

def keyText (v : Value) : String :=
  match v with
  | .text t => "'" ++ String.ofList t ++ "'"
  | .symbol x => x.valueText
  | v => ((v.asInt?).map toString).getD ""

def newSymbol (typeName : String) : Member := .unary fun v =>
  match Symbol.all.find? fun x => x.typeName == typeName && x.valueText == keyText v with
  | some x => pure (.symbol x)
  | none => misuse .badValue

def newDay : Member := .unary fun v =>
  match v.asInt? with
  | some n => if 0 ≤ n ∧ n < 7 then pure (.day n.toNat) else misuse .badValue
  | none => misuse .badValue

def newFlags (t : FlagType) : Member := .unary fun v =>
  match v.asInt? with
  | some n => if n < 0 then misuse .badValue else pure (.flags t n.toNat)
  | none => misuse .badValue

end BaseLib.Library.Objects
