import BaseLib.Library.Member
import BaseLib.Number.Convert
import BaseLib.Number.Maths

namespace BaseLib.Library.Numbers

def numberHash (v : Value) : Action Value := do
  match v with
  | .bool _ | .day _ | .flags _ _ => pure v
  | v => pure (.int (← needNumber v).hash)

def displayNumber (v : Value) : Action Value := do
  match v with
  | .bool b => pure (.text (Datum.boolText b))
  | v => do pure (.text (← ofExcept (← needNumber v).shown))

def styleOf (styleOrProvider provider : Value) : NumberStyles × Value :=
  match styleOrProvider with
  | .flags .numberStyles bits => (⟨bits⟩, provider)
  | .null => (NumberStyles.float, provider)
  | v => (NumberStyles.float, v)

def parseNumber (text styleOrProvider provider : Value) : Action Value := do
  notNull text "s"
  let (style, provider) := styleOf styleOrProvider provider
  let symbols ← ofExcept ((← get).symbolsOf provider)
  pure (← ofResult (Number.parse (← textOwner text) style symbols)).toValue

def isFormatFailure : Fault → Bool
  | .failure f => f.kind == .format
  | .misuse _ => false

def tryInto (holder fallback : Value) (read : Action Value) : Action Value := do
  match ← outcome read with
  | .ok v => do
    writeHolder holder v
    yes true
  | .error e =>
    if isFormatFailure e then do
      writeHolder holder fallback
      yes false
    else throw e

def parseBool (text : Value) : Action Value := do
  let s ← get
  let t ← if s.truthy text then textOwner text else pure []
  match Number.readBool? (Text.lower t) with
  | some b => yes b
  | none => fail (.badBoolean (← ofExcept (s.printed text)))

def boolText (v : Value) : Action Value := do
  pure (.text (Datum.boolText ((← get).truthy v)))

def numberText (v formatOrProvider provider : Value) : Action Value := do
  let s ← get
  match formatOrProvider with
  | .text fmt => pure (.text (← ofExcept (s.formatNumber v fmt provider)))
  | other => pure (.text (← ofExcept (s.formatNumber v [] other)))

def isNumber (v : Value) (x : Number) : Bool := v.operand?.any (·.eq x)

def doubleTest (test : Double → Bool) : Member := .unary fun v => do
  yes (test (← ofExcept (Maths.real (← needNumber v))))

def numbers : Members :=
  [("NNumber.Parse", .ternary parseNumber [.null, .null]),
    ("NNumber.TryParse", .binary fun text holder =>
      tryInto holder (.int 0) (parseNumber text .null .null)),
    ("NNumber.ToString", .ternary numberText [.null, .null]),
    ("NNumber.GetHashCode", .unary numberHash),
    ("NNumber.IsInfinity", doubleTest Double.isInfinite),
    ("NNumber.IsPositiveInfinity", .unary fun v =>
      yes (isNumber v (.double (Double.infinity false)))),
    ("NNumber.IsNegativeInfinity", .unary fun v =>
      yes (isNumber v (.double (Double.infinity true)))),
    ("NNumber.IsNaN", doubleTest Double.isNaN),
    ("NBoolean.Parse", .unary parseBool),
    ("NBoolean.TryParse", .binary fun text holder => tryInto holder (.bool false) (parseBool text)),
    ("NBoolean.ToString", .unary boolText),
    ("NBoolean.GetHashCode", .unary fun v => do
      pure (.int ((← get).truthy v).toNat))]

def realResult (r : Except Fault Double) : Action Value := do pure (.double (← ofExcept r))

def realFunction (f : Number → Except Fault Double) : Member := .unary fun v => do
  realResult (f (← needNumber v))

def roundingOf (decimals mode : Value) : Action (Int × Decimal.Midpoint) := do
  match decimals, mode with
  | .symbol (.midpoint m), _ => pure (0, m)
  | d, .symbol (.midpoint m) => do pure (← needInt d, m)
  | _, _ => misuse .noSuchMember

def round (a decimals mode : Value) : Action Value := do
  let (places, tie) ← roundingOf decimals mode
  if places < 0 ∨ 15 < places then fail .roundingDigits
  let o ← readOptions
  match a.operand? with
  | some x => realResult (Maths.round x places tie o.strictMath)
  | none => misuse .tooWide

def abs (v : Value) : Action Value := do
  match v.operand? with
  | some x => pure (← ofResult (Maths.abs x)).toValue
  | none => absValue v

/-- The first value unless the second comes before it by `op`; NaN in the first place stays. -/
def pick (op : OrderOp) : Member := .binary fun a b => do
  match a with
  | .double d =>
    if d.isNaN then pure a else do pure (if ← orderOf op b a then b else a)
  | _ => do pure (if ← orderOf op b a then b else a)

def maths : Members :=
  [("NMath.Round", .ternary round [.int 0, .symbol (.midpoint .awayFromZero)]),
    ("NMath.Truncate", .unary fun v => do
      let o ← readOptions
      realResult (Maths.truncate (← needNumber v) o.strictMath)),
    ("NMath.Log", .binary (fun a base => do
      let b ← needNumber base
      realResult (Maths.log (← needNumber a) b)) [.double Maths.e]),
    ("NMath.Log10", realFunction Maths.log10),
    ("NMath.Exp", realFunction fun x => .ok (Maths.exp x)),
    ("NMath.Pow", .binary fun x y => do
      pure (.double (Maths.pow (← needNumber x) (← needNumber y)))),
    ("NMath.Sqrt", realFunction Maths.sqrt),
    ("NMath.Abs", .unary abs),
    ("NMath.Sign", .unary fun v => do pure (.int (← ofResult (Maths.sign (← needNumber v))))),
    ("NMath.Floor", realFunction Maths.floor),
    ("NMath.Ceiling", realFunction Maths.ceiling),
    ("NMath.Min", pick .lt),
    ("NMath.Max", pick .gt),
    ("NMath.Cosh", realFunction fun x => .ok (Maths.cosh x)),
    ("NMath.Sinh", realFunction Maths.sinh),
    ("NMath.Tanh", realFunction Maths.tanh)]

def textInBase (v : Value) (base : Int) : Action Value := do
  match v.operand? with
  | some x =>
    let n ← ofExcept (Number.integral x)
    pure (.text (← ofExcept (Convert.toBase n base)))
  | none =>
    if base = 10 then do pure (.ofCodes (← ofExcept ((← get).printed v)))
    else do
      discard (ofExcept (Convert.toBase 0 base))
      misuse .wrongType

def convertToText (v radixOrProvider : Value) : Action Value := do
  match radixOrProvider.integer? with
  | some base => textInBase v base
  | none => do
    pure (.text (← ofExcept ((← get).formatNumber v [] radixOrProvider)))

def convertToInt32 (v base : Value) : Action Value := do
  match v with
  | .text t =>
    if base == .null then do
      pure (.int (← ofResult (Convert.ofText t (← ofExcept (← get).currentSymbols))))
    else do pure (.int (← ofResult (Convert.ofBase t (← needInt base))))
  | .null => pure (.int 0)
  | v => do pure (.int (← ofExcept (Convert.ofNumber (← needNumber v))))

def convertToDouble (v : Value) : Action Value := do
  match v with
  | .text _ => do
    let x ← needNumber (← parseNumber v .null .null)
    realResult (Maths.real x)
  | .null => pure (.double Double.zero)
  | v => do realResult (Maths.real (← needNumber v))

def conversions : Members :=
  [("Convert.ToString", .binary convertToText [.null]),
    ("Convert.ToInt32", .binary convertToInt32 [.null]),
    ("Convert.ToDouble", .unary convertToDouble),
    ("Convert.ToBoolean", .unary fun v =>
      match v with
      | .text _ => parseBool v
      | v => do yes ((← get).truthy v))]

def functions : Members :=
  [("to_int32", .unary fun v => do pure (.int (Word.wrap (← needInt v)))),
    ("utf16_units", .unary fun v => do
      newArray ((Text.Utf16.units (← textOwner v)).map fun (u : Nat) => .int u)),
    ("string_hash", .unary fun v => do pure (.int (Text.Utf16.hash (← textOwner v)))),
    ("number_hash", .unary numberHash),
    ("display_number", .unary displayNumber),
    ("format_number", .ternary (fun v fmt provider => do
      let s ← get
      let fmt ← if s.truthy fmt then needText fmt else pure []
      pure (.text (← ofExcept (s.formatNumber v fmt provider)))) [.null, .null])]

end BaseLib.Library.Numbers
