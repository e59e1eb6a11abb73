import BaseLib.Library.Member
import BaseLib.Text.Case
import BaseLib.Text.Slice

namespace BaseLib.Library.Texts

def isWhiteSpace (c : Int) : Bool := c == 32 || (9 ≤ c && c ≤ 13) || c == 133 || c == 160

def isLetter (c : Int) : Bool :=
  (65 ≤ c && c ≤ 90) || (97 ≤ c && c ≤ 122) || (128 ≤ c && c != 133 && c != 160)

def isDigit (c : Int) : Bool := 48 ≤ c && c ≤ 57

def ofCode (test : Int → Bool) : Member := .unary fun ch => do yes (test (← codeOf ch))

def caseTest (low : Int → Bool) (high : Nat → Bool) : Member := .unary fun ch => do
  let c ← codeOf ch
  if c < 128 then yes (low c) else yes (high (← validCode c))

def caseMap (f : Nat → Nat) : Member := .unary fun ch => do
  pure (.int (f (← validCode (← codeOf ch))))

def digitAt (ch index : Value) : Action Value := do
  if index == .null then yes (isDigit (← codeOf ch))
  else
    match ch with
    | .text t =>
      let i ← needInt index
      if i < 0 then fail (.outOfRange "index")
      else
        match t[i.toNat]? with
        | some c => yes (isDigit c.toNat)
        | none => fail (.outOfRange "index")
    | _ => fail .noTextToIndex

def characters : Members :=
  [("NChar.IsWhiteSpace", ofCode isWhiteSpace),
    ("NChar.IsLetter", ofCode isLetter),
    ("NChar.IsLetterOrDigit", ofCode fun c => isDigit c || isLetter c),
    ("NChar.IsDigit", .binary digitAt [.null]),
    ("NChar.IsUpper", caseTest (fun c => 65 ≤ c && c ≤ 90) Text.isUpper),
    ("NChar.IsLower", caseTest (fun c => 97 ≤ c && c ≤ 122) Text.isLower),
    ("NChar.ToUpper", caseMap Text.toUpper),
    ("NChar.ToLower", caseMap Text.toLower)]

/-- A text and a place in it; a negative place fails before the text is looked at. -/
def textAndStart (s start : Value) (negative : Failure) : Action (List Char × Int) := do
  let n ← needInt start
  if n < 0 then fail negative
  pure (← needText s, n)

/-- A text to look for, or the character of a code; a surrogate is in no text of characters. -/
def sought (value : Value) : Action (Option (List Char)) := do
  match value, value.integer? with
  | .broken _, _ => pure none
  | _, some n => do
    let code ← validCode n
    pure (if Text.isScalar code then some [Char.ofNat code] else none)
  | _, none => do pure (some (← needText value))

def indexOf (s value start : Value) : Action Value := do
  let (t, start) ← textAndStart s start (.textIndex "startIndex")
  -- the start is judged before the value
  discard (ofResult (Text.indexOf t [] start))
  match ← sought value with
  | some p => pure (.int (← ofResult (Text.indexOf t p start)))
  | none => pure (.int (-1))

def lastIndexOf (s value : Value) : Action Value := do
  let t ← textOwner s
  pure (.int (((← sought value).map (Text.lastIndexOf t)).getD (-1)))

def codesOf : List Value → Action (List Int)
  | [] => pure []
  | v :: vs => do
    let c ← codeOf v
    pure (c :: (← codesOf vs))

def indexOfAny (s anyOf start : Value) : Action Value := do
  let codes ← codesOf (← iterated anyOf)
  let start ← needInt start
  pure (.int (← ofExcept ((Text.indexOfAny (← needText s) codes start).mapError .misuse)))

def trimTest (chars : Value) : Action (Char → Bool) := do
  let codes ← if chars == .null then pure [] else do codesOf (← iterated chars)
  if codes.isEmpty then pure fun c => isWhiteSpace c.toNat
  else pure fun c => codes.contains (c.toNat : Int)

def trimStart (s chars : Value) : Action Value := do
  let test ← trimTest chars
  pure (.text (Text.trimStart test (← needText s)))

def trimEnd (s chars : Value) : Action Value := do
  let t ← needText s
  let test ← trimTest chars
  pure (.text (Text.trimEnd test t))

def replace (s old new : Value) : Action Value := do
  let old ← if old == .null then fail (.nullArgument "oldValue") else textOrCode old
  if old.isEmpty then fail .emptyOldText
  let t ← textOwner s
  let new ← if new == .null then pure [] else textOrCode new
  pure (.text (← ofResult (Text.replaceText t old new)))

/-- A search at an end of a text; `ignoresCase` tells which kinds of comparison ignore case. -/
def atEnd (test : Bool → List Char → List Char → Bool) (s value comparison : Value) :
    Action Value := do
  notNull value "value"
  let ignoreCase := match comparison with
    | .symbol (.comparison c) => c.ignoresCase
    | _ => false
  let t ← if ignoreCase then needText s else textOwner s
  yes (test ignoreCase t (← needText value))

def contains (s value : Value) : Action Value := do
  notNull value "value"
  let p ← sought value
  let t ← needText s
  yes (p.any (Text.contains t))

def separatorsOf (separators : List Value) : Action (List (List Char)) := do
  let given := (← get).formatArguments separators
  (given.filter (· != .null)).mapM textOrCode

def split (args : List Value) : Action Value := do
  let separators ← separatorsOf (args.drop 1)
  let t ← needText (args.headD .null)
  newArray ((Text.splitText t separators).map .text)

def isNullish (v : Value) : Bool := v == .null

/-- Compares two texts, null first; any other values are compared by the operators. -/
def compare (a b ignoreCase : Value) : Action Value := do
  if isNullish a || isNullish b then
    pure (.int ((!isNullish a).toNat - (!isNullish b).toNat : Int))
  else
    let folds := match ignoreCase with
      | .bool b => b
      | .symbol (.comparison c) => c.ignoresCase
      | _ => false
    match a, b with
    | .text a, .text b => pure (.int (Text.compareTexts folds a b))
    | _, _ =>
      if folds then misuse .wrongType
      else do
        let after ← orderOf .gt a b
        let before ← orderOf .lt a b
        pure (.int (after.toNat - before.toNat : Int))

def compareOrdinal (a b : Value) : Action Value := do
  if isNullish a || isNullish b then
    pure (.int ((!isNullish a).toNat - (!isNullish b).toNat : Int))
  else pure (.int (Text.compareOrdinal (← needText a) (← needText b)))

def codesOwner (v : Value) : Action (List Nat) :=
  match v.codes? with
  | some codes => pure codes
  | none => misuse .noSuchMember

def joinElements (separator : List Nat) (parts : Value) : Action Value := do
  let shown ← foldSource parts [] fun shown v => do
    let t ← displayOf v
    pure (true, t :: shown)
  pure (.ofCodes (separator.intercalate shown.reverse))

def join (separator parts : Value) : Action Value := do
  notNull parts "values"
  let separator ← if (← get).truthy separator then codesOwner separator else pure []
  joinElements separator parts

def isEnumerable : Object → Bool
  | .list _ _ | .hashSet _ | .dictionary _ | .arrayView _ | .groups _ _ | .sequence _ => true
  | .plain "IEnumerable" => true
  | _ => false

def concatAll (parts : List Value) : Action Value := do
  pure (.ofCodes (← parts.mapM displayOf).flatten)

def concat (parts : List Value) : Action Value := do
  let s ← get
  match parts with
  | [v] =>
    match s.object? v with
    | some (.array _) => joinElements [] v
    | some o => if isEnumerable o then joinElements [] v else concatAll parts
    | none => concatAll parts
  | _ => concatAll parts

def fromChars (chars count : Value) : Action Value := do
  match (← get).object? chars with
  | some (.array items) =>
    let codes ← codesOf items
    pure (.ofCodes (← codes.mapM validCode))
  | _ =>
    let n ← needInt count
    if n < 0 then fail .negativeRepeat
    let c ← validCode (← codeOf chars)
    if Word.maxSize < n.toNat then misuse .tooLarge
    pure (.ofCodes (List.replicate n.toNat c))

def isNullOrWhiteSpace (s : Value) : Action Value := do
  if isNullish s then yes true
  else yes ((← codesOf (← iterated s)).all isWhiteSpace)

def texts : Members :=
  [("NString.IndexOf", .ternary indexOf [.int 0]),
    ("NString.LastIndexOf", .binary lastIndexOf),
    ("NString.IndexOfAny", .ternary indexOfAny [.int 0]),
    ("NString.GetHashCode", .unary fun s => do pure (.int (Text.Utf16.hashCodes (← codesOwner s)))),
    ("NString.Replace", .ternary replace),
    ("NString.Substring", .ternary (fun s start length => do
      let (t, start) ← textAndStart s start .substringStart
      pure (.text (← ofResult (Text.substring t start (← needInt length))))) [.int (-1)]),
    ("NString.Remove", .ternary (fun s start count => do
      let (t, start) ← textAndStart s start (.outOfRange "startIndex")
      pure (.text (← ofResult (Text.removeRange t start (← needInt count))))) [.int (-1)]),
    ("NString.Trim", .binary (fun s chars => do
      trimEnd (← trimStart s chars) chars) [.null]),
    ("NString.TrimStart", .binary trimStart [.null]),
    ("NString.TrimEnd", .binary trimEnd [.null]),
    ("NString.ToUpperInvariant", .unary fun s => do pure (.text (Text.upper (← needText s)))),
    ("NString.ToLowerInvariant", .unary fun s => do pure (.text (Text.lower (← needText s)))),
    ("NString.StartsWith", .ternary (atEnd Text.startsWith) [.symbol (.comparison .ordinal)]),
    ("NString.EndsWith", .ternary (atEnd Text.endsWith) [.symbol (.comparison .ordinal)]),
    ("NString.Contains", .binary contains),
    ("NString.Split", .variadic 1 split),
    ("NString.Compare", .ternary compare [.bool false]),
    ("NString.CompareOrdinal", .binary compareOrdinal),
    ("NString.Format", .variadic 0 fun args => do
      pure (.ofCodes (← ofExcept ((← get).formatCall args)))),
    ("NString.IsNullOrEmpty", .unary fun s => do yes !((← get).truthy s)),
    ("NString.IsNullOrWhiteSpace", .unary isNullOrWhiteSpace),
    ("NString.Join", .binary join),
    ("NString.Concat", .variadic 0 concat),
    ("NString.FromChars", .binary fromChars [.int 1])]

def addition (v : Value) : Action (List Nat) := do
  match v.integer? with
  | some n => pure [← validCode n]
  | none => displayOf v

/-- Adds codes to a builder, unless they were made from the builder itself: showing it made one piece
of its pieces, in another place than the one that the codes go to. -/
def append (id : Nat) (own : Bool) (codes : List Nat) : Action Value := do
  let b := (← get).buffer id
  assign id (.builder (if own then b.flatten else b.push codes))
  pure (.ref id)

def shownArguments (fmt : Value) (args : List Value) : List Value :=
  match fmt.codes? with
  | some f => (Text.Composite.pieces f).filterMap fun
    | .item index _ _ => (Text.Composite.readNumeral index).toOption.bind (args[·]?)
    | _ => none
  | none => []

def appendFormat (id : Nat) (args : List Value) : Action Value := do
  let s ← get
  let (provider, fmt, rest) ← ofExcept (s.formatParts args)
  let codes ← ofExcept (s.expandFormat provider fmt rest)
  append id ((shownArguments fmt rest).any (s.shows id)) codes

def insert (id : Nat) (index v : Value) : Action Value := do
  let b := ((← get).buffer id).flatten
  assign id (.builder b)
  let i ← needInt index
  ofResult (b.checkPlace i)
  let codes ← addition v
  assign id (.builder (b.splice i.toNat codes))
  pure (.ref id)

def appendLine (id : Nat) (text : Value) : Action Value := do
  if text != .null then
    let _ ← append id false (← needCodes text)
  let o ← readOptions
  append id false o.newLine

def builderText (id : Nat) : Action Value := do
  let b := ((← get).buffer id).flatten
  assign id (.builder b)
  pure (.ofCodes b.codes)

def builderMembers (id : Nat) : Members :=
  [("Append", .unary fun v => do
      if v == .null then pure (.ref id) else append id ((← get).shows id v) (← addition v)),
    ("AppendLine", .unary (appendLine id) [.null]),
    ("AppendFormat", .variadic 0 (appendFormat id)),
    ("Insert", .binary (insert id)),
    ("Clear", .nullary do
      assign id (.builder .empty)
      pure (.ref id)),
    ("ToString", .nullary (builderText id)),
    ("get_Item", .unary fun index => do
      pure (.int (← ofResult (((← get).buffer id).codeAt (← needInt index)))))]

end BaseLib.Library.Texts
