import BaseLib.Library.Catalogue

namespace BaseLib.Script

/-- Each evaluation of an expression makes new objects; a variable and a static member stand for objects that
exist already. -/
inductive Expr
  | null
  | bool (b : Bool)
  | text (s : String)
  | codes (codes : List Nat)
  | int (n : Int)
  | double (literal : String)
  | array (items : List Expr)
  | named (name : String)
  | enumerator (path : String)
  | flags (type : String) (bits : Int)
  | timeSpan (ticks : Int)
  | dateTime (fields : List Int) (kind : String)
  | point (x y : Int)
  | pair (key value : Expr)
  | nullable (value : Expr)
  | typeName (name : String)
  | symbols (settings : List (String × String))
  | culture (name : Option String)
  | list (source : Expr)
  | hashSet (source : Expr)
  | map (entries : List (Expr × Expr))
  | tuple (items : List Expr)
  | once (items : List Expr)
  | static (path : String)
  | function (name : String) (operand : Expr) (logs : Bool)
  deriving Inhabited

def doubleOf? (literal : String) : Option Double :=
  match literal with
  | "nan" => some Double.nan
  | "inf" => some (Double.infinity false)
  | "-inf" => some (Double.infinity true)
  | t => do
    let parts ← Number.readParts? t.toList
    if parts.hasDigit then some (Double.ofDecimal parts.toDecimal) else none

def found (v : Option Value) : Action Value :=
  match v with
  | some v => pure v
  | none => misuse .noSuchMember

def enumeratorAt (path : String) : Action Value :=
  let (typeName, member) := Library.Catalogue.parts path
  found (Library.Objects.enumerator? typeName member)

def flagsOf (type : String) (bits : Int) : Action Value :=
  match FlagType.all.find? (·.name == type) with
  | some t => pure (.flags t bits.toNat)
  | none => misuse .noSuchMember

def missingFields : List Int := [1, 1, 1, 0, 0, 0, 0]

def dateTimeOf (fields : List Int) (kind : String) : Action Value := do
  let kind ← enumeratorAt ("DateTimeKind." ++ kind)
  let fields := fields ++ missingFields.drop fields.length
  Library.Times.newDateTime (fields.map .int ++ [kind])

def withSetting (s : NumberSymbols) (setting : String × String) : NumberSymbols :=
  (Library.Objects.setSymbol? s setting.1 setting.2).getD s

def bindForeign (s : Session) (entries : List (Value × Value)) (entry : Value × Value) :
    Except Fault (List (Value × Value)) :=
  match s.object? entry.1 with
  | some (.array _) | some (.map _) => .error Misuse.wrongType
  | _ => .ok (bindEntry s entry.1 entry.2 entries)

def functionOf (name : String) (operand : Value) (logs : Bool) : Action Value :=
  match Builtin.ofName? name with
  | some b => alloc (.function ⟨b, operand, logs⟩)
  | none => misuse .noSuchMember

mutual

def Expr.eval : Expr → Action Value
  | .null => pure .null
  | .bool b => pure (.bool b)
  | .text s => pure (.text s.toList)
  | .codes codes => pure (.ofCodes codes)
  | .int n => pure (.int n)
  | .double literal => found ((doubleOf? literal).map .double)
  | .array items => do newArray (← evalAll items)
  | .named name => do found ((← get).bindings.lookup name)
  | .enumerator path => enumeratorAt path
  | .flags type bits => flagsOf type bits
  | .timeSpan ticks => newSpan (TimeSpan.ofTicks ticks)
  | .dateTime fields kind => dateTimeOf fields kind
  | .point x y => alloc (.point x y)
  | .pair key value => do
    let k ← key.eval
    let v ← value.eval
    alloc (.pair k v)
  | .nullable value => do alloc (.nullable (← value.eval))
  | .typeName name => alloc (.typeName (Text.plain name))
  | .symbols settings => alloc (.symbols (settings.foldl withSetting NumberSymbols.invariant))
  | .culture (some name) => Library.Objects.newCulture (.text name.toList)
  | .culture none => Library.Catalogue.valueAt "CultureInfo.InvariantCulture"
  | .list source => do Library.Collections.newList .list (← source.eval)
  | .hashSet source => do Library.Collections.newSet (← source.eval)
  | .map entries => do
    let entries ← evalEntries entries
    alloc (.map (← ofExcept (entries.foldlM (bindForeign (← get)) [])))
  | .tuple items => do alloc (.tuple (← evalAll items))
  | .once items => do alloc (.generator (← evalAll items) 0)
  | .static path => Library.Catalogue.valueAt path
  | .function name operand logs => do functionOf name (← operand.eval) logs

def evalAll : List Expr → Action (List Value)
  | [] => pure []
  | e :: es => do
    let v ← e.eval
    pure (v :: (← evalAll es))

def evalEntries : List (Expr × Expr) → Action (List (Value × Value))
  | [] => pure []
  | e :: es => do
    let entry ← evalEntry e
    pure (entry :: (← evalEntries es))

def evalEntry : Expr × Expr → Action (Value × Value)
  | (k, v) => do
    let k ← k.eval
    let v ← v.eval
    pure (k, v)

end

end BaseLib.Script
