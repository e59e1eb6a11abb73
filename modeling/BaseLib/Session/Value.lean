import BaseLib.Bytes.Buffer
import BaseLib.Collection.Table
import BaseLib.Options
import BaseLib.Regex.Replacement
import BaseLib.Text.Buffer
import BaseLib.Text.Lines
import BaseLib.Value.Symbol

namespace BaseLib

/-- A value: a plain one, or the reference of an object. A text with a surrogate in it is broken. -/
inductive Value
  | null
  | bool (b : Bool)
  | int (n : Int)
  | double (d : Double)
  | text (s : List Char)
  | broken (s : Text.Broken)
  | symbol (s : Symbol)
  | day (n : Nat)
  | flags (type : FlagType) (bits : Nat)
  | ref (id : Nat)
  deriving DecidableEq, Repr, Inhabited

namespace Value

def ofCodes (codes : List Nat) : Value :=
  if h : codes.all Text.isScalar = false then .broken ⟨codes, h⟩ else .text (Text.charsOf codes)

def codes? : Value → Option (List Nat)
  | text t => some (Text.codesOf t)
  | broken t => some t.codes
  | _ => none

@[simp]
theorem ofCodes_codesOf (t : List Char) : ofCodes (Text.codesOf t) = .text t := by
  rw [ofCodes, dif_neg (by rw [Text.all_isScalar_codesOf]; decide), Text.charsOf_codesOf]

@[simp]
theorem codes?_ofCodes (codes : List Nat) : (ofCodes codes).codes? = some codes := by
  unfold ofCodes
  split
  · rfl
  · rename_i h
    exact congrArg some (Text.codesOf_charsOf (by simpa using h))

theorem ofCodes_of_codes? {v : Value} {codes : List Nat} (h : v.codes? = some codes) : ofCodes codes = v := by
  cases v with
  | text t =>
      cases h
      exact ofCodes_codesOf t
  | broken t =>
      cases h
      exact dif_pos t.broken
  | _ => cases h

@[simp]
theorem ofCodes_inj {a b : List Nat} : ofCodes a = ofCodes b ↔ a = b := by
  refine ⟨fun h => ?_, congrArg ofCodes⟩
  have hcodes := codes?_ofCodes a
  rw [h, codes?_ofCodes] at hcodes
  exact (Option.some.inj hcodes).symm

end Value

inductive Operator
  | add | subtract | multiply | modulo | negate | magnitude
  | less | equal | compare
  | display | length | item | array | key | value
  deriving DecidableEq, Repr, Inhabited

/-- A program: it goes on by what comes of an operator, also a failure. -/
inductive Program
  | ends (r : Except Fault Value)
  | uses (o : Operator) (args : List Value) (next : Except Fault Value → Program)

/-- What a function does: a named function of scripts, or any program on so many arguments. -/
inductive Builtin
  | id | add | mul | mod | gt | lt | eq | modeq0 | isnull | const | len | str | item | dup | range
  | chars | key | value | fail | isword | bracket | index | groups
  | pair | second | add2 | concat2 | repeated | cmp | cmpdesc | cmplen | cmpzero | cmpmod
  | defaulted | factory | listen | listenAdd
  | program (arity : Nat) (body : List Value → Program)
  deriving Inhabited

structure Function where
  builtin : Builtin
  operand : Value
  /-- Is the argument of each call recorded? -/
  logs : Bool
  deriving Inhabited

inductive Query
  | select (source f : Value)
  | filter (source p : Value)
  | flatten (source f : Value) (indexed : Bool) (combine : Value)
  | concat (first second : Value)
  | take (source count : Value)
  | skip (source count : Value)
  | distinct (source : Value)
  | reverse (source : Value)
  | ordered (source : Value) (keys : List (Value × Bool))
  | factory (f : Value)
  deriving DecidableEq, Repr, Inhabited

inductive Walk
  | ended
  | items (rest : List Value)
  /-- The elements of an array from a position on, as they are when they are reached. -/
  | live (array next : Nat)
  | keys (map size next : Nat)
  /-- What is left of a sequence that comes only once. -/
  | generator (id : Nat)
  | cursor (id : Nat)
  /-- The elements of a source that is opened when the first one is asked for. -/
  | pending (source : Value)
  /-- A walk that ends at its first failure. -/
  | guarded (inner : Walk)
  | select (f : Value) (inner : Walk)
  | filter (p : Value) (inner : Walk)
  /-- The elements of the sequences that `f` gives for the outer elements: `item`, the outer element at
  `index`, has `inner` left. -/
  | flatten (f : Value) (indexed : Bool) (combine : Value) (index : Nat) (item : Value)
    (inner outer : Walk)
  | chain (first second : Walk)
  | take (count : Nat) (inner : Walk)
  | skip (count : Nat) (inner : Walk)
  | distinct (seen : Table Value Value) (inner : Walk)
  /-- The walk of a cursor that is on the move: nothing can be asked of it meanwhile. -/
  | busy
  deriving DecidableEq, Repr, Inhabited

inductive CursorKind
  | array
  | iterator
  | list
  | hashSet
  | dictionary
  deriving DecidableEq, Repr, Inhabited

def CursorKind.typeName : CursorKind → String
  | array => "ArrayEnumerator"
  | iterator => "IteratorEnumerator"
  | list => "ListEnumerator"
  | hashSet => "HashSetEnumerator"
  | dictionary => "DictionaryEnumerator"

structure Cursor where
  kind : CursorKind
  state : CursorState
  current : Value
  walk : Walk
  deriving DecidableEq, Repr, Inhabited

def Cursor.start (kind : CursorKind) (walk : Walk) : Cursor := ⟨kind, .notStarted, .null, walk⟩

inductive ListKind
  | list
  | stack
  | keys
  | values
  deriving DecidableEq, Repr, Inhabited

def ListKind.typeName : ListKind → String
  | list => "List"
  | stack => "Stack"
  | keys => "KeyCollection"
  | values => "ValueCollection"

inductive WriterTarget
  | nowhere
  | builder (id : Nat)
  | host (stream : List Char)
  | stream (stream : Value)
  deriving DecidableEq, Repr, Inhabited

def WriterTarget.typeName : WriterTarget → String
  | nowhere => "TextWriter"
  | builder _ => "StringWriter"
  | host _ => "HostWriter"
  | stream _ => "StreamWriter"

inductive Object
  | array (items : List Value)
  | tuple (items : List Value)
  | map (entries : List (Value × Value))
  /-- A sequence that comes once: what is left of it, and how often it has been closed. -/
  | generator (rest : List Value) (closings : Nat)
  | function (f : Function)
  | multicast (event : Nat)
  | plain (type : String)
  | typeName (name : List Nat)
  | nullable (value : Value)
  | pair (key value : Value)
  | timeSpan (t : TimeSpan)
  | dateTime (d : DateTime)
  | point (x y : Int)
  | error (cause : Failure)
  | list (kind : ListKind) (storage : Nat)
  | hashSet (members : Table Value Value)
  | dictionary (entries : Table Value (Value × Value))
  | cursor (c : Cursor)
  | arrayView (array : Value)
  | sequence (q : Query)
  | symbols (s : NumberSymbols)
  | culture (name numberFormat : Value)
  | builder (text : Text.Buffer)
  | reader (r : Text.Lines)
  /-- A writer; its line end is null as long as it follows the options. -/
  | writer (target : WriterTarget) (newLine : Value)
  | memory (b : ByteBuffer)
  | binaryWriter (stream : Value)
  | encoding (code : List Char)
  | event (listeners : List Value)
  | propertyChanged (name : Value)
  | regex (r : Regex) (options : Value)
  | match_ (m : Regex.Match) (groups : Nat)
  | group (g : Regex.Group)
  | groups (members : Nat) (names : List (List Char))
  | thread (number : Nat) (name : Value)
  | options (o : Options)
  deriving Inhabited

namespace Object

def type : Object → String
  | array _ => "list"
  | tuple _ => "tuple"
  | map _ => "dict"
  | generator _ _ => "generator"
  | function _ | multicast _ => "function"
  | plain type => type
  | typeName _ => "Type"
  | nullable _ => "Nullable"
  | pair _ _ => "KeyValuePair"
  | timeSpan _ => "TimeSpan"
  | dateTime _ => "DateTime"
  | point _ _ => "Point"
  | error cause => cause.kind.name
  | list kind _ => kind.typeName
  | hashSet _ => "HashSet"
  | dictionary _ => "Dictionary"
  | cursor c => c.kind.typeName
  | arrayView _ => "ArrayEnumerable"
  | sequence (.ordered _ _) => "OrderedEnumerable"
  | sequence _ => "DeferredEnumerable"
  | symbols _ => "NumberFormatInfo"
  | culture _ _ => "CultureInfo"
  | builder _ => "StringBuilder"
  | reader _ => "StringReader"
  | writer target _ => target.typeName
  | memory _ => "MemoryStream"
  | binaryWriter _ => "BinaryWriter"
  | encoding _ => "Encoding"
  | event _ => "NEvent"
  | propertyChanged _ => "PropertyChangedEventArgs"
  | regex _ _ => "Regex"
  | match_ _ _ => "Match"
  | group _ => "Group"
  | groups _ _ => "GroupCollection"
  | thread _ _ => "Thread"
  | options _ => "RuntimeOptions"

def rootless : List String :=
  ["IDisposable", "IEnumerable", "IEnumerator", "IFormatProvider", "INotifyPropertyChanged",
    "Environment", "Enumerable", "NArray", "NChar", "NString", "NNumber", "NBoolean"]

def isRooted : Object → Bool
  | array _ | tuple _ | map _ | generator _ _ | function _ | multicast _ | event _ | options _ => false
  | plain type => !rootless.contains type
  | _ => true

end Object

end BaseLib
