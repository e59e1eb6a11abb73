import BaseLib.Library.Methods

namespace BaseLib.Library.Types

def plainTypes : List String :=
  ["NObject", "EventArgs", "EventHandler", "IDisposable", "IEnumerable", "IEnumerator",
    "IFormatProvider", "INotifyPropertyChanged", "TextReader", "Stream", "Console", "Debug", "Monitor",
    "Interlocked", "ThreadPool", "WebClient", "NMath", "Convert", "Environment", "Enumerable", "NArray",
    "NChar", "NString", "NNumber", "NBoolean"]

def plain (type : String) : String × Member := (type, .nullary (alloc (.plain type)))

def list (kind : ListKind) : String × Member :=
  (kind.typeName, .unary (Collections.newList kind) [.null])

def cursor (kind : CursorKind) : String × Member :=
  (kind.typeName, .unary (Collections.newCursorOf kind))

def error (kind : ErrorKind) : String × Member := (kind.name, Objects.errorConstructor kind)

def newFailedMatch (regex text found : Value) : Action Value := do
  match ← objectOf regex with
  | (_, .regex r _) =>
    if found == .null then Patterns.newMatch ⟨r, ← needText text, none⟩ else misuse .noSuchMember
  | _ => misuse .noSuchMember

def symbolTypes : List String := ["DateTimeKind", "MidpointRounding", "StringComparison", "CursorState"]

def constructors : Members :=
  plainTypes.map plain ++
  [ListKind.list, .stack, .keys, .values].map list ++
  [CursorKind.array, .iterator, .list, .hashSet, .dictionary].map cursor ++
  ErrorKind.all.map error ++
  symbolTypes.map (fun type => (type, Objects.newSymbol type)) ++
  FlagType.all.map (fun t => (t.name, Objects.newFlags t)) ++
  [("DayOfWeek", Objects.newDay),
    ("HashSet", .unary Collections.newSet [.null]),
    ("Dictionary", .unary Collections.newDictionary [.null]),
    ("ArrayEnumerable", .unary fun array => alloc (.arrayView array)),
    ("DeferredEnumerable", .unary fun f => alloc (.sequence (.factory f))),
    ("Type", .unary fun name => do alloc (.typeName (← needCodes name))),
    ("Nullable", .unary (fun v => alloc (.nullable v)) [.null]),
    ("KeyValuePair", .binary fun k v => alloc (.pair k v)),
    ("Point", .binary fun x y => do alloc (.point (← needInt x) (← needInt y))),
    ("TimeSpan", .variadic 0 Times.newDuration),
    ("DateTime", Times.dateTimeConstructor),
    ("NumberFormatInfo", .nullary (alloc (.symbols NumberSymbols.invariant))),
    ("CultureInfo", .unary Objects.newCulture [.text "Invariant".toList]),
    ("StringBuilder", .unary (fun v =>
      match v.codes? with
      | some codes => alloc (.builder (.ofCodes codes))
      | none => alloc (.builder .empty)) [.null]),
    ("StringReader", .unary Streams.newReader),
    ("TextWriter", .nullary (Streams.newWriter .nowhere)),
    ("StringWriter", .unary Streams.newStringWriter [.null]),
    ("HostWriter", .unary (fun name => do
      Streams.newWriter (.host (← needText name))) [.text "stdout".toList]),
    ("StreamWriter", .binary Streams.newStreamWriter [.null]),
    ("MemoryStream", .unary Streams.newMemory [.null]),
    ("BinaryWriter", .binary Streams.newBinaryWriter [.null]),
    ("Encoding", .unary Environment.newEncoding [.text Encoding.utf8.codeName.toList]),
    ("NEvent", .nullary (alloc (.event []))),
    ("PropertyChangedEventArgs", .unary fun name => alloc (.propertyChanged name)),
    ("Regex", .binary Patterns.newRegex [.flags .regexOptions 0]),
    ("Group", ⟨4, some [.text ['0']], Patterns.newGroup⟩),
    ("Match", .ternary newFailedMatch),
    ("Thread", .unary Threads.newThread [.null]),
    ("RuntimeOptions", .ternary Environment.newOptions [.text ['\n'], .bool false, .bool false])]

def construct (type : String) (args : List Value) : Action Value :=
  match constructors.lookup type with
  | some m => m.call args
  | none => misuse .noSuchMember

end BaseLib.Library.Types
