import BaseLib.Library.Operators
import BaseLib.Library.Types

namespace BaseLib.Library.Catalogue

def members : Members :=
  Texts.characters ++ Texts.texts ++ Numbers.numbers ++ Numbers.maths ++ Numbers.conversions ++
    Times.spans ++ Times.times ++ Collections.arrays ++ Queries.members ++ Streams.statics ++
    Patterns.statics ++ Threads.statics ++ Environment.statics ++ Objects.statics ++
    Numbers.functions ++ Operators.functions ++ Operators.operators

def parts (name : String) : String × String :=
  match Text.breakOn ['.'] name.toList with
  | (typeName, some member) => (String.ofList typeName, String.ofList member)
  | (typeName, none) => (String.ofList typeName, "")

def call (name : String) (args : List Value) : Action Value :=
  match members.lookup name with
  | some m => m.call args
  | none =>
    let (typeName, member) := parts name
    if (Surface.declaredOf typeName).any (·.name == member) then
      match members.lookup ("NObject." ++ member), args with
      | some m, args => m.call args
      | none, self :: rest => Methods.call self member rest
      | none, [] => misuse .wrongType
    else misuse .noSuchMember

def constants : List (String × Value) :=
  Times.constants ++
  [("NMath.E", .double Maths.e), ("NMath.PI", .double Maths.pi), ("NString.Empty", .text []),
    ("NBoolean.TrueString", .text "True".toList), ("NBoolean.FalseString", .text "False".toList),
    ("Environment.ProcessorCount", .int 1)]

def sharedPaths : List (String × String) :=
  [("CultureInfo.CurrentCulture", "CultureInfo.InvariantCulture"),
    ("PropertyChangedEventArgs.Empty", "EventArgs.Empty")]

def atNow (kind : DateTimeKind) (f : DateTime → DateTime) : Action Value := do
  alloc (.dateTime (f { (← get).now with kind }))

def staticValue (typeName member : String) : Action Value := do
  let path := typeName ++ "." ++ member
  match path with
  | "Console.Out" => do pure (← get).console
  | "Environment.NewLine" => do pure (.ofCodes (← readOptions).newLine)
  | "DateTime.Now" => atNow .localTime id
  | "DateTime.UtcNow" => atNow .utc id
  | "DateTime.Today" => atNow .localTime DateTime.date
  | path =>
    match constants.lookup path, Objects.enumerator? typeName member with
    | some v, _ => pure v
    | none, some v => pure v
    | none, none =>
      match Session.singleton? ((sharedPaths.lookup path).getD path) with
      | some v => pure v
      | none => misuse .noSuchMember

def names (path : String) : List String := (Text.splitOn ['.'] path.toList).map String.ofList

def valueAt (path : String) : Action Value := do
  match names path with
  | typeName :: member :: properties =>
    properties.foldlM Properties.read (← staticValue typeName member)
  | _ => misuse .noSuchMember

end BaseLib.Library.Catalogue
