import BaseLib.Surface.Registry
import BaseLib.Text.CharClass
import BaseLib.Text.Search

namespace BaseLib.Surface

structure Member where
  typeName : String
  name : String
  kind : MemberKind
  planned : Bool
  deriving DecidableEq, Repr

namespace Member

def reference (m : Member) : String := m.typeName ++ "." ++ m.name

def status (m : Member) : String := if m.planned then "unported" else "ok"

end Member

def findType? (name : String) : Option TypeEntry := types.find? (·.name == name)

/-- The members of a type and of the types it inherits from; a type's own declaration wins. -/
def declared : Nat → String → List Declared
  | 0, _ => []
  | depth + 1, name =>
    match findType? name with
    | none => []
    | some t => t.members ++ t.bases.flatMap (declared depth)

def declaredOf (name : String) : List Declared := declared types.length name

def insertByName (m : Declared) : List Declared → List Declared
  | [] => [m]
  | d :: ds =>
    if m.name = d.name then d :: ds
    else if m.name < d.name then m :: d :: ds
    else d :: insertByName m ds

def membersOf (name : String) : List Member :=
  ((declaredOf name).foldl (fun ds m => insertByName m ds) []).map fun d =>
    ⟨name, d.name, d.kind, d.planned⟩

def isExported (name : String) : Bool := exported.contains name

def insertName (name : String) : List String → List String
  | [] => [name]
  | n :: ns => if name < n then name :: n :: ns else n :: insertName name ns

def surface : List Member :=
  (exported.foldl (fun ns n => insertName n ns) []).flatMap membersOf

def aliases : List (String × String) :=
  [("Object", "NObject"), ("String", "NString"), ("Char", "NChar"), ("Math", "NMath"),
    ("Array", "NArray"), ("Boolean", "NBoolean"), ("Double", "NNumber"), ("Single", "NNumber"),
    ("Int32", "NNumber"), ("Int64", "NNumber"), ("Exception", "NException"), ("NConsole", "Console")]

def constructorName : List Char := ".ctor".toList

/-- What precedes the last occurrence of a character, and what follows it. Without one, everything
follows. -/
def cutLast (c : Char) (s : List Char) : List Char × List Char :=
  match Text.findLast? [c] s with
  | some i => (s.take i, s.drop (i + 1))
  | none => ([], s)

def withoutArity (s : List Char) : List Char := (Text.breakOn ['\x60'] s).1

def splitReference (reference : List Char) : String × String :=
  let ref := Text.strip reference
  let suffix := '.' :: constructorName
  let (owner, member) :=
    if suffix.isSuffixOf ref then (ref.take (ref.length - suffix.length), constructorName)
    else cutLast '.' ref
  let typeName := String.ofList (withoutArity (cutLast '.' owner).2)
  ((aliases.lookup typeName).getD typeName, String.ofList (withoutArity member))

def checkReference (reference : List Char) : String :=
  let (typeName, member) := splitReference reference
  if !isExported typeName || member = "" then "missing"
  else if member = String.ofList constructorName then "ok"
  else
    match (membersOf typeName).find? (·.name == member) with
    | some m => m.status
    | none => "missing"

def readReferences (source : List Char) : List (List Char) :=
  (Text.splitOn ['\n'] source).filterMap fun line =>
    let ref := Text.strip (Text.breakOn ['#'] line).1
    if ref.isEmpty then none else some ref

end BaseLib.Surface
