import BaseLib.Number.Format
import BaseLib.Options
import BaseLib.Value.Symbol

namespace BaseLib

/-- A value as a tree, with everything that equality, hashing and display look at: the contents of value types,
and the identity of everything else. -/
inductive Datum
  | null
  | bool (b : Bool)
  | number (x : Number)
  | text (codes : List Nat)
  | symbol (s : Symbol)
  | day (n : Nat)
  | flags (type : FlagType) (bits : Nat)
  | options (o : Options)
  | typeName (name : List Nat)
  | timeSpan (t : TimeSpan)
  | dateTime (d : DateTime)
  | point (x y : Int)
  | encoding (code : List Char)
  | nullable (value : Datum)
  | pair (key value : Datum)
  | tuple (items : List Datum)
  | array (id : Nat) (items : List Datum)
  | map (id : Nat) (entries : List Datum)
  | object (id : Nat) (display literal : List Nat)
  deriving Inhabited

namespace Datum

def bare : Datum → Datum
  | nullable v => bare v
  | d => d

def unwrap : Datum → Datum
  | nullable v => v
  | d => d

def isNull : Datum → Bool
  | null => true
  | _ => false

def isNullable : Datum → Bool
  | nullable _ => true
  | _ => false

def number? : Datum → Option Number
  | bool b => some (.int b.toNat)
  | number x => some x
  | day n => some (.int n)
  | flags _ bits => some (.int bits)
  | _ => none

def isBool : Datum → Bool
  | bool _ => true
  | _ => false

def isNaN : Datum → Bool
  | number (.double d) => d.isNaN
  | _ => false

/-- Equality of a number or a truth value with another value. A `nullable` on the right compares the
value inside it with the one on the left, by the strict equality. -/
def numberEq (loose : Bool) (x y : Datum) : Bool :=
  let strict := !loose || y.isNullable
  if (!loose && (x.isBool && y.isNullable)) || (strict && x.isBool != y.bare.isBool) then false
  else if strict && x.isNaN && y.bare.isNaN then true
  else
    match x.number?, y.bare.number? with
    | some a, some b => a.eq b
    | _, _ => false

def leafEq (offset : Int) (loose : Bool) : Datum → Datum → Bool
  | null, y => if loose then y.bare.isNull else y.isNull
  | text a, y => match y.bare with
    | text b => a == b
    | _ => false
  | symbol a, y => match y.bare with
    | symbol b => a == b
    | _ => false
  | options a, y => match y.bare with
    | options b => a == b
    | _ => false
  | typeName a, typeName b => a == b
  | timeSpan a, timeSpan b => a == b
  | dateTime a, dateTime b => a.equals offset b
  | point a b, point c d => a == c && b == d
  | encoding a, encoding b => a == b
  | object a _ _, object b _ _ => a == b
  | x, y => numberEq loose x y

mutual

/-- The strict equality is that of the library: arrays and maps are compared by identity, a truth value equals
no number, and NaN equals itself. The loose one is that of the operators: arrays and maps are compared by
content, a truth value counts as 0 or 1, and NaN equals nothing. -/
def eqv (offset : Int) (loose : Bool) : Datum → Datum → Bool
  | nullable v, y => eqv offset false v y.unwrap
  | pair k v, pair k' v' => eqv offset false k k' && eqv offset false v v'
  | pair _ _, _ => false
  | tuple items, y => match y.bare with
    | tuple items' => eqvAll offset items items'
    | _ => false
  | array id items, y => match y with
    | array id' items' => id == id' || (loose && eqvAll offset items items')
    | _ => match y.bare with
      | array id' _ => loose && id == id'
      | _ => false
  | map id entries, y => match y with
    | map id' entries' =>
      id == id' || (loose && entries.length == entries'.length && eqvSome offset entries entries')
    | _ => match y.bare with
      | map id' _ => loose && id == id'
      | _ => false
  | x, y => leafEq offset loose x y

def eqvAll (offset : Int) : List Datum → List Datum → Bool
  | [], [] => true
  | x :: xs, y :: ys => eqv offset true x y && eqvAll offset xs ys
  | _, _ => false

def eqvSome (offset : Int) : List Datum → List Datum → Bool
  | [], _ => true
  | x :: xs, ys => (ys.any fun y => eqv offset true x y) && eqvSome offset xs ys

end

def equals (offset : Int) (x y : Datum) : Bool := eqv offset false x y

mutual

def hash (offset : Int) : Datum → Int
  | null => 0
  | bool b => b.toNat
  | number x => x.hash
  | text codes => Text.Utf16.hashCodes codes
  | symbol s => Text.Utf16.hash s.memberName.toList
  | day n => Word.fold n
  | flags _ bits => Word.fold bits
  | options _ => 0
  | typeName name => Text.Utf16.hashCodes name
  | timeSpan t => Word.fold t.ticks
  | dateTime d => d.hash offset
  | point x y => Word.wrap (31 * x + y)
  | encoding code => Text.Utf16.hash code
  | nullable v => hash offset v
  | pair k v => Word.wrap (31 * hash offset k + hash offset v)
  | tuple items => hashAll offset 0 items
  | array id _ | map id _ | object id _ _ => Word.wrap id

def hashAll (offset : Int) (seed : Int) : List Datum → Int
  | [] => seed
  | x :: xs => hashAll offset (Word.wrap (31 * seed + hash offset x)) xs

end

def webName (code : List Char) : List Char :=
  if code = "utf-16-le".toList then "utf-16".toList else code

open Text (plain codesOf)

def tagged (type : String) (display : List Nat) : List Nat :=
  plain "<" ++ plain type ++ plain " " ++ display ++ plain ">"

def boolText (b : Bool) : List Char := (if b then "True" else "False").toList

def separated (parts : List (List Nat)) : List Nat := (plain ", ").intercalate parts

def leafLiteral : Datum → Except Fault (List Nat)
  | null => .ok (plain "None")
  | bool b => .ok (codesOf (boolText b))
  | number (.int n) => (Number.int n).shown.map codesOf
  | number (.double d) => .ok (codesOf d.literal)
  | text codes => .ok (codesOf (Text.Quoted.encode codes))
  | symbol s => .ok (plain ("<" ++ s.path ++ ": " ++ s.valueText ++ ">"))
  | day n => .ok (plain ("<DayOfWeek." ++ weekdayName n ++ ": " ++ toString n ++ ">"))
  | flags t bits => (Number.int bits).shown.map fun n =>
    plain ("<" ++ t.name ++ "." ++ t.setText bits ++ ": ") ++ codesOf n ++ plain ">"
  | options o => .ok (codesOf o.literal)
  | typeName name => .ok (tagged "Type" name)
  | timeSpan t => .ok (tagged "TimeSpan" (codesOf t.toText))
  | dateTime d => .ok (tagged "DateTime" (codesOf d.toText))
  | point _ _ => .ok (tagged "Point" (plain "P"))
  | encoding code => .ok (tagged "Encoding" (codesOf (webName code)))
  | object _ _ literal => .ok literal
  | _ => .ok []

def leafDisplay : Datum → Except Fault (List Nat)
  | null => .ok []
  | bool b => .ok (codesOf (boolText b))
  | number x => x.shown.map codesOf
  | text codes => .ok codes
  | symbol s => .ok (plain s.path)
  | day n => .ok (codesOf (Decimal.digits n))
  | flags _ bits => (Number.int bits).shown.map codesOf
  | options o => .ok (codesOf o.literal)
  | typeName name => .ok name
  | timeSpan t => .ok (codesOf t.toText)
  | dateTime d => .ok (codesOf d.toText)
  | point _ _ => .ok (plain "P")
  | encoding code => .ok (codesOf (webName code))
  | object _ display _ => .ok display
  | _ => .ok []

mutual

def display : Datum → Except Fault (List Nat)
  | nullable v => display v
  | pair k v => do
    let key ← display k
    let value ← display v
    pure (plain "[" ++ key ++ plain ", " ++ value ++ plain "]")
  | tuple items => do
    let parts ← literals items
    pure (plain "(" ++ separated parts ++ plain (if items.length = 1 then ",)" else ")"))
  | array _ items => do pure (plain "[" ++ separated (← literals items) ++ plain "]")
  | map _ entries => do pure (plain "\x7b" ++ separated (← entryLiterals entries) ++ plain "\x7d")
  | x => leafDisplay x

def literal : Datum → Except Fault (List Nat)
  | nullable v => do pure (tagged "Nullable" (← display v))
  | pair k v => do
    let key ← display k
    let value ← display v
    pure (tagged "KeyValuePair" (plain "[" ++ key ++ plain ", " ++ value ++ plain "]"))
  | tuple items => do
    let parts ← literals items
    pure (plain "(" ++ separated parts ++ plain (if items.length = 1 then ",)" else ")"))
  | array _ items => do pure (plain "[" ++ separated (← literals items) ++ plain "]")
  | map _ entries => do pure (plain "\x7b" ++ separated (← entryLiterals entries) ++ plain "\x7d")
  | x => leafLiteral x

def literals : List Datum → Except Fault (List (List Nat))
  | [] => .ok []
  | x :: xs => do
    let part ← literal x
    pure (part :: (← literals xs))

def entryLiterals : List Datum → Except Fault (List (List Nat))
  | [] => .ok []
  | .tuple [k, v] :: rest => do
    let key ← literal k
    let value ← literal v
    pure ((key ++ plain ": " ++ value) :: (← entryLiterals rest))
  | x :: rest => do
    let part ← literal x
    pure (part :: (← entryLiterals rest))

end

end Datum

end BaseLib
