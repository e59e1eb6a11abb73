import BaseLib.Text.Case
import BaseLib.Text.CharClass

namespace BaseLib.Regex

/-- Without regard to case two characters are the same if their lower cases are, or if the lower case of one is
listed as a variant of the other's. -/
inductive Folding
  | exact
  | ascii
  | unicode
  deriving DecidableEq, Repr, Inhabited

inductive Category
  | digit
  | space
  | word
  deriving DecidableEq, Repr

inductive SetItem
  | single (code : Nat)
  | range (low high : Nat)
  | category (c : Category) (negated : Bool)
  deriving DecidableEq, Repr

/-- Lower-case characters with further lower-case characters of the same upper case. -/
def variants : List (Nat × List Nat) :=
  [
    (0x69, [0x131]), (0x73, [0x17F]), (0xB5, [0x3BC]), (0x131, [0x69]), (0x17F, [0x73]),
    (0x345, [0x3B9, 0x1FBE]), (0x390, [0x1FD3]), (0x3B0, [0x1FE3]), (0x3B2, [0x3D0]),
    (0x3B5, [0x3F5]), (0x3B8, [0x3D1]), (0x3B9, [0x345, 0x1FBE]), (0x3BA, [0x3F0]),
    (0x3BC, [0xB5]), (0x3C0, [0x3D6]), (0x3C1, [0x3F1]), (0x3C2, [0x3C3]), (0x3C3, [0x3C2]),
    (0x3C6, [0x3D5]), (0x3D0, [0x3B2]), (0x3D1, [0x3B8]), (0x3D5, [0x3C6]), (0x3D6, [0x3C0]),
    (0x3F0, [0x3BA]), (0x3F1, [0x3C1]), (0x3F5, [0x3B5]), (0x432, [0x1C80]), (0x434, [0x1C81]),
    (0x43E, [0x1C82]), (0x441, [0x1C83]), (0x442, [0x1C84, 0x1C85]), (0x44A, [0x1C86]),
    (0x463, [0x1C87]), (0x1C80, [0x432]), (0x1C81, [0x434]), (0x1C82, [0x43E]), (0x1C83, [0x441]),
    (0x1C84, [0x442, 0x1C85]), (0x1C85, [0x442, 0x1C84]), (0x1C86, [0x44A]), (0x1C87, [0x463]),
    (0x1C88, [0xA64B]), (0x1E61, [0x1E9B]), (0x1E9B, [0x1E61]), (0x1FBE, [0x345, 0x3B9]),
    (0x1FD3, [0x390]), (0x1FE3, [0x3B0]), (0xA64B, [0x1C88]), (0xFB05, [0xFB06]), (0xFB06, [0xFB05])]

def lowerAscii (n : Nat) : Nat := if 65 ≤ n ∧ n ≤ 90 then n + 32 else n

def Folding.fold : Folding → Nat → Nat
  | .exact, n => n
  | .ascii, n => lowerAscii n
  | .unicode, n => Text.lowerHead n

def Folding.accepted (f : Folding) (code : Nat) : List Nat :=
  let low := f.fold code
  match f with
  | .unicode => low :: (variants.lookup low).getD []
  | _ => [low]

/-- Every character that `Folding.accepted` takes to `low`, and perhaps others. -/
def Folding.sources (f : Folding) (low : Nat) : List Nat :=
  let preimages (n : Nat) : List Nat :=
    n :: Text.CaseTable.lower.filterMap fun s =>
      let source := ((n : Int) - s.delta).toNat
      if s.mem source && (source : Int) + s.delta == n then some source else none
  match f with
  | .exact => [low]
  | .ascii => if 97 ≤ low ∧ low ≤ 122 then [low, low - 32] else [low]
  | .unicode =>
    let lows := low :: variants.filterMap fun (n, vs) => if vs.contains low then some n else none
    lows.flatMap preimages ++ (if lows.contains 0x69 then [0x130] else [])

def Category.mem (ascii : Bool) : Category → Nat → Bool
  | .digit, n => if ascii then 48 ≤ n && n ≤ 57 else Text.isDecimal n
  | .space, n => if ascii then n == 32 || (9 ≤ n && n ≤ 13) else Text.isSpace n
  | .word, n => if ascii then n < 128 && Text.isWord n else Text.isWord n

/-- Is a character, already folded, a member? Outside the basic plane a single member counts as it is
written, and a range is compared with both cases. -/
def SetItem.mem (f : Folding) (ascii : Bool) (n : Nat) : SetItem → Bool
  | .single code =>
    if f = .exact ∨ 0xFFFF < f.fold code then n == code else (f.accepted code).contains n
  | .range low high =>
    let inside (m : Nat) : Bool := low ≤ m && m ≤ high
    if f = .exact then inside n
    else
      (f.sources n).any (fun m => m ≤ 0xFFFF && inside m && (f.accepted m).contains n) ||
        (0xFFFF < high && (inside n || inside (Text.upperHead n)))
  | .category c negated => c.mem ascii n != negated

inductive CharTest
  | any (newline : Bool)
  | literal (f : Folding) (code : Nat) (negated : Bool)
  | set (f : Folding) (ascii : Bool) (items : List SetItem) (negated : Bool)
  deriving DecidableEq, Repr

def CharTest.holds : CharTest → Char → Bool
  | .any newline, c => newline || c != '\n'
  | .literal f code negated, c => (f.accepted code).contains (f.fold c.toNat) != negated
  | .set f ascii items negated, c => items.any (·.mem f ascii (f.fold c.toNat)) != negated

end BaseLib.Regex
