import BaseLib.Text.CharClass
import BaseLib.Text.Search

namespace BaseLib.Regex.Spelling

/-- A reference by number stands in a group of its own, so that a digit after it does not join it. -/
def reference (name : List Char) : List Char :=
  if Text.allDigits name then "(?:\\".toList ++ name ++ [')']
  else "(?P=".toList ++ name ++ [')']

def upTo (c : Char) (s : List Char) : Option (List Char × List Char) :=
  match Text.breakOn [c] s with
  | (before, some after) => some (before, after)
  | (_, none) => none

def delimited : List Char → Option (List Char × List Char)
  | '<' :: s => upTo '>' s
  | '\'' :: s => upTo '\'' s
  | _ => none

/-- The beginning of a class after its bracket: `^`, and a literal `]` that does not close it. -/
def classStart (s : List Char) : List Char × List Char :=
  let (caret, s) :=
    match s with
    | '^' :: s => (['^'], s)
    | s => ([], s)
  match s with
  | ']' :: s => (caret ++ [']'], s)
  | s => (caret, s)

/-- A pattern in the one spelling; `inClass` inside a bracketed class. -/
def go (explicit : Bool) : Nat → Bool → List Char → List Char
  | 0, _, _ => []
  | _, _, [] => []
  | fuel + 1, inClass, '\\' :: c :: s =>
    match if !inClass && c == 'k' then delimited s else none with
    | some (name, after) => reference name ++ go explicit fuel false after
    | none => '\\' :: c :: go explicit fuel inClass s
  | fuel + 1, true, c :: s => c :: go explicit fuel (c != ']') s
  | fuel + 1, false, '[' :: s =>
    let (start, after) := classStart s
    '[' :: start ++ go explicit fuel true after
  | fuel + 1, false, '(' :: s =>
    match s with
    | '?' :: '<' :: c :: _ =>
      if c != '=' && c != '!' then "(?P<".toList ++ go explicit fuel false (s.drop 2)
      else '(' :: go explicit fuel false s
    | '?' :: '\'' :: rest =>
      match upTo '\'' rest with
      | some (name, after) => "(?P<".toList ++ name ++ '>' :: go explicit fuel false after
      | none => '(' :: go explicit fuel false s
    | '?' :: _ => '(' :: go explicit fuel false s
    | _ => (if explicit then "(?:".toList else ['(']) ++ go explicit fuel false s
  | fuel + 1, false, c :: s => c :: go explicit fuel false s

/-- Names in angle brackets or in quotes, and references by `\k`, are all brought to the one spelling that the
reader knows; nothing inside a bracketed class is touched. -/
def normalize (pattern : List Char) (explicit : Bool) : List Char :=
  go explicit (pattern.length + 1) false pattern

end BaseLib.Regex.Spelling
