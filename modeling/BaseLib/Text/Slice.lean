import BaseLib.Error
import BaseLib.Text.Search

namespace BaseLib.Text

def position (place : Option Nat) : Int :=
  match place with
  | some i => i
  | none => -1

def indexOf (s value : List Char) (start : Int) : Except Failure Int :=
  if start < 0 ∨ (s.length : Int) < start then .error (.textIndex "startIndex")
  else .ok (position (findFrom? value s start.toNat))

def lastIndexOf (s value : List Char) : Int := position (findLast? value s)

def charAt? (s : List Char) (i : Int) : Option Char :=
  let i := if i < 0 then i + s.length else i
  if 0 ≤ i then s[i.toNat]? else none

/-- The first place from a start on that holds one of some characters, given by their codes. Places
before the text count from its end, and one before its first character is refused. -/
def indexOfAny (s : List Char) (codes : List Int) (start : Int) : Except Misuse Int :=
  if start + s.length < 0 then .error .outsideHolder
  else
    let places := (List.range (s.length - start).toNat).map fun (i : Nat) => start + i
    let found := places.find? fun i => (charAt? s i).any fun c => codes.contains (c.toNat : Int)
    .ok (found.getD (-1))

/-- The part from a start on, `length` characters or, if that is negative, all. -/
def substring (s : List Char) (start length : Int) : Except Failure (List Char) :=
  if start < 0 ∨ (s.length : Int) < start then .error .substringStart
  else if length < 0 then .ok (s.drop start.toNat)
  else if (s.length : Int) < start + length then .error .substringEnd
  else .ok ((s.drop start.toNat).take length.toNat)

/-- The text without `count` characters from a start on or, if that is negative, without all. -/
def removeRange (s : List Char) (start count : Int) : Except Failure (List Char) :=
  if start < 0 ∨ (s.length : Int) < start then .error (.outOfRange "startIndex")
  else if count < 0 then .ok (s.take start.toNat)
  else if (s.length : Int) < start + count then .error .removeEnd
  else .ok (s.take start.toNat ++ s.drop (start.toNat + count.toNat))

def replaceText (s old new : List Char) : Except Failure (List Char) :=
  if old.isEmpty then .error .emptyOldText else .ok (replace old new s)

def isSeparatorBlank (c : Char) : Bool :=
  ('\t' ≤ c && c ≤ '\r') || c == ' ' || c == '\u0085' || c == '\u00a0'

/-- The pieces between separators; the longest that fits counts, and without any blanks separate. -/
def splitText (s : List Char) (separators : List (List Char)) : List (List Char) :=
  let separators := separators.filter (!·.isEmpty)
  if separators.isEmpty then
    cut (fun t => if t.head?.any isSeparatorBlank then 1 else 0) s
  else splitOnAny separators s

end BaseLib.Text
