import BaseLib.Decimal.Printer
import BaseLib.Text.Quoted
import BaseLib.Text.Search

namespace BaseLib

/-- What a script reports about values. Reports of unordered collections are sorted by their text. -/
inductive Report
  | null
  | bool (b : Bool)
  | int (n : Int)
  | text (s : List Char)
  | codes (codes : List Nat)
  | list (items : List Report)
  | record (fields : List (String × Report))
  deriving Inhabited

namespace Report

def escape (c : Char) : List Char :=
  if c = '"' || c = '\\' then ['\\', c]
  else if c = '\n' then "\\n".toList
  else if c = '\r' then "\\r".toList
  else if c = '\t' then "\\t".toList
  else if c = '\x08' then "\\b".toList
  else if c = '\x0c' then "\\f".toList
  else if c.toNat < 0x20 then '\\' :: 'u' :: Text.Quoted.hex 4 c.toNat
  else [c]

def escapeCode (n : Nat) : List Char :=
  if Text.isScalar n then escape (Char.ofNat n) else '\\' :: 'u' :: Text.Quoted.hex 4 n

def quoted (s : List Char) : List Char := '"' :: s.flatMap escape ++ ['"']

def intText (n : Int) : List Char := Decimal.withSign (n < 0) (Decimal.digits n.natAbs)

def plainLimit : Nat := 9007199254740991

def separated (parts : List (List Char)) : List Char := Text.join [','] parts

mutual

def compact : Report → List Char
  | null => "null".toList
  | bool b => (if b then "true" else "false").toList
  | int n => intText n
  | text s => quoted s
  | codes ns => '"' :: ns.flatMap escapeCode ++ ['"']
  | list items => '[' :: separated (compactAll items) ++ [']']
  | record fields => '\x7b' :: separated (compactFields fields) ++ ['\x7d']

def compactAll : List Report → List (List Char)
  | [] => []
  | x :: xs => compact x :: compactAll xs

def compactFields : List (String × Report) → List (List Char)
  | [] => []
  | f :: fs => compactField f :: compactFields fs

def compactField : String × Report → List Char
  | (name, x) => quoted name.toList ++ ':' :: compact x

end

def ofInt (n : Int) : Report :=
  if n.natAbs ≤ plainLimit then int n else record [("i", text (intText n))]

def ofString (s : String) : Report := text s.toList

def object (type : String) : Report := record [("obj", ofString type)]

def sorted (items : List Report) : List Report :=
  items.mergeSort fun a b => compareOfLessAndEq a.compact b.compact != .gt

end Report

end BaseLib
