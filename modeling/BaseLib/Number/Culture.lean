import BaseLib.Text.Search

namespace BaseLib

structure NumberSymbols where
  decimalSeparator : String := "."
  groupSeparator : String := ","
  percent : String := "%"
  currency : String := "¤"
  negativeSign : String := "-"
  deriving DecidableEq, Repr, Inhabited

namespace NumberSymbols

def invariant : NumberSymbols := {}

def localize (symbols : NumberSymbols) (text : List Char) : List Char :=
  if symbols.decimalSeparator = "." ∧ symbols.groupSeparator = "," then text
  else
    Text.replace ['\x00'] symbols.groupSeparator.toList
      (Text.replace ['.'] symbols.decimalSeparator.toList (Text.replace [','] ['\x00'] text))

end NumberSymbols

end BaseLib
