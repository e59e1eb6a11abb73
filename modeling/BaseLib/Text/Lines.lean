namespace BaseLib.Text

/-- A line ends at a line feed, and a carriage return right before that, or at the end of the text, does not
belong to it. -/
structure Lines where
  rest : List Char
  deriving DecidableEq, Repr, Inhabited

namespace Lines

def dropReturn (line : List Char) : List Char :=
  if line.getLast? = some '\r' then line.dropLast else line

def readLine? (r : Lines) : Option (List Char) × Lines :=
  if r.rest.isEmpty then (none, r)
  else
    (some (dropReturn (r.rest.takeWhile (· != '\n'))), ⟨(r.rest.dropWhile (· != '\n')).drop 1⟩)

def readToEnd (r : Lines) : List Char × Lines := (r.rest, ⟨[]⟩)

def peek? (r : Lines) : Option Char := r.rest.head?

def read? (r : Lines) : Option Char × Lines := (r.peek?, ⟨r.rest.drop 1⟩)

end Lines

end BaseLib.Text
