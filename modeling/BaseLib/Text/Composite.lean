import BaseLib.Number.Parse

namespace BaseLib.Text.Composite

structure Width where
  negative : Bool
  digits : List Char
  deriving DecidableEq, Repr

/-- A format is cut into pieces from the left; the first place that is no piece ends it. -/
inductive Piece
  | literal (code : Nat)
  | item (index : List Char) (width : Option Width) (format : List Nat)
  | malformed
  deriving DecidableEq, Repr

@[match_pattern]
abbrev comma : Nat := 0x2C

@[match_pattern]
abbrev minus : Nat := 0x2D

@[match_pattern]
abbrev colon : Nat := 0x3A

@[match_pattern]
abbrev leftBrace : Nat := 0x7B

@[match_pattern]
abbrev rightBrace : Nat := 0x7D

def takeSpace (s : List Nat) : List Nat := s.dropWhile isSpace

def takeNumeral? (s : List Nat) : Option (List Char × List Nat) :=
  let run := s.takeWhile isDecimal
  if run.isEmpty then none else some (charsOf run, s.dropWhile isDecimal)

def takeWidth? : List Nat → Option (Width × List Nat)
  | minus :: s => (takeNumeral? s).map fun (digits, rest) => (⟨true, digits⟩, rest)
  | s => (takeNumeral? s).map fun (digits, rest) => (⟨false, digits⟩, rest)

def itemEnd? (index : List Char) (width : Option Width) : List Nat → Option Piece
  | [] => some (.item index width [])
  | colon :: format => some (.item index width format)
  | _ => none

def readItem? (s : List Nat) : Option Piece := do
  let (index, s) ← takeNumeral? (takeSpace s)
  match takeSpace s with
  | comma :: s =>
    let (width, s) ← takeWidth? (takeSpace s)
    itemEnd? index (some width) (takeSpace s)
  | s => itemEnd? index none s

def piecesAfter : Nat → List Nat → List Piece
  | _, [] => []
  | skip + 1, _ :: s => piecesAfter skip s
  | 0, rightBrace :: s =>
    match s with
    | rightBrace :: _ => .literal rightBrace :: piecesAfter 1 s
    | _ => [.malformed]
  | 0, leftBrace :: s =>
    match s with
    | leftBrace :: _ => .literal leftBrace :: piecesAfter 1 s
    | _ =>
      if s.contains rightBrace then
        let inside := s.takeWhile (· != rightBrace)
        match readItem? inside with
        | some p => p :: piecesAfter (inside.length + 1) s
        | none => [.malformed]
      else [.malformed]
  | 0, code :: s => .literal code :: piecesAfter 0 s

def pieces (format : List Nat) : List Piece := piecesAfter 0 format

def longestNumeral : Nat := Number.mostDigits

def readNumeral (digits : List Char) : Except Fault Nat :=
  if longestNumeral < digits.length then .error Misuse.badValue
  else
    match decimalValue? digits with
    | some n => .ok n
    | none => .error Misuse.badValue

/-- Pads with spaces to a width, on the left or, for a negative width, on the right. -/
def pad (width : Int) (s : List Nat) : List Nat :=
  let fill := List.replicate (width.natAbs - s.length) ' '.toNat
  if width < 0 then s ++ fill else fill ++ s

def widest : Nat := 9223372036854775807

def Width.read (w : Width) : Except Fault Int := do
  let n ← readNumeral w.digits
  if widest < n then .error Misuse.tooLarge else .ok (if w.negative then -(n : Int) else n)

def padTo (width : Option Width) (s : List Nat) : Except Fault (List Nat) :=
  match width with
  | none => .ok s
  | some w => do pure (pad (← w.read) s)

def expandItem {α : Type} (render : α → List Nat → Except Fault (List Nat)) (args : List α)
    (index : List Char) (width : Option Width) (format : List Nat) : Except Fault (List Nat) := do
  match args[← readNumeral index]? with
  | none => .error Failure.missingArgument
  | some a => padTo width (← render a format)

/-- Expands a format with `render` for the arguments. Pieces are expanded from the left, so the first
that fails decides. -/
def expand {α : Type} (render : α → List Nat → Except Fault (List Nat)) (args : List α) :
    List Piece → Except Fault (List Nat)
  | [] => .ok []
  | .literal code :: rest => do pure (code :: (← expand render args rest))
  | .malformed :: _ => .error Failure.badComposite
  | .item index width format :: rest => do
    let text ← expandItem render args index width format
    pure (text ++ (← expand render args rest))

end BaseLib.Text.Composite
