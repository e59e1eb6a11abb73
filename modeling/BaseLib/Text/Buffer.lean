import BaseLib.Error

namespace BaseLib.Text

/-- The text stands in pieces of character codes, in the order in which they were added. A piece may be empty,
and a code may be that of a surrogate. -/
structure Buffer where
  pieces : List (List Nat)
  deriving DecidableEq, Repr, Inhabited

namespace Buffer

def empty : Buffer := ⟨[]⟩

def ofCodes (codes : List Nat) : Buffer := ⟨[codes]⟩

def codes (b : Buffer) : List Nat := b.pieces.flatten

def push (b : Buffer) (codes : List Nat) : Buffer := ⟨b.pieces ++ [codes]⟩

def flatten (b : Buffer) : Buffer := ⟨if b.codes.isEmpty then [] else [b.codes]⟩

def lengthIn : List (List Nat) → Nat
  | [] => 0
  | piece :: rest => piece.length + lengthIn rest

def length (b : Buffer) : Nat := lengthIn b.pieces

def splice (b : Buffer) (place : Nat) (codes : List Nat) : Buffer :=
  ⟨[b.codes.take place ++ codes ++ b.codes.drop place]⟩

def checkPlace (b : Buffer) (index : Int) : Except Failure Unit :=
  if index < 0 ∨ (b.codes.length : Int) < index then .error (.textIndex "index") else .ok ()

def setLength (b : Buffer) (length : Int) : Except Fault Buffer :=
  if length < 0 then .error (Failure.outOfRange "value")
  else if Word.maxSize < length.toNat then .error Misuse.tooLarge
  else .ok ⟨[b.codes.take length.toNat ++ List.replicate (length.toNat - b.codes.length) 0]⟩

def codeIn : List (List Nat) → Nat → Nat
  | [], _ => 0
  | piece :: rest, place =>
    match piece[place]? with
    | some code => code
    | none => codeIn rest (place - piece.length)

def codeAt (b : Buffer) (index : Int) : Except Failure Nat :=
  if index < 0 then .error (.textIndex "index") else .ok (codeIn b.pieces index.toNat)

@[simp]
theorem codes_empty : empty.codes = [] := rfl

@[simp]
theorem codes_ofCodes (codes : List Nat) : (ofCodes codes).codes = codes := List.append_nil _

@[simp]
theorem codes_push (b : Buffer) (codes : List Nat) : (b.push codes).codes = b.codes ++ codes := by
  simp [push, Buffer.codes]

@[simp]
theorem codes_flatten (b : Buffer) : b.flatten.codes = b.codes := by
  by_cases h : b.codes = []
  · rw [flatten, h]
    rfl
  · have hne : b.codes.isEmpty = false := by simpa using h
    rw [flatten, hne]
    exact List.append_nil _

@[simp]
theorem codes_splice (b : Buffer) (place : Nat) (codes : List Nat) :
    (b.splice place codes).codes = b.codes.take place ++ codes ++ b.codes.drop place :=
  List.append_nil _

theorem lengthIn_eq (pieces : List (List Nat)) : lengthIn pieces = pieces.flatten.length := by
  induction pieces with
  | nil => rfl
  | cons piece rest ih => rw [lengthIn, ih, List.flatten_cons, List.length_append]

@[simp]
theorem length_eq (b : Buffer) : b.length = b.codes.length := lengthIn_eq _

theorem codeIn_eq (pieces : List (List Nat)) (place : Nat) :
    codeIn pieces place = pieces.flatten[place]?.getD 0 := by
  induction pieces generalizing place with
  | nil => rfl
  | cons piece rest ih =>
      rw [codeIn, List.flatten_cons]
      by_cases h : place < piece.length
      · rw [List.getElem?_append_left h, List.getElem?_eq_getElem h]
        rfl
      · rw [List.getElem?_append_right (Nat.not_lt.mp h), List.getElem?_eq_none (Nat.not_lt.mp h)]
        exact ih _

end Buffer

end BaseLib.Text
