import BaseLib.Error

namespace BaseLib

/-- A growing store of bytes with a position. Writing past the end fills the gap with zeros, unless the gap is
too large to be counted. -/
structure ByteBuffer where
  bytes : List Nat
  position : Nat
  deriving DecidableEq, Repr, Inhabited

namespace ByteBuffer

def ofBytes (bytes : List Nat) : ByteBuffer := ⟨bytes, 0⟩

def length (b : ByteBuffer) : Nat := b.bytes.length

def overwrite (b : ByteBuffer) (data : List Nat) : ByteBuffer :=
  let filled := b.bytes ++ List.replicate (b.position - b.bytes.length) 0
  let stop := b.position + data.length
  ⟨filled.take b.position ++ data ++ filled.drop stop, stop⟩

def write (b : ByteBuffer) (data : List Nat) : Except Misuse ByteBuffer :=
  if b.length + Word.maxSize < b.position then .error .tooLarge else .ok (b.overwrite data)

def setPosition (b : ByteBuffer) (position : Int) : Except Failure ByteBuffer :=
  if position < 0 then .error .negativePosition else .ok { b with position := position.toNat }

def range? (length : Nat) (offset : Int) (count : Option Int) : Option (Nat × Nat) :=
  let count := count.getD (length - offset)
  if 0 ≤ offset ∧ 0 ≤ count ∧ offset + count ≤ length then some (offset.toNat, count.toNat) else none

def byte? (n : Int) : Option Nat := if 0 ≤ n ∧ n ≤ 255 then some n.toNat else none

end ByteBuffer

end BaseLib
