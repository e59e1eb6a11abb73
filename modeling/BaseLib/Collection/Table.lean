namespace BaseLib

structure Keying (κ : Type) where
  isNull : κ → Bool
  hash : κ → Int
  same : κ → κ → Bool

inductive Token (κ : Type)
  | null
  | keyed (hash : Int) (key : κ)
  deriving DecidableEq, Repr, Inhabited

namespace Keying

variable {κ : Type}

def token (k : Keying κ) (key : κ) : Token κ :=
  if k.isNull key then .null else .keyed (k.hash key) key

def answers (k : Keying κ) : Token κ → Token κ → Bool
  | .null, .null => true
  | .keyed h a, .keyed h' b => h == h' && k.same a b
  | _, _ => false

end Keying

/-- Entries under distinct keys, in the order of insertion. Keys are told apart by a hash that is taken when the
key comes in and by an equality; the null key stands apart from all others. -/
structure Table (κ ν : Type) where
  entries : List (Token κ × ν)
  deriving DecidableEq, Repr, Inhabited

namespace Table

variable {κ ν : Type}

def empty : Table κ ν := ⟨[]⟩

def size (t : Table κ ν) : Nat := t.entries.length

def values (t : Table κ ν) : List ν := t.entries.map (·.2)

def get? (t : Table κ ν) (k : Keying κ) (key : κ) : Option ν :=
  (t.entries.find? fun e => k.answers e.1 (k.token key)).map (·.2)

def contains (t : Table κ ν) (k : Keying κ) (key : κ) : Bool :=
  t.entries.any fun e => k.answers e.1 (k.token key)

def replaceFirst (p : Token κ → Bool) (v : ν) : List (Token κ × ν) → List (Token κ × ν)
  | [] => []
  | e :: es => if p e.1 then (e.1, v) :: es else e :: replaceFirst p v es

/-- Binds a key: in its old place if it is bound already, else at the end. -/
def set (t : Table κ ν) (k : Keying κ) (key : κ) (v : ν) : Table κ ν :=
  if t.contains k key then ⟨replaceFirst (k.answers · (k.token key)) v t.entries⟩
  else ⟨t.entries ++ [(k.token key, v)]⟩

def add? (t : Table κ ν) (k : Keying κ) (key : κ) (v : ν) : Option (Table κ ν) :=
  if t.contains k key then none else some ⟨t.entries ++ [(k.token key, v)]⟩

def erase (t : Table κ ν) (k : Keying κ) (key : κ) : Table κ ν :=
  ⟨t.entries.eraseP fun e => k.answers e.1 (k.token key)⟩

end Table

end BaseLib
