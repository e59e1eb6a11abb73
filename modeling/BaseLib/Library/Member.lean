import BaseLib.Session.Enumerate

namespace BaseLib

structure Member where
  required : Nat
  defaults : Option (List Value)
  run : List Value → Action Value

abbrev Members := List (String × Member)

namespace Member

def call (m : Member) (args : List Value) : Action Value :=
  if args.length < m.required then misuse .wrongType
  else
    match m.defaults with
    | none => m.run args
    | some ds =>
      if m.required + ds.length < args.length then misuse .wrongType
      else m.run (args ++ ds.drop (args.length - m.required))

def nullary (f : Action Value) : Member := ⟨0, some [], fun _ => f⟩

def unary (f : Value → Action Value) (defaults : List Value := []) : Member :=
  ⟨1 - defaults.length, some defaults, fun
    | [a] => f a
    | _ => misuse .wrongType⟩

def binary (f : Value → Value → Action Value) (defaults : List Value := []) : Member :=
  ⟨2 - defaults.length, some defaults, fun
    | [a, b] => f a b
    | _ => misuse .wrongType⟩

def ternary (f : Value → Value → Value → Action Value) (defaults : List Value := []) : Member :=
  ⟨3 - defaults.length, some defaults, fun
    | [a, b, c] => f a b c
    | _ => misuse .wrongType⟩

def quaternary (f : Value → Value → Value → Value → Action Value) (defaults : List Value := []) :
    Member :=
  ⟨4 - defaults.length, some defaults, fun
    | [a, b, c, d] => f a b c d
    | _ => misuse .wrongType⟩

def variadic (required : Nat) (f : List Value → Action Value) : Member := ⟨required, none, f⟩

def planned (name : String) : Member := variadic 0 fun _ => refusePlanned name

end Member

def needText (v : Value) : Action (List Char) :=
  match v with
  | .text t => pure t
  | .broken _ => misuse .surrogate
  | _ => misuse .wrongType

def textOwner (v : Value) : Action (List Char) :=
  match v with
  | .text t => pure t
  | .broken _ => misuse .surrogate
  | _ => misuse .noSuchMember

def needCodes (v : Value) : Action (List Nat) :=
  match v.codes? with
  | some codes => pure codes
  | none => misuse .wrongType

def needChars (codes : List Nat) : Action (List Char) :=
  if codes.all Text.isScalar then pure (Text.charsOf codes) else misuse .surrogate

theorem needChars_codesOf (t : List Char) : needChars (Text.codesOf t) = pure t := by
  rw [needChars, if_pos (Text.all_isScalar_codesOf t), Text.charsOf_codesOf]

def needNumber (v : Value) : Action Number :=
  match v.operand? with
  | some x => pure x
  | none => misuse .wrongType

def validCode (n : Int) : Action Nat :=
  if n < -2147483648 ∨ 2147483647 < n then misuse .tooLarge
  else if n < 0 ∨ 1114111 < n then misuse .badValue
  else pure n.toNat

def charOfCode (n : Int) : Action Char := do
  let code ← validCode n
  if Text.isScalar code then pure (Char.ofNat code) else misuse .surrogate

def textOrCode (v : Value) : Action (List Char) := do
  match v.integer? with
  | some n => pure [← charOfCode n]
  | none => needText v

def codeOf (v : Value) : Action Int :=
  match v with
  | .text [c] => pure c.toNat
  | .broken ⟨[code], _⟩ => pure code
  | .text _ | .broken _ => fail .noSingleCharacter
  | v => needInt v

def iterated (source : Value) : Action (List Value) := do
  let w ← foreignWalk source
  drain (← get).steps w

def done : Action Value := pure .null

def yes (b : Bool) : Action Value := pure (.bool b)

def objectOf (v : Value) : Action (Nat × Object) := do
  match v with
  | .ref id =>
    match (← get).store[id]? with
    | some o => pure (id, o)
    | none => misuse .wrongType
  | _ => misuse .wrongType

def arrayOf (v : Value) : Action (Nat × List Value) := do
  match ← objectOf v with
  | (id, .array items) => pure (id, items)
  | _ => misuse .wrongType

def readHolder (v : Value) : Action Value := itemOf v (.int 0)

def writeHolder (holder x : Value) : Action Unit := setItemOf holder (.int 0) x

def newListOf (kind : ListKind) (items : List Value) : Action Value := do
  let storage ← allocArray items
  alloc (.list kind storage)

def notNull (v : Value) (param : String) : Action Unit :=
  if v == .null then fail (.nullArgument param) else pure ()

end BaseLib
