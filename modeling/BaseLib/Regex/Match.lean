import BaseLib.Regex.Matcher
import BaseLib.Regex.Parser
import BaseLib.Regex.Spelling

namespace BaseLib

structure RegexOptions where
  bits : Nat
  deriving DecidableEq, Repr, Inhabited

namespace RegexOptions

def has (o : RegexOptions) (flag : Nat) : Bool := o.bits &&& flag != 0

def ignoreCase (o : RegexOptions) : Bool := o.has 1
def multiline (o : RegexOptions) : Bool := o.has 2
def explicitCapture (o : RegexOptions) : Bool := o.has 4
def singleline (o : RegexOptions) : Bool := o.has 16
def ignorePatternWhitespace (o : RegexOptions) : Bool := o.has 32
def rightToLeft (o : RegexOptions) : Bool := o.has 64
def ecmaScript (o : RegexOptions) : Bool := o.has 256

def flags (o : RegexOptions) : Regex.Flags where
  ignoreCase := o.ignoreCase
  multiline := o.multiline
  dotAll := o.singleline
  verbose := o.ignorePatternWhitespace
  ascii := o.ecmaScript

end RegexOptions

structure Regex where
  pattern : List Char
  options : RegexOptions
  program : Regex.Program
  deriving DecidableEq, Repr, Inhabited

namespace Regex

/-- A group's index is where it would begin if the groups lay end to end from the start of the match. -/
structure Group where
  value : List Char
  index : Nat
  length : Nat
  success : Bool
  name : List Char
  deriving DecidableEq, Repr, Inhabited

def Group.absent (name : List Char) : Group := ⟨[], 0, 0, false, name⟩

def ofPattern (known : CharacterNames) (pattern : List Char) (options : RegexOptions) : Except Fault Regex :=
  if options.rightToLeft then .error Failure.rightToLeft
  else
    match read known (Spelling.normalize pattern options.explicitCapture) options.flags with
    | .ok program => .ok ⟨pattern, options, program⟩
    | .error (.misuse m) => .error m
    | .error (.flaw f offset) =>
      let place := match offset with
        | some n => toString n
        | none => "None"
      .error (Failure.badPattern (String.ofList pattern) place f.text)

def unnamed (r : Regex) : List Nat :=
  (List.range r.program.groups).filterMap fun i =>
    if r.program.names.any (·.2 == i + 1) then none else some (i + 1)

/-- The program's group for each group number: the whole match, the unnamed groups, the named ones. -/
def order (r : Regex) : List Nat :=
  0 :: (r.unnamed ++ (List.range r.program.groups).filterMap fun i =>
    if r.program.names.any (·.2 == i + 1) then some (i + 1) else none)

def nameOf (r : Regex) (g : Nat) : List Char :=
  ((r.program.names.find? (·.2 == g)).map (·.1.toList)).getD []

def groupNames (r : Regex) : List (List Char) :=
  (List.range (r.unnamed.length + 1)).map Decimal.digits ++
    (r.order.drop (r.unnamed.length + 1)).map r.nameOf

structure Match where
  regex : Regex
  text : List Char
  found : Option Found
  deriving DecidableEq, Repr, Inhabited

namespace Match

/-- The spans of the groups from 1 on laid end to end: each group that took part begins where those
before it end. -/
def lay (text : List Char) (marks : Marks) : List (Nat × List Char) → Nat → List Group
  | [], _ => []
  | (g, name) :: rest, offset =>
    match marks.span? g with
    | some (a, b) =>
      ⟨(text.drop a).take (b - a), offset, b - a, true, name⟩ :: lay text marks rest (offset + (b - a))
    | none => Group.absent name :: lay text marks rest offset

def whole (m : Match) : Group :=
  match m.found with
  | none => Group.absent ['0']
  | some f => ⟨(m.text.drop f.start).take (f.stop - f.start), f.start, f.stop - f.start, true, ['0']⟩

def groups (m : Match) : List Group :=
  match m.found with
  | none => m.regex.groupNames.map Group.absent
  | some f =>
    m.whole :: lay m.text f.marks ((m.regex.order.zip m.regex.groupNames).drop 1) f.start

end Match

def matchFrom (r : Regex) (text : List Char) (start : Nat) : Match :=
  ⟨r, text, r.program.search text.toArray start false⟩

def Match.next (m : Match) : Match :=
  match m.found with
  | none => m
  | some f =>
    if f.start = f.stop then
      if m.text.length ≤ f.stop then { m with found := none }
      else m.regex.matchFrom m.text (f.stop + 1)
    else m.regex.matchFrom m.text f.stop

def Match.chain : Nat → Match → List Match
  | 0, _ => []
  | fuel + 1, m => if m.found.isSome then m :: chain fuel m.next else []

def matches_ (r : Regex) (text : List Char) (start : Nat) : List Match :=
  Match.chain (text.length - start + 1) (r.matchFrom text start)

def pieces (r : Regex) (text : List Char) : Nat → List Found → List (List Char)
  | from_, [] => [text.drop from_]
  | from_, m :: ms =>
    let groups := (List.range r.program.groups).filterMap fun i =>
      (m.marks.span? (i + 1)).map fun (a, b) => (text.drop a).take (b - a)
    (text.drop from_).take (m.start - from_) :: groups ++ pieces r text m.stop ms

def split (r : Regex) (text : List Char) (count : Nat) : List (List Char) :=
  if count = 1 then [text]
  else
    let found := r.program.scan text.toArray 0
    r.pieces text 0 (if count = 0 then found else found.take (count - 1))

def escape (text : List Char) : List Char :=
  text.flatMap fun c =>
    if "\\*+?|\x7b[()^$.# ".toList.contains c then ['\\', c]
    else if c = '\t' then "\\t".toList
    else if c = '\n' then "\\n".toList
    else if c = '\x0c' then "\\f".toList
    else if c = '\r' then "\\r".toList
    else if c = '\x0b' then "\\v".toList
    else [c]

end Regex

end BaseLib
