import BaseLib.Number.Parse
import BaseLib.Regex.Flaw
import BaseLib.Regex.Syntax

namespace BaseLib.Regex

structure Flags where
  ignoreCase : Bool := false
  multiline : Bool := false
  dotAll : Bool := false
  verbose : Bool := false
  ascii : Bool := false
  deriving DecidableEq, Repr, Inhabited

def Flags.folding (f : Flags) : Folding :=
  if f.ignoreCase then (if f.ascii then .ascii else .unicode) else .exact

abbrev CharacterNames := List Char → Option Nat

def CharacterNames.empty : CharacterNames := fun _ => none

namespace Reader

inductive Token
  | plain (c : Char)
  | escaped (c : Char)
  deriving DecidableEq, Repr

namespace Token

def text : Token → List Char
  | plain c => [c]
  | escaped c => ['\\', c]

def size (t : Token) : Nat := t.text.length

end Token

/-- The reader sees one token ahead, a character or a backslash with the character after it. Offsets of flaws
count characters from the start of the pattern. -/
structure State where
  rest : List Char
  position : Nat
  flags : Flags
  characters : CharacterNames
  /-- The Unicode alphabet was asked for explicitly for the whole pattern. -/
  unicode : Bool := false
  template : Bool := false
  /-- The number of groups opened, the whole match included. -/
  groups : Nat := 1
  names : List (String × Nat) := []
  closed : List (Nat × Nat × Nat) := []
  /-- Inside a lookbehind: the number of groups opened before it. -/
  lookbehind : Option Nat := none
  /-- Groups that conditions name by number, with the place of the first mention. -/
  conditions : List (Nat × Nat) := []
  badLookbehind : Option Flaw := none

abbrev Reading := StateT State (Except Refusal)

def refuse {α : Type} (f : Flaw) (back : Nat := 0) : Reading α := do
  throw (.flaw f (some ((← get).position - back)))

def peek : Reading (Option Token) := do
  match (← get).rest with
  | [] => return none
  | '\\' :: c :: _ => return some (.escaped c)
  | c :: _ => return some (.plain c)

def checkEnd (s : State) : Except Refusal Unit :=
  if s.rest = ['\\'] then .error (.flaw .trailingBackslash (some s.position)) else .ok ()

def next : Reading (Option Token) := do
  let t ← peek
  match t with
  | none => return none
  | some t =>
    modify fun s => { s with rest := s.rest.drop t.size, position := s.position + t.size }
    checkEnd (← get)
    return some t

def accept (c : Char) : Reading Bool := do
  if (← peek) = some (.plain c) then
    let _ ← next
    return true
  else return false

def takeWhile (p : Char → Bool) : Nat → Reading (List Char)
  | 0 => return []
  | n + 1 => do
    match ← peek with
    | some (.plain c) =>
      if p c then
        let _ ← next
        return c :: (← takeWhile p n)
      else return []
    | _ => return []

def takeUntil (terminator : Char) (what : String) (soFar : List Char) : Nat → Reading (List Char)
  | 0 => throw (.misuse .tooDeep)
  | fuel + 1 => do
    match ← next with
    | none =>
      if soFar.isEmpty then refuse (.missing what)
      else refuse (.unterminatedName (String.singleton terminator)) soFar.length
    | some t =>
      if t = .plain terminator then
        if soFar.isEmpty then refuse (.missing what) 1 else return soFar
      else takeUntil terminator what (soFar ++ t.text) fuel

def takeName (terminator : Char) (what : String) : Reading (List Char) := do
  takeUntil terminator what [] ((← get).rest.length + 1)

def isHex (c : Char) : Bool := (Number.hexValue? c).isSome

def isOctal (c : Char) : Bool := '0' ≤ c && c ≤ '7'

def ofHex (ds : List Char) : Nat := (Number.readHex? ds).getD 0

def ofOctal (ds : List Char) : Nat := ds.foldl (fun n c => 8 * n + (c.toNat - 48)) 0

def hexEscape (letter : Char) (count : Nat) : Reading Nat := do
  let ds ← takeWhile isHex count
  let escape := '\\' :: letter :: ds
  if ds.length ≠ count then
    refuse (.incompleteEscape (String.ofList escape)) escape.length
  else if 0x10FFFF < ofHex ds then
    refuse (.badEscape (String.ofList escape)) escape.length
  else return ofHex ds

def isNameCharacter (c : Char) : Bool :=
  Text.isLatinLetter c.toNat || Number.isAsciiDigit c || c == ' ' || c == '-'

def unknownCharacter {α : Type} (name : List Char) : Reading α :=
  refuse (.unknownCharacter (String.ofList name)) (name.length + 4)

def namedCharacter : Reading Nat := do
  if !(← accept '\x7b') then refuse (.missing "\x7b")
  else
    let s ← get
    let name ← takeWhile isNameCharacter s.rest.length
    if (← peek) = some (.plain '\x7d') then
      let _ ← next
      if name.isEmpty then refuse (.missing "character name") 1
      else
        match s.characters name with
        | some n => return n
        | none => unknownCharacter name
    else
      unknownCharacter (← takeUntil '\x7d' "character name" name ((← get).rest.length + 1))

def control? : Char → Option Nat
  | 'a' => some 7
  | 'b' => some 8
  | 'f' => some 12
  | 'n' => some 10
  | 'r' => some 13
  | 't' => some 9
  | 'v' => some 11
  | '\\' => some 92
  | _ => none

def category? : Char → Option SetItem
  | 'd' => some (.category .digit false)
  | 'D' => some (.category .digit true)
  | 's' => some (.category .space false)
  | 'S' => some (.category .space true)
  | 'w' => some (.category .word false)
  | 'W' => some (.category .word true)
  | _ => none

/-- An escape that is the same inside and outside a set: a code, or a character that stands for
itself. -/
def commonEscape (c : Char) : Reading Nat := do
  if c = 'x' then hexEscape c 2
  else if c = 'u' then hexEscape c 4
  else if c = 'U' then hexEscape c 8
  else if c = 'N' then namedCharacter
  else if Text.isLatinLetter c.toNat || Number.isAsciiDigit c then
    refuse (.badEscape (String.ofList ['\\', c])) 2
  else return c.toNat

def octalEscape (first : Char) : Reading Nat := do
  let ds := first :: (← takeWhile isOctal 2)
  if 0o377 < ofOctal ds then
    refuse (.octalTooLarge (String.ofList ('\\' :: ds))) (ds.length + 1)
  else return ofOctal ds

def setEscape (c : Char) : Reading SetItem := do
  match control? c with
  | some n => return .single n
  | none =>
    match category? c with
    | some item => return item
    | none => if isOctal c then return .single (← octalEscape c) else return .single (← commonEscape c)

def isClosed (g : Nat) : Reading Bool := do
  let s ← get
  return g < s.groups && (s.closed.lookup g).isSome

/-- Inside a lookbehind only groups that were closed before it can be referred to. -/
def checkLookbehind (g : Nat) : Reading Unit := do
  match (← get).lookbehind with
  | none => return
  | some before =>
    if !(← isClosed g) then refuse .openGroup
    else if before ≤ g then refuse .sameLookbehindGroup
    else return

def literal (code : Nat) : Reading Pattern := do
  return .char (.literal (← get).flags.folding code false)

def backref (g : Nat) : Reading Pattern := do
  return .backref g (← get).flags.folding

def numberedReference (digits : List Char) : Reading Pattern := do
  let g := Decimal.ofDigits digits
  if (← get).groups ≤ g then refuse (.noSuchGroup g) digits.length
  else if !(← isClosed g) then refuse .openGroup (digits.length + 1)
  else
    checkLookbehind g
    backref g

def digitEscape (first : Char) : Reading Pattern := do
  match ← peek with
  | some (.plain second) =>
    if Number.isAsciiDigit second then
      let _ ← next
      match ← peek with
      | some (.plain third) =>
        if isOctal first && isOctal second && isOctal third then
          let _ ← next
          let ds := [first, second, third]
          if 0o377 < ofOctal ds then
            refuse (.octalTooLarge (String.ofList ('\\' :: ds))) 4
          else literal (ofOctal ds)
        else numberedReference [first, second]
      | _ => numberedReference [first, second]
    else numberedReference [first]
  | _ => numberedReference [first]

def escape (c : Char) : Reading Pattern := do
  let flags := (← get).flags
  match c with
  | 'A' => return .anchor .textStart
  | 'Z' => return .anchor .textEnd
  | 'b' => return .anchor (.boundary flags.ascii false)
  | 'B' => return .anchor (.boundary flags.ascii true)
  | _ =>
    match category? c with
    | some item => return .char (.set flags.folding flags.ascii [item] false)
    | none =>
      match control? c with
      | some n => literal n
      | none =>
        if c = '0' then literal (ofOctal (c :: (← takeWhile isOctal 2)))
        else if Number.isAsciiDigit c then digitEscape c
        else literal (← commonEscape c)

def SetItem.code? : SetItem → Option Nat
  | .single n => some n
  | _ => none

def setMember (t : Token) : Reading SetItem :=
  match t with
  | .escaped c => setEscape c
  | .plain c => return .single c.toNat

/-- The members of a set up to the bracket that closes it; `start` is the place of the opening one. -/
def setItems (start : Nat) (done : List SetItem) : Nat → Reading (List SetItem)
  | 0 => throw (.misuse .tooDeep)
  | fuel + 1 => do
    match ← next with
    | none => throw (.flaw .unterminatedSet (some start))
    | some this =>
      if this = .plain ']' ∧ !done.isEmpty then return done.reverse
      else
        let low ← setMember this
        if ← accept '-' then
          match ← next with
          | none => throw (.flaw .unterminatedSet (some start))
          | some that =>
            if that = .plain ']' then return (.single 45 :: low :: done).reverse
            else
              let high ← setMember that
              let bad := refuse (.badRange (String.ofList this.text) (String.ofList that.text))
                (this.size + 1 + that.size)
              match SetItem.code? low, SetItem.code? high with
              | some a, some b =>
                if b < a then bad else setItems start (.range a b :: done) fuel
              | _, _ => bad
        else setItems start (low :: done) fuel

def set : Reading Pattern := do
  let start := (← get).position - 1
  let negated ← accept '^'
  let items ← setItems start [] ((← get).rest.length + 1)
  let flags := (← get).flags
  match items with
  | [.single code] => return .char (.literal flags.folding code negated)
  | _ => return .char (.set flags.folding flags.ascii items negated)

def countLimit : Nat := 4294967295

def count (digits : List Char) : Reading Nat := do
  let n := Decimal.ofDigits digits
  if Number.mostDigits < digits.length then throw (.misuse .badValue)
  else if countLimit ≤ n then throw (.misuse .tooLarge)
  else return n

/-- The counts in braces, after the opening one; `none` if there are none and the brace is a
literal. -/
def braces : Reading (Option (Nat × Option Nat)) := do
  let saved ← get
  if (← peek) = some (.plain '\x7d') then return none
  else
    let limit := saved.rest.length
    let low ← takeWhile Number.isAsciiDigit limit
    let comma ← accept ','
    let high ← if comma then takeWhile Number.isAsciiDigit limit else pure low
    if !(← accept '\x7d') then
      set saved
      return none
    else
      let least ← if low.isEmpty then pure 0 else count low
      if high.isEmpty then return some (least, none)
      else
        let greatest ← count high
        if greatest < least then
          refuse .repeatOrder ((← get).position - saved.position)
        else return some (least, some greatest)
where
  set (s : State) : Reading Unit := MonadStateOf.set s

def counts (mark : Char) : Reading (Option (Nat × Option Nat)) :=
  match mark with
  | '?' => return some (0, some 1)
  | '*' => return some (0, none)
  | '+' => return some (1, none)
  | _ => braces

def greed : Reading Greed := do
  if ← accept '?' then return .lazy
  else if ← accept '+' then return .possessive
  else return .greedy

def repeated (start : Nat) (low : Nat) (high : Option Nat) (done : List Pattern) :
    Reading (List Pattern) := do
  match done with
  | [] | .anchor _ :: _ => throw (.flaw .nothingToRepeat (some start))
  | .repetition _ _ _ _ :: _ => throw (.flaw .multipleRepeat (some start))
  | item :: earlier =>
    return .repetition low high (← greed) item :: earlier

structure Inline where
  on : List Char
  off : List Char

def isFlag (c : Char) : Bool := "iLmsxatu".toList.contains c

def isAlphabetFlag (c : Char) : Bool := c == 'a' || c == 'u' || c == 'L'

def notFlag (t : Token) (expected : String) : Reading Inline :=
  match t with
  | .plain c =>
    refuse (if Text.isLetter c.toNat then .unknownFlag else .missing expected) 1
  | .escaped _ => refuse (.missing expected) 2

def flagsOff (on off : List Char) (c : Char) : Nat → Reading Inline
  | 0 => throw (.misuse .tooDeep)
  | fuel + 1 => do
    if isAlphabetFlag c then refuse .alphabetFlagOff
    else
      let off := off ++ [c]
      match ← next with
      | none => refuse (.missing ":")
      | some (.plain ':') =>
        if off.contains 't' then refuse .globalFlagOff 1
        else if on.any off.contains then refuse .flagOnAndOff 1
        else return ⟨on, off⟩
      | some (.plain c) =>
        if isFlag c then flagsOff on off c fuel else notFlag (.plain c) ":"
      | some t => notFlag t ":"

/-- What follows the flags to switch on: a closing parenthesis sets them for the whole pattern. -/
def flagsEnd (on : List Char) (last : Char) : Reading (Option Inline) := do
  if last = ')' then return none
  else if on.contains 't' then refuse .globalFlagOn 1
  else if last = '-' then
    match ← next with
    | none => refuse (.missing "flag")
    | some (.plain c) =>
      if isFlag c then return some (← flagsOff on [] c ((← get).rest.length + 1))
      else return some (← notFlag (.plain c) "flag")
    | some t => return some (← notFlag t "flag")
  else return some ⟨on, []⟩

def flagsOn (on : List Char) (c : Char) : Nat → Reading (List Char × Option Inline)
  | 0 => throw (.misuse .tooDeep)
  | fuel + 1 => do
    if c = 'L' then refuse .localeFlag
    else
      let on := on ++ [c]
      if isAlphabetFlag c && on.any (fun d => isAlphabetFlag d && d != c) then
        refuse .incompatibleFlags
      else
        match ← next with
        | none => refuse (.missing "-, : or )")
        | some (.plain d) =>
          if d = ')' ∨ d = '-' ∨ d = ':' then return (on, ← flagsEnd on d)
          else if isFlag d then flagsOn on d fuel
          else return (on, some (← notFlag (.plain d) "-, : or )"))
        | some t => return (on, some (← notFlag t "-, : or )"))

def switch (f : Flags) (value : Bool) : Char → Flags
  | 'i' => { f with ignoreCase := value }
  | 'm' => { f with multiline := value }
  | 's' => { f with dotAll := value }
  | 'x' => { f with verbose := value }
  | 'a' => { f with ascii := value }
  | 'u' => { f with ascii := !value }
  | _ => f

def Inline.apply (inl : Inline) (f : Flags) : Flags :=
  inl.off.foldl (fun f c => switch f false c) (inl.on.foldl (fun f c => switch f true c) f)

/-- Flags for the whole pattern; here the alphabets do not exclude each other yet. -/
def setGlobal (on : List Char) : Reading Unit :=
  modify fun s =>
    { s with
      flags := (on.filter (· != 'u')).foldl (fun f c => switch f true c) s.flags
      unicode := s.unicode || on.contains 'u'
      template := s.template || on.contains 't' }

def skipComment (start : Nat) : Nat → Reading Unit
  | 0 => throw (.misuse .tooDeep)
  | fuel + 1 => do
    match ← next with
    | none => throw (.flaw .unterminatedComment (some start))
    | some (.plain ')') => return
    | some _ => skipComment start fuel

def skipLine : Nat → Reading Unit
  | 0 => throw (.misuse .tooDeep)
  | fuel + 1 => do
    match ← next with
    | none | some (.plain '\n') => return
    | some _ => skipLine fuel

def close (start : Nat) : Reading Unit := do
  if ← accept ')' then return else throw (.flaw .unterminatedGroup (some start))

def checkName (name : List Char) : Reading Unit :=
  if Text.isName name then return
  else refuse (.badName (String.ofList name)) (name.length + 1)

def openGroup (name : Option (List Char)) : Reading Nat := do
  let s ← get
  let g := s.groups
  let names ←
    match name with
    | none => pure s.names
    | some n =>
      let key := String.ofList n
      match s.names.lookup key with
      | some earlier => refuse (.redefinedName key g earlier) (n.length + 1)
      | none => pure (s.names ++ [(key, g)])
  modify fun s => { s with groups := g + 1, names := names }
  return g

def widths (s : State) (g : Nat) : Nat × Nat := (s.closed.lookup g).getD (0, 0)

def closeGroup (g : Nat) (body : Pattern) : Reading Unit :=
  modify fun s => { s with closed := (g, body.width (widths s)) :: s.closed }

def under (flags : Flags) (r : Reading Pattern) : Reading Pattern := do
  let saved := (← get).flags
  modify fun s => { s with flags := flags }
  let p ← r
  modify fun s => { s with flags := saved }
  return p

def capturing (body : Reading Pattern) (start : Nat) (name : Option (List Char)) :
    Reading Pattern := do
  let g ← openGroup name
  let p ← under (← get).flags body
  close start
  closeGroup g p
  return .capture g p

def namedForm (body : Reading Pattern) (start : Nat) : Reading Pattern := do
  if ← accept '<' then
    let name ← takeName '>' "group name"
    checkName name
    capturing body start (some name)
  else if ← accept '=' then
    let name ← takeName ')' "group name"
    checkName name
    match (← get).names.lookup (String.ofList name) with
    | none => refuse (.unknownName (String.ofList name)) (name.length + 1)
    | some g =>
      if !(← isClosed g) then refuse .openGroup (name.length + 1)
      else
        checkLookbehind g
        backref g
  else
    match ← next with
    | none => refuse .unexpectedEnd
    | some t => refuse (.unknownExtension (String.ofList ('?' :: 'P' :: t.text))) (t.size + 2)

def lookbehind (negated : Bool) (p : Pattern) : Reading Pattern := do
  let s ← get
  let (least, greatest) := p.width (widths s)
  let bad :=
    if countLimit < least then some Flaw.longLookbehind
    else if least ≠ greatest then some Flaw.varyingLookbehind
    else none
  modify fun s => { s with badLookbehind := s.badLookbehind.or bad }
  return .behind negated least p

def lookaround (body : Reading Pattern) (start : Nat) (isBehind negated : Bool) : Reading Pattern := do
  let outer := (← get).lookbehind
  if isBehind then modify fun s => { s with lookbehind := s.lookbehind.or (some s.groups) }
  let p ← under (← get).flags body
  if isBehind then modify fun s => { s with lookbehind := outer }
  close start
  if isBehind then lookbehind negated p else return .ahead negated p

def conditionGroup : Reading Nat := do
  let name ← takeName ')' "group name"
  if Text.isName name then
    match (← get).names.lookup (String.ofList name) with
    | some g => return g
    | none => refuse (.unknownName (String.ofList name)) (name.length + 1)
  else
    match Number.readInteger? name 10 with
    | some (.ofNat 0) => refuse .groupZero (name.length + 1)
    | some (.ofNat g) =>
      if 2147483647 ≤ g then refuse (.noSuchGroup g) (name.length + 1)
      else
        let place := (← get).position - name.length - 1
        modify fun s =>
          if (s.conditions.lookup g).isSome then s
          else { s with conditions := s.conditions ++ [(g, place)] }
        return g
    | _ => refuse (.badName (String.ofList name)) (name.length + 1)

/-- A conditional: one branch, or two of which the second is taken without the group. -/
def conditional (branch : Reading Pattern) (start : Nat) : Reading Pattern := do
  let g ← conditionGroup
  checkLookbehind g
  let yes ← under (← get).flags branch
  if ← accept '|' then
    let no ← under (← get).flags branch
    if (← peek) = some (.plain '|') then refuse .manyBranches
    else
      close start
      return .conditional g yes no
  else
    close start
    return .conditional g yes .empty

def group (body branch : Reading Pattern) (start : Nat) (atStart : Bool) : Reading (Option Pattern) := do
  if !(← accept '?') then return some (← capturing body start none)
  else
    match ← next with
    | none => refuse .unexpectedEnd
    | some (.plain 'P') => return some (← namedForm body start)
    | some (.plain ':') => return some (.wrap (← grouped (← get).flags))
    | some (.plain '#') =>
      skipComment start ((← get).rest.length + 1)
      return none
    | some (.plain '=') => return some (← lookaround body start false false)
    | some (.plain '!') => return some (← lookaround body start false true)
    | some (.plain '<') =>
      match ← next with
      | none => refuse .unexpectedEnd
      | some (.plain '=') => return some (← lookaround body start true false)
      | some (.plain '!') => return some (← lookaround body start true true)
      | some t => refuse (.unknownExtension (String.ofList ('?' :: '<' :: t.text))) (t.size + 2)
    | some (.plain '(') => return some (← conditional branch start)
    | some (.plain '>') => return some (.atomic (← grouped (← get).flags))
    | some t =>
      match t with
      | .plain '-' => inline [] (← flagsEnd [] '-')
      | .plain c =>
        if isFlag c then
          let (on, inl) ← flagsOn [] c ((← get).rest.length + 1)
          inline on inl
        else refuse (.unknownExtension (String.ofList ('?' :: t.text))) (t.size + 1)
      | .escaped _ => refuse (.unknownExtension (String.ofList ('?' :: t.text))) (t.size + 1)
where
  grouped (flags : Flags) : Reading Pattern := do
    let p ← under flags body
    close start
    return p
  inline (on : List Char) (inl : Option Inline) : Reading (Option Pattern) := do
    match inl with
    | some inl => return some (.wrap (← grouped (inl.apply (← get).flags)))
    | none =>
      setGlobal on
      if atStart then return none
      else throw (.flaw .lateFlags (some start))

def isVerboseSpace (c : Char) : Bool := Number.isBlank c

mutual

def branches (nested : Bool) (done : List Pattern) : Nat → Reading Pattern
  | 0 => throw (.misuse .tooDeep)
  | fuel + 1 => do
    let p ← items (!nested && done.isEmpty) [] fuel
    if ← accept '|' then branches nested (p :: done) fuel
    else return Pattern.ofBranches (p :: done).reverse

def items (first : Bool) (done : List Pattern) : Nat → Reading Pattern
  | 0 => throw (.misuse .tooDeep)
  | fuel + 1 => do
    let start := (← get).position
    let flags := (← get).flags
    match ← peek with
    | none | some (.plain '|') | some (.plain ')') => return Pattern.ofList done.reverse
    | some (.escaped c) =>
      let _ ← next
      items first ((← escape c) :: done) fuel
    | some (.plain c) =>
      let _ ← next
      if flags.verbose && isVerboseSpace c then items first done fuel
      else if flags.verbose && c = '#' then
        skipLine ((← get).rest.length + 1)
        items first done fuel
      else if c = '[' then items first ((← set) :: done) fuel
      else if c = '.' then items first (.char (.any flags.dotAll) :: done) fuel
      else if c = '^' then
        items first (.anchor (if flags.multiline then .lineStart else .textStart) :: done) fuel
      else if c = '$' then
        items first (.anchor (if flags.multiline then .lineEnd else .lastLineEnd) :: done) fuel
      else if c = '(' then
        match ← group (branches true [] fuel) (items false [] fuel) start
            (first && done.isEmpty) with
        | some p => items first (p :: done) fuel
        | none => items first done fuel
      else if c = '*' ∨ c = '+' ∨ c = '?' ∨ c = '\x7b' then
        match ← counts c with
        | none => items first ((← literal c.toNat) :: done) fuel
        | some (low, high) => items first (← repeated start low high done) fuel
      else items first ((← literal c.toNat) :: done) fuel

end

def repetitionKind? : Pattern → Option String
  | .seq p q | .alt p q | .conditional _ p q => (repetitionKind? p).or (repetitionKind? q)
  | .capture _ p | .wrap p | .atomic p | .ahead _ p | .behind _ _ p => repetitionKind? p
  | .repetition _ _ .greedy _ => some "MAX_REPEAT"
  | .repetition _ _ .lazy _ => some "MIN_REPEAT"
  | .repetition _ _ .possessive _ => some "POSSESSIVE_REPEAT"
  | _ => none

def whole (fuel : Nat) : Reading Pattern := do
  let p ← branches false [] fuel
  let s ← get
  if s.flags.ascii && s.unicode then throw (.misuse .badValue)
  else if (← peek).isSome then refuse .unbalanced
  else
    match s.conditions.find? (fun (g, _) => s.groups ≤ g) with
    | some (g, place) => throw (.flaw (.noSuchGroup g) (some place))
    | none =>
      match s.badLookbehind, if s.template then repetitionKind? p else none with
      | some f, _ => throw (.flaw f none)
      | none, some kind => throw (.flaw (.templateRepeat kind) none)
      | none, none => return p

end Reader

def read (known : CharacterNames) (pattern : List Char) (flags : Flags) : Except Refusal Program := do
  let start : Reader.State := { rest := pattern, position := 0, flags, characters := known }
  Reader.checkEnd start
  let (p, s) ← (Reader.whole (3 * pattern.length + 8)).run start
  return ⟨p, s.groups - 1, s.names⟩

end BaseLib.Regex
