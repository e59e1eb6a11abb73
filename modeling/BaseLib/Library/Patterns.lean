import BaseLib.Library.Collections

namespace BaseLib.Library.Patterns

def newGroups : List Regex.Group → Action (List Value)
  | [] => pure []
  | g :: gs => do
    let v ← alloc (.group g)
    pure (v :: (← newGroups gs))

def newMatch (m : Regex.Match) : Action Value := do
  let members ← allocArray (← newGroups m.groups)
  match ← alloc (.groups members m.regex.groupNames) with
  | .ref groups => alloc (.match_ m groups)
  | _ => misuse .wrongType

def newMatches : List Regex.Match → Action (List Value)
  | [] => pure []
  | m :: ms => do
    let v ← newMatch m
    pure (v :: (← newMatches ms))

def expanded (m : Regex.Match) (replacement : List Char) : Action (List Char) :=
  ofExcept ((Regex.Site.ofMatch m m.text).expand replacement)

def matchMembers (self : Value) (m : Regex.Match) : Members :=
  [("NextMatch", .nullary (if m.found.isSome then newMatch m.next else pure self)),
    ("Result", .unary fun replacement => do
      pure (.text (← expanded m (← needText replacement))))]

def groupProperty? (g : Regex.Group) (name : String) : Option Value :=
  match name with
  | "Value" => some (.text g.value)
  | "Index" => some (.int g.index)
  | "Length" => some (.int g.length)
  | "Success" => some (.bool g.success)
  | "Name" => some (.text g.name)
  | _ => none

def groupsMembers (members : Nat) (names : List (List Char)) : Members :=
  [("get_Item", .unary (groupItem members names)),
    ("ContainsKey", .unary fun key => do
      match key with
      | .text name => yes (names.contains name)
      | key => do
        let size : Value := .int ((← get).items members).length
        if ← orderOf .le (.int 0) key then yes (← orderOf .lt key size) else yes false)]

def newGroup (args : List Value) : Action Value := do
  match args with
  | [.text value, .int index, .int length, .bool success, .text name] =>
    alloc (.group ⟨value, index.toNat, length.toNat, success, name⟩)
  | _ => misuse .wrongType

/-- The options that a value stands for; a negative number has every flag above its last zero. -/
def optionsOf (v : Value) : Action RegexOptions := do
  pure ⟨((← needInt v) % 1024).toNat⟩

def newRegex (pattern options : Value) : Action Value := do
  notNull pattern "pattern"
  let o ← optionsOf options
  if o.rightToLeft then fail .rightToLeft
  alloc (.regex (← ofExcept (Regex.ofPattern (← get).characters (← needText pattern) o)) options)

def checkedInput (text start : Value) : Action (List Char × Nat) := do
  notNull text "input"
  let t ← needText text
  let start ← needInt start
  if start < 0 ∨ t.length < start then fail .startOutside
  pure (t, start.toNat)

def substitute (replacement : Value) (m : Regex.Match) : Action Value := do
  let v ← newMatch m
  match (← get).object? replacement with
  | some (.function _) | some (.multicast _) => apply replacement [v]
  | _ => do pure (.text (← expanded m (← needText replacement)))

def replacedPieces (r : Regex) (text : List Char) (replacement : Value) :
    Nat → List Regex.Found → Action (List Value)
  | last, [] => pure [.text (text.drop last)]
  | last, f :: fs => do
    let v ← substitute replacement ⟨r, text, some f⟩
    let rest ← replacedPieces r text replacement f.stop fs
    pure (.text ((text.drop last).take (f.start - last)) :: v :: rest)

def limited (count : Value) (found : List Regex.Found) : Action (List Regex.Found) := do
  if found.isEmpty then pure []
  else do
    let n ← needInt count
    pure (if n < 0 then found else found.take n.toNat)

def replace (r : Regex) (text replacement count start : Value) : Action Value := do
  let (t, start) ← checkedInput text start
  notNull replacement "replacement"
  if (← get).looselyEquals count (.int 0) then pure text
  else do
    let found ← limited count (r.program.scan t.toArray start)
    let pieces ← replacedPieces r t replacement 0 found
    pure (.text (← pieces.mapM needText).flatten)

def split (r : Regex) (text count : Value) : Action Value := do
  notNull text "input"
  let n ← needInt count
  if n < 0 then fail (.outOfRange "count")
  newArray ((r.split (← needText text) n.toNat).map .text)

def regexMembers (r : Regex) : Members :=
  [("Match", .binary (fun text start => do
      let (t, start) ← checkedInput text start
      newMatch (r.matchFrom t start)) [.int 0]),
    ("Matches", .binary (fun text start => do
      let (t, start) ← checkedInput text start
      newListOf .list (← newMatches (r.matches_ t start))) [.int 0]),
    ("IsMatch", .binary (fun text start => do
      let (t, start) ← checkedInput text start
      yes (r.matchFrom t start).found.isSome) [.int 0]),
    ("Replace", .quaternary (replace r) [.int (-1), .int 0]),
    ("Split", .binary (split r) [.int 0]),
    ("GetGroupNames", .nullary (newArray (r.groupNames.map .text))),
    ("GetGroupNumbers", .nullary do
      newArray ((List.range r.groupNames.length).map fun (i : Nat) => .int i))]

def statics : Members :=
  [("Regex.Escape", .unary fun text => do
      notNull text "str"
      pure (.text (Regex.escape (← needText text)))),
    ("translate_pattern", .binary (fun pattern explicit => do
      let p ← needText pattern
      pure (.text (Regex.Spelling.normalize p ((← get).truthy explicit)))) [.bool false])]

end BaseLib.Library.Patterns
