import BaseLib.Regex.Syntax

namespace BaseLib.Regex

abbrev Marks := List (Option Nat × Option Nat)

namespace Marks

def fresh (groups : Nat) : Marks := List.replicate groups (none, none)

def setStart (m : Marks) (g pos : Nat) : Marks := m.modify (g - 1) fun x => (some pos, x.2)

def setEnd (m : Marks) (g pos : Nat) : Marks := m.modify (g - 1) fun x => (x.1, some pos)

def span? (m : Marks) (g : Nat) : Option (Nat × Nat) :=
  match m[g - 1]? with
  | some (some a, some b) => if a ≤ b then some (a, b) else none
  | _ => none

end Marks

structure Reached where
  stop : Nat
  marks : Marks
  deriving DecidableEq, Repr, Inhabited

abbrev Continuation := Nat → Marks → Option Reached

/-- An attempt at a place: the result of the first way to match that the continuation accepts. -/
abbrev Attempt := Nat → Marks → Continuation → Option Reached

section

variable (text : Array Char)

def isWordAt (ascii : Bool) (i : Nat) : Bool :=
  match text[i]? with
  | some c => Category.word.mem ascii c.toNat
  | none => false

def Anchor.holds (pos : Nat) : Anchor → Bool
  | .textStart => pos == 0
  | .lineStart => pos == 0 || text[pos - 1]? == some '\n'
  | .textEnd => pos == text.size
  | .lineEnd => pos == text.size || text[pos]? == some '\n'
  | .lastLineEnd => pos == text.size || (pos + 1 == text.size && text[pos]? == some '\n')
  | .boundary ascii negated =>
    text.size != 0 &&
      ((0 < pos && isWordAt text ascii (pos - 1)) != isWordAt text ascii pos) != negated

/-- The end of an occurrence of `part` at a place, characters told apart by `f`. -/
def sameText (f : Folding) : List Char → Nat → Option Nat
  | [], pos => some pos
  | c :: rest, pos =>
    match text[pos]? with
    | some d => if f.fold c.toNat = f.fold d.toNat then sameText f rest (pos + 1) else none
    | none => none

def slice (start stop : Nat) : List Char := (text.extract start stop).toList

/-- Greedy rounds: one more if it leads to success, else on with the continuation. `last` is where the
last round that was not required began. -/
def greedyRounds (body : Attempt) (low : Nat) (high : Option Nat) :
    Nat → Nat → Option Nat → Attempt
  | 0, _, _, _, _, _ => none
  | fuel + 1, count, last, pos, marks, k =>
    if count < low then
      body pos marks fun pos' marks' => greedyRounds body low high fuel (count + 1) last pos' marks' k
    else
      let more :=
        if high.all (count < ·) && last != some pos then
          body pos marks fun pos' marks' =>
            greedyRounds body low high fuel (count + 1) (some pos) pos' marks' k
        else none
      more.or (k pos marks)

/-- Lazy rounds: on with the continuation if that leads to success, else one more. -/
def lazyRounds (body : Attempt) (low : Nat) (high : Option Nat) :
    Nat → Nat → Option Nat → Attempt
  | 0, _, _, _, _, _ => none
  | fuel + 1, count, last, pos, marks, k =>
    if count < low then
      body pos marks fun pos' marks' => lazyRounds body low high fuel (count + 1) last pos' marks' k
    else
      (k pos marks).or
        (if high.all (count < ·) && last != some pos then
          body pos marks fun pos' marks' =>
            lazyRounds body low high fuel (count + 1) (some pos) pos' marks' k
        else none)

/-- Possessive rounds: each is settled for good, and there are as many as can be had. -/
def possessiveRounds (body : Attempt) (low : Nat) (high : Option Nat) :
    Nat → Nat → Option Nat → Nat → Marks → Option Reached
  | 0, _, _, _, _ => none
  | fuel + 1, count, last, pos, marks =>
    if count < low then
      match body pos marks fun p m => some ⟨p, m⟩ with
      | some r => possessiveRounds body low high fuel (count + 1) last r.stop r.marks
      | none => none
    else if high.all (count < ·) && last != some pos then
      match body pos marks fun p m => some ⟨p, m⟩ with
      | some r => possessiveRounds body low high fuel (count + 1) (some pos) r.stop r.marks
      | none => some ⟨pos, marks⟩
    else some ⟨pos, marks⟩

def roundLimit (low : Nat) : Nat := low + text.size + 3

/-- A pattern is tried at a place with a continuation for what has to match after it; the first way that lets
the continuation succeed wins. A repetition that need not go on does so only if it has moved since it last began
a round, so rounds that match nothing end it. -/
def Pattern.run : Pattern → Attempt
  | empty, pos, marks, k => k pos marks
  | char test, pos, marks, k =>
    match text[pos]? with
    | some c => if test.holds c then k (pos + 1) marks else none
    | none => none
  | anchor a, pos, marks, k => if a.holds text pos then k pos marks else none
  | seq p q, pos, marks, k => p.run pos marks fun pos' marks' => q.run pos' marks' k
  | alt p q, pos, marks, k => (p.run pos marks k).or (q.run pos marks k)
  | capture g p, pos, marks, k =>
    p.run pos (marks.setStart g pos) fun pos' marks' => k pos' (marks'.setEnd g pos')
  | wrap p, pos, marks, k => p.run pos marks k
  | atomic p, pos, marks, k =>
    match p.run pos marks fun pos' marks' => some ⟨pos', marks'⟩ with
    | some r => k r.stop r.marks
    | none => none
  | backref g f, pos, marks, k =>
    match marks.span? g with
    | some (a, b) =>
      match sameText text f (slice text a b) pos with
      | some pos' => k pos' marks
      | none => none
    | none => none
  | conditional g p q, pos, marks, k =>
    match marks.span? g with
    | some _ => p.run pos marks k
    | none => q.run pos marks k
  | ahead negated p, pos, marks, k =>
    match p.run pos marks (fun pos' marks' => some ⟨pos', marks'⟩), negated with
    | some r, false => k pos r.marks
    | none, true => k pos marks
    | _, _ => none
  | behind negated width p, pos, marks, k =>
    let found := if width ≤ pos then p.run (pos - width) marks fun pos' marks' => some ⟨pos', marks'⟩
      else none
    match found, negated with
    | some r, false => k pos r.marks
    | none, true => k pos marks
    | _, _ => none
  | repetition low high .greedy p, pos, marks, k =>
    greedyRounds p.run low high (roundLimit text low) 0 none pos marks k
  | repetition low high .lazy p, pos, marks, k =>
    lazyRounds p.run low high (roundLimit text low) 0 none pos marks k
  | repetition low high .possessive p, pos, marks, k =>
    match possessiveRounds p.run low high (roundLimit text low) 0 none pos marks with
    | some r => k r.stop r.marks
    | none => none

end

structure Found where
  start : Nat
  stop : Nat
  marks : Marks
  deriving DecidableEq, Repr, Inhabited

def Program.matchAt (p : Program) (text : Array Char) (start : Nat) (advance : Bool) :
    Option Found :=
  (p.body.run text start (Marks.fresh p.groups) fun stop marks =>
    if advance && stop == start then none else some ⟨stop, marks⟩).map fun r =>
      ⟨start, r.stop, r.marks⟩

/-- The first match that starts at or after a place; with `advance` not an empty one at that very
place. -/
def Program.searchFrom (p : Program) (text : Array Char) (advance : Bool) : Nat → Nat → Option Found
  | 0, start => p.matchAt text start advance
  | more + 1, start =>
    (p.matchAt text start advance).or (p.searchFrom text false more (start + 1))

def Program.search (p : Program) (text : Array Char) (start : Nat) (advance : Bool) :
    Option Found :=
  if start ≤ text.size then p.searchFrom text advance (text.size - start) start else none

/-- All matches from a place on, each beginning where the one before it ended, and none empty right
after an empty one. -/
def Program.scanFrom (p : Program) (text : Array Char) : Nat → Nat → Bool → List Found
  | 0, _, _ => []
  | fuel + 1, start, advance =>
    match p.search text start advance with
    | none => []
    | some m => m :: p.scanFrom text fuel m.stop (m.stop == m.start)

def Program.scan (p : Program) (text : Array Char) (start : Nat) : List Found :=
  p.scanFrom text (2 * (text.size - start) + 2) start false

end BaseLib.Regex
