import BaseLib.Library.Catalogue
import BaseLib.Proofs.Regex.Spells
import BaseLib.Proofs.Session.Exec
import BaseLib.Proofs.Text.Classes
import Mathlib.Data.List.Chain

namespace BaseLib.Regex.Spelling

open Library Session

inductive Marks
  | angles
  | quotes

def Marks.around : Marks → List Char → List Char
  | angles, name => '<' :: name ++ ['>']
  | quotes, name => '\'' :: name ++ ['\'']

abbrev Name := { name : List Char // Text.isName name = true }

/-- A member of a bracketed class: an escaped character, or one that neither escapes nor closes. -/
inductive ClassMember
  | escaped (c : Char)
  | plain (c : Char) (h : c ≠ '\\' ∧ c ≠ ']')

def ClassMember.text : ClassMember → List Char
  | escaped c => ['\\', c]
  | plain c _ => [c]

/-- A complete bracketed class. After its bracket may stand a `^`, and then a `]` that does not close it; if
neither does, the class has a member that is not taken for one of them. -/
structure Bracket where
  negated : Bool
  literal : Bool
  members : List ClassMember
  begins : literal = false → ∃ m rest, members = m :: rest ∧ (negated = false → m.text ≠ ['^'])

def Bracket.start (b : Bracket) : List Char :=
  (if b.negated then ['^'] else []) ++ if b.literal then [']'] else []

def Bracket.rest (b : Bracket) : List Char := b.members.flatMap ClassMember.text ++ [']']

inductive Token
  | escape (c : Char) (h : c ≠ 'k')
  | bracket (b : Bracket)
  | opener (name : Name)
  | reference (name : Name)
  | lookbehind (negated : Bool)
  /-- `(?` that begins neither a name nor a lookbehind. -/
  | extension
  | group
  | plain (c : Char) (h : c ∉ ['\\', '[', '('])

namespace Token

def text (m : Marks) : Token → List Char
  | escape c _ => ['\\', c]
  | bracket b => '[' :: b.start ++ b.rest
  | opener name => '(' :: '?' :: m.around name
  | reference name => '\\' :: 'k' :: m.around name
  | lookbehind negated => ['(', '?', '<', if negated then '!' else '=']
  | extension => ['(', '?']
  | group => ['(']
  | plain c _ => [c]

def translated : Token → List Char
  | opener name => "(?P<".toList ++ name ++ ['>']
  | reference name => "(?P=".toList ++ name ++ [')']
  | t => t.text .angles

def first : Token → Char
  | escape _ _ | reference _ => '\\'
  | bracket _ => '['
  | plain c _ => c
  | _ => '('

/-- The character may follow the token: the two are not read as another token. -/
def Admits : Token → Char → Prop
  | group, c => c ≠ '?'
  | extension, c => c ≠ '<' ∧ c ≠ '\''
  | _, _ => True

end Token

/-- No token is read together with the next one. -/
def Apart (ts : List Token) : Prop := ts.IsChain fun t u => t.Admits u.first

def written (ts : List (Token × Marks)) : List Char := ts.flatMap fun t => t.1.text t.2

def translated (ts : List Token) : List Char := ts.flatMap Token.translated

variable {b : Bool} {c : Char} {p s t u name : List Char}

theorem spells_plain (hp : ∀ c ∈ p, c ∉ ['\\', '[', '(']) (h : Spells false s t) :
    Spells false (p ++ s) (p ++ t) := by
  induction p with
  | nil => exact h
  | cons c p ih =>
      obtain ⟨hc, hp⟩ := List.forall_mem_cons.mp hp
      simp only [List.mem_cons, List.not_mem_nil, or_false, not_or] at hc
      exact .plain (fun hback => absurd hback hc.1) hc.2.1 hc.2.2 (ih hp)

theorem not_mem_name (hname : Text.isName name = true) (hc : c ∈ ['\\', '[', '(', '>', '\'', '=', '!']) :
    c ∉ name := by
  have hnone : ['\\', '[', '(', '>', '\'', '=', '!'].all
      (fun c => !(Text.canStartName c.toNat || Text.canContinueName c.toNat)) = true := by decide
  have hc := List.all_eq_true.mp hnone c hc
  intro hmem
  rw [Text.starts_or_continues hname hmem] at hc
  cases hc

theorem spells_name (hname : Text.isName name = true) (h : Spells false s t) :
    Spells false (name ++ '>' :: s) (name ++ '>' :: t) := by
  refine spells_plain (fun c hc hspecial => ?_) ?_
  · apply not_mem_name hname _ hc
    exact List.mem_append_left ['>', '\'', '=', '!'] hspecial
  · exact .plain (by simp) (by simp) (by simp) h

theorem reference_name (hname : Text.isName name = true) : reference name = "(?P=".toList ++ name ++ [')'] := by
  rw [reference, Text.not_allDigits_of_isName hname, if_neg Bool.false_ne_true]

theorem delimited_around (hname : Text.isName name = true) (m : Marks) :
    delimited (m.around name ++ s) = some (name, s) := by
  cases m with
  | angles =>
      rw [Marks.around, List.cons_append, List.cons_append, List.append_assoc]
      exact upTo_append (not_mem_name hname (by simp))
  | quotes =>
      rw [Marks.around, List.cons_append, List.cons_append, List.append_assoc]
      exact upTo_append (not_mem_name hname (by simp))

theorem spells_opener (hname : Text.isName name = true) (m : Marks) (h : Spells false s t) :
    Spells false ('(' :: '?' :: m.around name ++ s) ("(?P<".toList ++ name ++ ['>'] ++ t) := by
  cases m with
  | angles =>
      obtain ⟨c, rest, rfl⟩ := List.exists_cons_of_ne_nil (l := name) (by rintro rfl; cases hname)
      have hc : c ≠ '=' ∧ c ≠ '!' := by
        constructor
        · rintro rfl
          exact not_mem_name hname (by simp) List.mem_cons_self
        · rintro rfl
          exact not_mem_name hname (by simp) List.mem_cons_self
      have hangle := Spells.angle hc (spells_name hname h)
      simpa [Marks.around] using hangle
  | quotes =>
      have hquote := Spells.quote (upTo_append (not_mem_name hname (by simp))) h
      simpa [Marks.around] using hquote

theorem classStart_bracket (k : Bracket) : classStart (k.start ++ k.rest ++ s) = (k.start, k.rest ++ s) := by
  rcases k with ⟨negated, literal, members, hbegins⟩
  cases literal with
  | true => cases negated <;> rfl
  | false =>
      obtain ⟨m, rest, rfl, hm⟩ := hbegins rfl
      cases m with
      | escaped d => cases negated <;> rfl
      | plain d hd =>
          cases negated with
          | true => simp [classStart, Bracket.start, Bracket.rest, ClassMember.text, hd.2]
          | false =>
              have hcaret : d ≠ '^' := fun h => hm rfl (congrArg (fun d => [d]) h)
              simp [classStart, Bracket.start, Bracket.rest, ClassMember.text, hd.2, hcaret]

theorem spells_members (members : List ClassMember) (h : Spells false s t) :
    Spells true (members.flatMap ClassMember.text ++ ']' :: s) (members.flatMap ClassMember.text ++ ']' :: t) := by
  induction members with
  | nil => exact .member (c := ']') (by simp) h
  | cons m members ih =>
      cases m with
      | escaped d => exact .escape (by simp) ih
      | plain d hd =>
          have hmember := Spells.member (c := d) (s := members.flatMap ClassMember.text ++ ']' :: s)
            (t := members.flatMap ClassMember.text ++ ']' :: t) (fun hback => absurd hback hd.1)
          rw [bne_iff_ne.mpr hd.2] at hmember
          exact hmember ih

theorem spells_bracket (k : Bracket) (h : Spells false s t) :
    Spells false ('[' :: k.start ++ k.rest ++ s) ('[' :: k.start ++ k.rest ++ t) := by
  have hmembers := spells_members k.members h
  have hbracket := Spells.bracket (classStart_bracket k) (by simpa [Bracket.rest] using hmembers)
  simpa [Bracket.rest] using hbracket

theorem spells_token (k : Token) (m : Marks) (hnext : ∀ c ∈ s.head?, k.Admits c) (h : Spells false s t) :
    Spells false (k.text m ++ s) (k.translated ++ t) := by
  cases k with
  | escape c hc => exact .escape (fun _ hk => absurd hk hc) h
  | bracket k => exact spells_bracket k h
  | opener name => exact spells_opener name.2 m h
  | reference name =>
      have href := Spells.reference (delimited_around name.2 m) h
      rw [reference_name name.2] at href
      exact href
  | lookbehind negated =>
      refine .paren ?_ ?_ (spells_plain (p := ['?', '<', if negated then '!' else '=']) ?_ h)
      · rintro c r ⟨⟩
        cases negated <;> simp
      · rintro r ⟨⟩
      · cases negated <;> simp
  | extension =>
      refine .paren ?_ ?_ (spells_plain (p := ['?']) (by simp) h)
      · rintro c r ⟨⟩
        exact absurd rfl (hnext '<' rfl).1
      · rintro r ⟨⟩
        exact absurd rfl (hnext '\'' rfl).2
  | group =>
      refine .paren ?_ ?_ h
      · rintro c r rfl
        exact absurd rfl (hnext '?' rfl)
      · rintro r rfl
        exact absurd rfl (hnext '?' rfl)
  | plain c hc => exact spells_plain (p := [c]) (by simpa using hc) h

theorem head?_written (k : Token) (m : Marks) (ts : List (Token × Marks)) :
    (written ((k, m) :: ts)).head? = some k.first := by
  cases k <;> rfl

theorem spells_written (ts : List (Token × Marks)) (h : Apart (ts.map Prod.fst)) :
    Spells false (written ts) (translated (ts.map Prod.fst)) := by
  induction ts with
  | nil => exact .nil
  | cons k ts ih =>
      obtain ⟨k, m⟩ := k
      have hnext : ∀ c ∈ (written ts).head?, k.Admits c := by
        cases ts with
        | nil => simp [written]
        | cons k' ts =>
            rw [head?_written k'.1 k'.2 ts]
            rintro c ⟨⟩
            exact (List.isChain_cons_cons.mp h).1
      exact spells_token k m hnext (ih h.tail)

/-- Nothing in the pattern looks as if it marked off a name. -/
structure Nameless (p : List Char) : Prop where
  angle : ¬ "(?<".toList <:+: p
  quote : ¬ "(?'".toList <:+: p
  reference : ¬ "\\k".toList <:+: p

theorem Nameless.suffix (h : Nameless p) (hs : s <:+ p) : Nameless s :=
  ⟨fun hi => h.angle (hi.trans hs.isInfix), fun hi => h.quote (hi.trans hs.isInfix),
    fun hi => h.reference (hi.trans hs.isInfix)⟩

theorem Spells.of_nameless (h : Spells b s t) (hs : Nameless s) : t = s := by
  induction h with
  | nil => rfl
  | @reference s name after t hname h ih => exact absurd ⟨[], s, rfl⟩ hs.reference
  | @escape b c s t hc h ih => rw [ih (hs.suffix ⟨['\\', c], rfl⟩)]
  | @member c s t hc h ih => rw [ih (hs.suffix ⟨[c], rfl⟩)]
  | @bracket s start after t hstart h ih =>
      obtain ⟨start', after', hstart', rfl, -⟩ := classStart_cases s
      cases hstart.symm.trans hstart'
      rw [ih (hs.suffix ⟨'[' :: start, rfl⟩), List.cons_append]
  | @angle c s t hc h ih => exact absurd ⟨[], c :: s, rfl⟩ hs.angle
  | @quote s name after t hname h ih => exact absurd ⟨[], s, rfl⟩ hs.quote
  | @paren s t hangle hquote h ih => rw [ih (hs.suffix ⟨['('], rfl⟩)]
  | @plain c s t hc hbracket hparen h ih => rw [ih (hs.suffix ⟨[c], rfl⟩)]

theorem exec_translate (h : Spells false p t) (s : Session) :
    s.exec (Catalogue.call "translate_pattern" [.text p]) = (.ok (.text t), s) := by
  have hp : normalize p false = t := h.go (Nat.lt_succ_self _)
  rw [← hp]
  rfl

/-- Patterns are translated token by token. A sequence of tokens, each name of it between whichever marks,
comes to one spelling, in which only the names are marked off anew; and a pattern in which nothing looks
like a mark of a name is returned as it is. -/
theorem translates_tokens (s : Session) :
    (∀ ts : List (Token × Marks), Apart (ts.map Prod.fst) →
      s.exec (Catalogue.call "translate_pattern" [.text (written ts)]) =
        (.ok (.text (translated (ts.map Prod.fst))), s)) ∧
    ∀ p : List Char, Nameless p → s.exec (Catalogue.call "translate_pattern" [.text p]) = (.ok (.text p), s) := by
  constructor
  · intro ts h
    exact exec_translate (spells_written ts h) s
  · intro p h
    have hp : Spells false p (go false (p.length + 1) false p) := spells_go (Nat.lt_succ_self _)
    have hself := hp.of_nameless h
    rw [hself] at hp
    exact exec_translate hp s

/-- A name in quotes, a class that begins with a literal bracket and has an escaped `k` in it, a reference and
a lookbehind. -/
def quoted : List (Token × Marks) :=
  let name : Name := ⟨['n'], by decide⟩
  let start : Bracket := ⟨true, true, [.escaped 'k', .plain '(' (by decide)], by simp⟩
  [(.opener name, .quotes), (.bracket start, .angles), (.plain ')' (by decide), .angles),
    (.reference name, .quotes), (.lookbehind true, .angles), (.plain 'x' (by decide), .angles),
    (.plain ')' (by decide), .angles)]

theorem translates_tokens_quoted :
    Apart (quoted.map Prod.fst) ∧ written quoted = "(?'n'[^]\\k(])\\k'n'(?<!x)".toList ∧
      (Session.start 0).exec (Catalogue.call "translate_pattern" [.text (written quoted)]) =
        (.ok (.text "(?P<n>[^]\\k(])(?P=n)(?<!x)".toList), Session.start 0) ∧
      Nameless "(?:a|\\d)[k]".toList ∧
      (Session.start 0).exec (Catalogue.call "translate_pattern" [.text "(?:a|\\d)[k]".toList]) =
        (.ok (.text "(?:a|\\d)[k]".toList), Session.start 0) := by
  have hapart : Apart (quoted.map Prod.fst) := by simp [Apart, quoted, Token.Admits]
  have hnameless : Nameless "(?:a|\\d)[k]".toList := by constructor <;> simp [List.infix_cons_iff]
  obtain ⟨htokens, hplain⟩ := translates_tokens (Session.start 0)
  exact ⟨hapart, rfl, htokens quoted hapart, hnameless, hplain _ hnameless⟩

end BaseLib.Regex.Spelling
