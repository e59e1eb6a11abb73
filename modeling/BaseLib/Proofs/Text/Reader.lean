import BaseLib.Library.Types
import BaseLib.Proofs.Session.Runs

namespace BaseLib.Reader

open Library Session

inductive Op
  | read
  | peek
  | readLine
  | readToEnd

def Op.run (reader : Nat) : Op → Action Value
  | read => Methods.call (.ref reader) "Read" []
  | peek => Methods.call (.ref reader) "Peek" []
  | readLine => Methods.call (.ref reader) "ReadLine" []
  | readToEnd => Methods.call (.ref reader) "ReadToEnd" []

/-- Calls on a reader; in between, anything may happen that does not touch it. -/
def protocol (reader : Nat) : Protocol Op where
  run := Op.run reader
  allowed _ _ := True
  quiet s t := t.store[reader]? = s.store[reader]?

/-- A piece of a text and the line that is made of it: a carriage return at the end is left out. -/
inductive Bared : List Char → List Char → Prop
  | returned (line : List Char) : Bared (line ++ ['\r']) line
  | plain {line : List Char} (h : line.getLast? ≠ some '\r') : Bared line line

def codeOf : List Char → Value
  | [] => .int (-1)
  | c :: _ => .int c.toNat

/-- What a call answers on the text that is left, the part of it that the call takes, and the rest. -/
inductive Takes : List Char → Op → Value → List Char → List Char → Prop
  | peek (left : List Char) : Takes left .peek (codeOf left) [] left
  | read (c : Char) (left : List Char) : Takes (c :: left) .read (codeOf (c :: left)) [c] left
  | readNothing : Takes [] .read (codeOf []) [] []
  | line {piece line : List Char} (hpiece : '\n' ∉ piece) (hline : Bared piece line) (left : List Char) :
      Takes (piece ++ '\n' :: left) .readLine (.text line) (piece ++ ['\n']) left
  | lastLine {piece line : List Char} (hpiece : '\n' ∉ piece) (hline : Bared piece line) (hne : piece ≠ []) :
      Takes piece .readLine (.text line) piece []
  | noLine : Takes [] .readLine .null [] []
  | toEnd (left : List Char) : Takes left .readToEnd (.text left) left []

/-- Calls, the part of the text that each of them takes, and what is left in the end. -/
inductive Account : List Char → List (Invocation Op) → List (List Char) → List Char → Prop
  | nil (left : List Char) : Account left [] [] left
  | cons {left left' rest part : List Char} {v : Value} {e : Invocation Op} {calls : List (Invocation Op)}
      {parts : List (List Char)} (he : e.outcome = .ok v) (h : Takes left e.op v part left')
      (hrest : Account left' calls parts rest) : Account left (e :: calls) (part :: parts) rest

/-- What a call answers when nothing is left. -/
def Op.atEnd : Op → Value
  | read | peek => .int (-1)
  | readLine => .null
  | readToEnd => .text []

/-- The pieces of a text between its line feeds, without an empty one at the end. -/
def pieces (text : List Char) : List (List Char) :=
  let all := text.splitOn '\n'
  if all.getLast? = some [] then all.dropLast else all

def Holds (reader : Nat) (s : Session) (left : List Char) : Prop := s.store[reader]? = some (.reader ⟨left⟩)

variable {s t : Session} {b : Nat} {text left left' part piece line rest : List Char} {v : Value} {op : Op}
  {e : Invocation Op} {calls : List (Invocation Op)} {parts : List (List Char)}

theorem bared_dropReturn (piece : List Char) : Bared piece (Text.Lines.dropReturn piece) := by
  rw [Text.Lines.dropReturn]
  split
  · rename_i h
    have hpiece := List.dropLast_append_getLast? '\r' h
    nth_rewrite 1 [← hpiece]
    exact .returned piece.dropLast
  · rename_i h
    exact .plain h

theorem Bared.eq_dropReturn (h : Bared piece line) : line = Text.Lines.dropReturn piece := by
  cases h with
  | returned => simp [Text.Lines.dropReturn]
  | plain h => rw [Text.Lines.dropReturn, if_neg h]

theorem exec_read (h : Holds b s left) :
    s.exec (Op.read.run b) = (.ok (codeOf left), s.put b (.reader ⟨left.drop 1⟩)) := by
  cases left <;> exact (exec_call h rfl _).trans rfl

theorem exec_peek (h : Holds b s left) : s.exec (Op.peek.run b) = (.ok (codeOf left), s) := by
  cases left <;> exact (exec_call h rfl _).trans rfl

theorem exec_readLine_nil (h : Holds b s []) :
    s.exec (Op.readLine.run b) = (.ok .null, s.put b (.reader ⟨[]⟩)) :=
  (exec_call h rfl _).trans rfl

theorem exec_readLine_cons {c : Char} (h : Holds b s (c :: left)) :
    s.exec (Op.readLine.run b) = (.ok (.text (Text.Lines.dropReturn ((c :: left).takeWhile (· != '\n')))),
      s.put b (.reader ⟨((c :: left).dropWhile (· != '\n')).drop 1⟩)) :=
  (exec_call h rfl _).trans rfl

theorem exec_readToEnd (h : Holds b s left) :
    s.exec (Op.readToEnd.run b) = (.ok (.text left), s.put b (.reader ⟨[]⟩)) :=
  (exec_call h rfl _).trans rfl

/-- A text that is not empty begins with a line, which reaches to the first line feed or to the end. -/
theorem exists_line (hne : left ≠ []) : ∃ part,
    Takes left .readLine (.text (Text.Lines.dropReturn (left.takeWhile (· != '\n')))) part
      ((left.dropWhile (· != '\n')).drop 1) := by
  have hsplit := List.takeWhile_append_dropWhile (p := (· != '\n')) (l := left)
  have hpiece : '\n' ∉ left.takeWhile (· != '\n') := fun h => by
    simpa using List.all_eq_true.mp List.all_takeWhile _ h
  have hline := bared_dropReturn (left.takeWhile (· != '\n'))
  cases hdrop : left.dropWhile (· != '\n') with
  | nil =>
      rw [hdrop, List.append_nil] at hsplit
      refine ⟨left, ?_⟩
      rw [hsplit] at hpiece hline ⊢
      exact .lastLine hpiece hline hne
  | cons c rest =>
      obtain rfl : c = '\n' := by
        have hhead := List.head?_dropWhile_not (· != '\n') left
        simpa [hdrop] using hhead
      rw [hdrop] at hsplit
      refine ⟨left.takeWhile (· != '\n') ++ ['\n'], ?_⟩
      have htakes := Takes.line hpiece hline rest
      rwa [hsplit] at htakes

theorem takes (h : Holds b s left) (op : Op) : ∃ v part left' t,
    s.exec (op.run b) = (.ok v, t) ∧ Takes left op v part left' ∧ Holds b t left' := by
  cases op with
  | peek => exact ⟨_, _, _, s, exec_peek h, .peek left, h⟩
  | readToEnd => exact ⟨_, _, _, _, exec_readToEnd h, .toEnd left, store_put h _⟩
  | read =>
      cases left with
      | nil => exact ⟨_, _, _, _, exec_read h, .readNothing, store_put h _⟩
      | cons c left => exact ⟨_, _, _, _, exec_read h, .read c left, store_put h _⟩
  | readLine =>
      cases left with
      | nil => exact ⟨_, _, _, _, exec_readLine_nil h, .noLine, store_put h _⟩
      | cons c left =>
          obtain ⟨part, htakes⟩ := exists_line (List.cons_ne_nil c left)
          exact ⟨_, part, _, _, exec_readLine_cons h, htakes, store_put h _⟩

theorem Takes.text_eq (h : Takes left op v part left') : left = part ++ left' := by
  cases h <;> simp

theorem account (hr : (protocol b).Runs s calls t) (h : Holds b s left) :
    ∃ parts rest, Account left calls parts rest := by
  induction hr generalizing left with
  | nil hquiet => exact ⟨[], left, .nil left⟩
  | @cons s t e calls hquiet _ he hr ih =>
      have hbefore : Holds b e.before left := Eq.trans hquiet h
      obtain ⟨v, part, left', u, hu, htakes, hafter⟩ := takes hbefore e.op
      obtain ⟨houtcome, rfl⟩ := Prod.mk.inj (he.symm.trans hu)
      obtain ⟨parts, rest, haccount⟩ := ih hafter
      exact ⟨part :: parts, rest, .cons houtcome htakes haccount⟩

theorem Account.text_eq (h : Account left calls parts rest) : left = parts.flatten ++ rest := by
  induction h with
  | nil left => rfl
  | cons _ htakes _ ih => rw [htakes.text_eq, ih, List.flatten_cons, List.append_assoc]

theorem Account.drop {pre : List (Invocation Op)} (h : Account left (pre ++ calls) parts rest) :
    ∃ left', left = (parts.take pre.length).flatten ++ left' ∧
      Account left' calls (parts.drop pre.length) rest := by
  induction pre generalizing left parts with
  | nil => exact ⟨left, rfl, h⟩
  | cons e pre ih =>
      cases h with
      | @cons _ left' _ part v _ _ parts he htakes hrest =>
          obtain ⟨left'', hleft, hcalls⟩ := ih hrest
          refine ⟨left'', ?_, hcalls⟩
          rw [htakes.text_eq, hleft, List.length_cons, List.take_succ_cons, List.flatten_cons,
            List.append_assoc]

theorem Takes.answer_nil (h : Takes left op v part left') (hleft : left = []) : v = op.atEnd := by
  cases h with
  | line => simp at hleft
  | lastLine _ _ hne => exact absurd hleft hne
  | read => cases hleft
  | peek | toEnd => subst hleft; rfl
  | readNothing | noLine => rfl

theorem Account.atEnd {pre post : List (Invocation Op)} (h : Account text (pre ++ e :: post) parts rest)
    (hall : (parts.take pre.length).flatten = text) : e.outcome = .ok e.op.atEnd := by
  obtain ⟨left, htext, hcalls⟩ := h.drop
  rw [hall, List.self_eq_append_right] at htext
  generalize parts.drop pre.length = parts at hcalls
  cases hcalls with
  | cons he htakes _ => rw [he, htakes.answer_nil htext]

theorem Account.foretold {e' : Invocation Op} {mid post : List (Invocation Op)}
    (h : Account left (e :: (mid ++ e' :: post)) parts rest) (he : e.op = .peek)
    (hmid : ∀ x ∈ mid, x.op = .peek) (he' : e'.op = .read) : e'.outcome = e.outcome := by
  cases h with
  | @cons _ left' _ part v _ _ parts hout htakes hrest =>
      obtain ⟨rfl, rfl⟩ : v = codeOf left ∧ left' = left := by
        rw [he] at htakes
        cases htakes
        exact ⟨rfl, rfl⟩
      -- No peek in between changes what is left.
      induction mid generalizing parts with
      | nil =>
          cases hrest with
          | cons hout' htakes' _ =>
              rw [he'] at htakes'
              rw [hout', hout]
              cases htakes' <;> rfl
      | cons x mid ih =>
          cases hrest with
          | cons _ htakes' hrest =>
              rw [hmid x (by simp)] at htakes'
              cases htakes'
              exact ih (fun y hy => hmid y (by simp [hy])) hrest

theorem pieces_line (hpiece : '\n' ∉ piece) (left : List Char) :
    pieces (piece ++ '\n' :: left) = piece :: pieces left := by
  obtain ⟨p, ps, hps⟩ := List.exists_cons_of_ne_nil (List.splitOn_ne_nil '\n' left)
  rw [pieces, pieces, List.splitOn_append_cons_self_of_not_mem hpiece, hps, List.getLast?_cons_cons]
  split <;> simp

theorem pieces_lastLine (hpiece : '\n' ∉ piece) (hne : piece ≠ []) : pieces piece = [piece] := by
  rw [pieces, List.splitOn_eq_singleton hpiece]
  simp [hne]

theorem Account.lines (h : Account left calls parts rest) (hall : ∀ e ∈ calls, e.op = .readLine) :
    ∃ lines, List.Forall₂ Bared ((pieces left).take calls.length) lines ∧
      calls.map (·.outcome) =
        (lines.map fun l => .ok (.text l)) ++ List.replicate (calls.length - lines.length) (.ok .null) := by
  induction h with
  | nil left => exact ⟨[], by simp, rfl⟩
  | @cons left left' rest part v e calls parts he htakes hrest ih =>
      obtain ⟨lines, hlines, hcalls⟩ := ih fun e' h => hall e' (by simp [h])
      have hop := hall e (by simp)
      rw [hop] at htakes
      cases htakes with
      | @line piece line hpiece hline =>
          refine ⟨line :: lines, ?_, ?_⟩
          · rw [pieces_line hpiece, List.length_cons, List.take_succ_cons]
            exact .cons hline hlines
          · simp [he, hcalls]
      | @lastLine _ line hpiece hline hne =>
          have hnil : lines = [] := by simpa [pieces] using hlines
          subst hnil
          refine ⟨[line], ?_, ?_⟩
          · rw [pieces_lastLine hpiece hne, List.length_cons, List.take_succ_cons, List.take_nil]
            exact .cons hline .nil
          · simp [he, hcalls]
      | noLine =>
          have hnil : lines = [] := by simpa [pieces] using hlines
          subst hnil
          refine ⟨[], by simp [pieces], ?_⟩
          simp [he, hcalls, List.replicate_succ]

/-- A reader of a text, through any run of calls: they take the text part by part from its beginning, a peek
gives what the next read gives, nothing is there for those that come after the end, and calls for lines alone
get the pieces between line feeds. -/
theorem reads_through (s : Session) (text : List Char) : ∃ reader t,
    s.exec (Types.construct "StringReader" [.text text]) = (.ok (.ref reader), t) ∧
    ∀ calls u, (protocol reader).Runs t calls u → ∃ parts rest,
      Account text calls parts rest ∧ text = parts.flatten ++ rest ∧
      (∀ pre e mid e' post, calls = pre ++ e :: (mid ++ e' :: post) → e.op = .peek →
        (∀ x ∈ mid, x.op = .peek) → e'.op = .read → e'.outcome = e.outcome) ∧
      (∀ pre e post, calls = pre ++ e :: post → (parts.take pre.length).flatten = text →
        e.outcome = .ok e.op.atEnd) ∧
      ((∀ e ∈ calls, e.op = .readLine) → ∃ lines,
        List.Forall₂ Bared ((pieces text).take calls.length) lines ∧
        calls.map (·.outcome) =
          (lines.map fun l => .ok (.text l)) ++ List.replicate (calls.length - lines.length) (.ok .null)) := by
  have hnew : Holds s.store.size (s.grow (.reader ⟨text⟩)) text := store_grow s _
  refine ⟨_, _, rfl, fun calls u hr => ?_⟩
  obtain ⟨parts, rest, haccount⟩ := account hr hnew
  refine ⟨parts, rest, haccount, haccount.text_eq, ?_, ?_, haccount.lines⟩
  · rintro pre e mid e' post rfl he hmid he'
    obtain ⟨left, -, hcalls⟩ := haccount.drop
    exact hcalls.foretold he hmid he'
  · rintro pre e post rfl hall
    exact haccount.atEnd hall

def returns : List Char := ['\r', '\n', 'b', '\r']

def created : Session := ((Session.start 0).exec (Types.construct "StringReader" [.text returns])).2

def peeking : Invocation Op := (protocol 13).call created .peek

def reading : Invocation Op := (protocol 13).call peeking.after .read

def firstLine : Invocation Op := (protocol 13).call reading.after .readLine

def lastLine : Invocation Op := (protocol 13).call firstLine.after .readLine

def ending : Invocation Op := (protocol 13).call lastLine.after .readToEnd

/-- A line that is read from between a carriage return and its line feed is empty. -/
theorem reads_through_returns :
    (protocol 13).Runs created [peeking, reading, firstLine, lastLine, ending] ending.after ∧
      (∃ parts rest, Account returns [peeking, reading, firstLine, lastLine, ending] parts rest ∧
        returns = parts.flatten ++ rest) ∧
      reading.outcome = peeking.outcome ∧ firstLine.outcome = .ok (.text []) ∧
      lastLine.outcome = .ok (.text ['b']) := by
  have hr : (protocol 13).Runs created [peeking, reading, firstLine, lastLine, ending] ending.after :=
    .cons rfl trivial rfl (.cons rfl trivial rfl (.cons rfl trivial rfl (.cons rfl trivial rfl
      (.cons rfl trivial rfl (.nil rfl)))))
  have hnew : (Session.start 0).exec (Types.construct "StringReader" [.text returns]) =
      (.ok (.ref 13), created) := rfl
  obtain ⟨reader, t, ht, hruns⟩ := reads_through (Session.start 0) returns
  cases hnew.symm.trans ht
  obtain ⟨parts, rest, haccount, htext, hforetold, -⟩ := hruns _ _ hr
  have hpeek := hforetold [] peeking [] reading [firstLine, lastLine, ending] rfl rfl (by simp) rfl
  exact ⟨hr, ⟨parts, rest, haccount, htext⟩, hpeek, rfl, rfl⟩

end BaseLib.Reader
