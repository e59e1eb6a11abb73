import BaseLib.Proofs.Bytes.Writers
import BaseLib.Proofs.Text.Reader

namespace BaseLib.WrittenLines

open Library Session
open Reader (Bared pieces pieces_line)
open TextWriter (Op Outlet)
open Builder (optionsOf exec_readOptions)
open Text (codesOf codesOf_append)

structure IsLine (line : List Char) : Prop where
  no_feed : '\n' ∉ line
  no_return : line.getLast? ≠ some '\r'

instance (line : List Char) : Decidable (IsLine line) :=
  decidable_of_iff ('\n' ∉ line ∧ line.getLast? ≠ some '\r')
    ⟨fun h => ⟨h.1, h.2⟩, fun h => ⟨h.no_feed, h.no_return⟩⟩

inductive LineEnd : List Char → Prop
  | feed : LineEnd ['\n']
  | returned : LineEnd ['\r', '\n']

/-- The line end of a writer, which is its own or the configured one. -/
def EndsLines (s : Session) (writer : Nat) (stop : List Char) : Prop :=
  ∃ t, s.exec (Properties.read (.ref writer) "NewLine") = (.ok (.text stop), t)

/-- Lines for a string writer. In between, the options or the line end of the writer may change, and anything may
happen that does not touch its builder. -/
def protocol (writer builder : Nat) : Protocol (List Char) where
  run line := Methods.call (.ref writer) "WriteLine" [.text line]
  allowed s line := IsLine line ∧ ∃ stop, LineEnd stop ∧ EndsLines s writer stop
  quiet s t := t.store[builder]? = s.store[builder]? ∧
    ∃ newLine, t.store[writer]? = some (.writer (.builder builder) newLine)

inductive Spells : List (List Char) → List Char → Prop
  | nil : Spells [] []
  | cons {line stop text : List Char} {lines : List (List Char)} (hline : IsLine line) (hstop : LineEnd stop)
      (h : Spells lines text) : Spells (line :: lines) (line ++ stop ++ text)

/-- A line is written, and the text grows by it and a line end. -/
def Step (text : List Char) (e : Invocation (List Char)) (text' : List Char) : Prop :=
  e.outcome = .ok .null ∧ IsLine e.op ∧ ∃ stop, LineEnd stop ∧ text' = text ++ (e.op ++ stop)

def outlet (writer builder : Nat) : Outlet := ⟨writer, .builder builder, builder⟩

def Holds (writer builder : Nat) (s : Session) (text : List Char) : Prop :=
  ∃ newLine, (outlet writer builder).Holds s ⟨codesOf text, newLine⟩

variable {s t u : Session} {writer builder : Nat} {newLine : Value} {text text' line stop : List Char}
  {lines : List (List Char)} {calls : List (Invocation (List Char))}

theorem endsLines_iff {target : WriterTarget} (h : s.store[writer]? = some (.writer target newLine)) :
    EndsLines s writer stop ↔ Op.lineEnd s newLine = .ok (codesOf stop) := by
  have hread : s.exec (Properties.read (.ref writer) "NewLine") = s.exec (Streams.lineEndOf newLine) := by
    have hnone : Properties.known? s (.ref writer) (.writer target newLine) "NewLine" = none := by
      cases target <;> rfl
    rw [Properties.read, exec_get_bind]
    simp only [object?, h, hnone]
  rw [EndsLines, hread]
  cases newLine with
  | null =>
      obtain ⟨t, ht, -⟩ := exec_readOptions s
      have hrun : s.exec (Streams.lineEndOf .null) =
          s.exec (readOptions >>= fun o => pure (.ofCodes o.newLine)) := rfl
      rw [hrun, exec_bind, ht, Op.lineEnd]
      cases optionsOf s with
      | error e => simp [Except.mapError, Except.map]
      | ok o =>
          simp only [Except.mapError, Except.map, exec_pure, Prod.mk.injEq, Except.ok.injEq, exists_eq_right']
          rw [← Value.ofCodes_codesOf, Value.ofCodes_inj]
  | text own => simp [Streams.lineEndOf, Op.lineEnd, Value.codes?]
  | broken own =>
      have hne : own.codes ≠ codesOf stop := by
        intro h
        have hbroken := own.broken
        rw [h, Text.all_isScalar_codesOf] at hbroken
        cases hbroken
      simp [Streams.lineEndOf, Op.lineEnd, Value.codes?, hne]
  | _ => simp [Streams.lineEndOf, Op.lineEnd, Value.codes?]

theorem lineEnd_congr (h : optionsOf t = optionsOf s) (newLine : Value) :
    Op.lineEnd t newLine = Op.lineEnd s newLine := by
  cases newLine with
  | null => rw [Op.lineEnd, Op.lineEnd, h]
  | _ => rfl

theorem writes (h : (outlet writer builder).Holds s ⟨codesOf text, newLine⟩)
    (hend : Op.lineEnd s newLine = .ok (codesOf stop)) (line : List Char) :
    ∃ u, s.exec ((protocol writer builder).run line) = (.ok .null, u) ∧
      (outlet writer builder).Holds u ⟨codesOf (text ++ (line ++ stop)), newLine⟩ ∧
      Op.lineEnd u newLine = .ok (codesOf stop) := by
  have htext : (Op.writeLine [.text line]).text s = .ok (codesOf line) := rfl
  have hadds : (Op.writeLine [.text line]).adds s newLine = .ok (codesOf (line ++ stop)) := by
    rw [Op.adds, htext, Op.ending, hend, codesOf_append]
    rfl
  have hclean : (Op.writeLine [.text line]).Clean s newLine := by
    intro codes hcodes
    cases hadds.symm.trans hcodes
    exact Text.all_isScalar_codesOf _
  obtain ⟨u, hu, hdone⟩ := TextWriter.writeLine_answers h hclean
  have hafter := hdone.holds
  rw [hadds] at hu hafter
  rw [codesOf_append]
  exact ⟨u, hu, hafter, (lineEnd_congr hdone.options newLine).trans hend⟩

theorem call_step (ha : (protocol writer builder).allowed s line) (h : Holds writer builder s text) :
    ∃ text', Step text ((protocol writer builder).call s line) text' ∧
      Holds writer builder ((protocol writer builder).call s line).after text' := by
  obtain ⟨hline, stop, hstop, hends⟩ := ha
  obtain ⟨newLine, h⟩ := h
  obtain ⟨u, hu, hafter, -⟩ := writes h ((endsLines_iff h.self).mp hends) line
  rw [Protocol.call_of hu]
  exact ⟨_, ⟨rfl, hline, stop, hstop, rfl⟩, newLine, hafter⟩

theorem Holds.of_quiet (h : Holds writer builder s text) (hq : (protocol writer builder).quiet s t) :
    Holds writer builder t text := by
  obtain ⟨_, h⟩ := h
  obtain ⟨hbuilder, newLine, hwriter⟩ := hq
  exact ⟨newLine, hwriter, h.carries.of_stored hbuilder⟩

theorem follows (hr : (protocol writer builder).Runs s calls t) (h : Holds writer builder s text) :
    ∃ text', Follows Step text calls text' ∧ Holds writer builder t text' :=
  hr.follows (fun hq h => Holds.of_quiet h hq) call_step h

theorem spells_of_follows (h : Follows Step text calls text') :
    (∀ e ∈ calls, e.outcome = .ok .null) ∧ ∃ added, text' = text ++ added ∧ Spells (calls.map (·.op)) added := by
  induction h with
  | nil text => exact ⟨List.forall_mem_nil _, [], (List.append_nil text).symm, .nil⟩
  | @cons text _ text' e calls hstep _ ih =>
      obtain ⟨houtcome, hline, stop, hstop, rfl⟩ := hstep
      obtain ⟨houtcomes, added, rfl, hadded⟩ := ih
      refine ⟨List.forall_mem_cons.mpr ⟨houtcome, houtcomes⟩, e.op ++ stop ++ added, ?_, .cons hline hstop hadded⟩
      simp only [List.append_assoc]

theorem exists_run (hq : (protocol writer builder).quiet s t)
    (h : (outlet writer builder).Holds t ⟨codesOf text, newLine⟩) (hend : Op.lineEnd t newLine = .ok (codesOf stop))
    (hstop : LineEnd stop) (hlines : ∀ line ∈ lines, IsLine line) :
    ∃ calls u, (protocol writer builder).Runs s calls u ∧ calls.map (·.op) = lines := by
  induction lines generalizing s t text with
  | nil => exact ⟨[], t, .nil hq, rfl⟩
  | cons line lines ih =>
      obtain ⟨hline, hlines⟩ := List.forall_mem_cons.mp hlines
      obtain ⟨u, hu, hafter, hend'⟩ := writes h hend line
      obtain ⟨calls, v, hr, hops⟩ := ih ⟨rfl, newLine, hafter.self⟩ hafter hend' hlines
      refine ⟨⟨t, line, .ok .null, u⟩ :: calls, v, .cons hq ?_ hu hr, ?_⟩
      · exact ⟨hline, stop, hstop, (endsLines_iff h.self).mpr hend⟩
      · rw [List.map_cons, hops]

theorem bared_rightUnique : Relator.RightUnique Bared := fun _ _ _ h h' =>
  h.eq_dropReturn.trans h'.eq_dropReturn.symm

theorem Spells.bared (h : Spells lines text) : List.Forall₂ Bared (pieces text) lines := by
  induction h with
  | nil => exact .nil
  | @cons line stop text lines hline hstop _ ih =>
      cases hstop with
      | feed =>
          rw [List.append_assoc, List.singleton_append, pieces_line hline.no_feed]
          exact .cons (.plain hline.no_return) ih
      | returned =>
          have hpiece : '\n' ∉ line ++ ['\r'] := by simp [hline.no_feed]
          have htext : line ++ ['\r', '\n'] ++ text = (line ++ ['\r']) ++ '\n' :: text := by simp
          rw [htext, pieces_line hpiece]
          exact .cons (.returned line) ih

theorem Spells.read_back {reads : List (Invocation Reader.Op)} {reader : Nat} (h : Spells lines text)
    (hs : Reader.Holds reader s text) (hr : (Reader.protocol reader).Runs s reads t)
    (hreads : ∀ e ∈ reads, e.op = .readLine) :
    reads.map (·.outcome) = (lines.map fun line => .ok (.text line)).take reads.length ++
      List.replicate (reads.length - lines.length) (.ok .null) := by
  obtain ⟨parts, rest, haccount⟩ := Reader.account hr hs
  obtain ⟨lines', hlines, houtcomes⟩ := haccount.lines hreads
  have heq : lines' = lines.take reads.length :=
    List.right_unique_forall₂' bared_rightUnique hlines (List.forall₂_take _ h.bared)
  rw [houtcomes, heq, List.map_take, List.length_take]
  congr 2
  omega

/-- Lines that are written to a new string writer, with line ends that readers know, are all written, and a reader
of its text gives them back, and then null. -/
theorem lines_come_back (s : Session) : ∃ writer builder t,
    s.exec (Types.construct "StringWriter" []) = (.ok (.ref writer), t) ∧
    t.exec (Methods.call (.ref writer) "GetStringBuilder" []) = (.ok (.ref builder), t) ∧
    (∀ t' stop lines, (protocol writer builder).quiet t t' → EndsLines t' writer stop → LineEnd stop →
      (∀ line ∈ lines, IsLine line) →
      ∃ calls u, (protocol writer builder).Runs t calls u ∧ calls.map (·.op) = lines) ∧
    ∀ calls u, (protocol writer builder).Runs t calls u →
      (∀ e ∈ calls, e.outcome = .ok .null) ∧
      ∃ text reader v, u.exec (Methods.call (.ref writer) "ToString" []) = (.ok (.text text), u) ∧
        u.exec (Types.construct "StringReader" [.text text]) = (.ok (.ref reader), v) ∧
        ∀ reads w, (Reader.protocol reader).Runs v reads w → (∀ e ∈ reads, e.op = .readLine) →
          reads.map (·.outcome) = (calls.map fun e => .ok (.text e.op)).take reads.length ++
            List.replicate (reads.length - calls.length) (.ok .null) := by
  let t := s.grow (.builder .empty)
  let u := t.grow (.writer (.builder s.store.size) .null)
  have hwriter : u.store[t.store.size]? = some (.writer (.builder s.store.size) .null) := store_grow t _
  have hnew : (outlet t.store.size s.store.size).Holds u ⟨codesOf [], .null⟩ :=
    ⟨hwriter, .builder (store_grow_of_some (store_grow s _) _)⟩
  refine ⟨t.store.size, s.store.size, u, rfl, (exec_call hwriter rfl []).trans rfl, ?_, fun calls v hr => ?_⟩
  · intro v stop lines hq hends hstop hlines
    obtain ⟨newLine, hv⟩ := Holds.of_quiet ⟨.null, hnew⟩ hq
    exact exists_run hq hv ((endsLines_iff hv.self).mp hends) hstop hlines
  · obtain ⟨text, hfollows, newLine, hv⟩ := follows hr ⟨.null, hnew⟩
    obtain ⟨houtcomes, added, htext, hspells⟩ := spells_of_follows hfollows
    rw [List.nil_append] at htext
    subst htext
    have hreader : Reader.Holds v.store.size (v.grow (.reader ⟨text⟩)) text := store_grow v _
    have htoText := hv.carries.exec_toText hv.self
    rw [Value.ofCodes_codesOf] at htoText
    refine ⟨houtcomes, text, v.store.size, _, htoText, rfl, fun reads w hr' hreads => ?_⟩
    have hback := hspells.read_back hreader hr' hreads
    rwa [List.map_map, List.length_map] at hback

/-- A line with braces, an empty one, and one with a carriage return in it. -/
def page : List (List Char) := [['{', '0', '}', '{'], [], ['a', '\r', 'b']]

def opened : Session := (TextWriter.configured.exec (Types.construct "StringWriter" [])).2

def configured : Session := (opened.exec (Catalogue.call "configure" [.ref 13])).2

/-- Lines whose end is configured after the writer was made. -/
theorem lines_come_back_configured : ∃ calls u text reader v reads w,
    (protocol 15 14).Runs opened calls u ∧ calls.map (·.op) = page ∧
      u.exec (Methods.call (.ref 15) "ToString" []) = (.ok (.text text), u) ∧
      u.exec (Types.construct "StringReader" [.text text]) = (.ok (.ref reader), v) ∧
      (Reader.protocol reader).Runs v reads w ∧ (∀ e ∈ reads, e.op = .readLine) ∧
      reads.map (·.outcome) = (page.map fun line => .ok (.text line)) ++ [.ok .null] := by
  have hopened : TextWriter.configured.exec (Types.construct "StringWriter" []) = (.ok (.ref 15), opened) := rfl
  have hbuilder : opened.exec (Methods.call (.ref 15) "GetStringBuilder" []) = (.ok (.ref 14), opened) := rfl
  have hquiet : (protocol 15 14).quiet opened configured := ⟨rfl, .null, rfl⟩
  have hends : EndsLines configured 15 ['\r', '\n'] := ⟨_, rfl⟩
  obtain ⟨writer, builder, t, hwriter, hbuilder', hexists, hback⟩ := lines_come_back TextWriter.configured
  cases hopened.symm.trans hwriter
  cases hbuilder.symm.trans hbuilder'
  obtain ⟨calls, u, hr, hops⟩ := hexists configured _ page hquiet hends .returned (by decide)
  obtain ⟨-, text, reader, v, htext, hreader, hreads⟩ := hback calls u hr
  -- One call more than there are lines.
  let first := (Reader.protocol reader).call v .readLine
  let second := (Reader.protocol reader).call first.after .readLine
  let third := (Reader.protocol reader).call second.after .readLine
  let fourth := (Reader.protocol reader).call third.after .readLine
  have hruns : (Reader.protocol reader).Runs v [first, second, third, fourth] fourth.after :=
    .call rfl trivial (.call rfl trivial (.call rfl trivial (.call rfl trivial (.nil rfl))))
  have hall : ∀ e ∈ [first, second, third, fourth], e.op = .readLine := by
    simp [first, second, third, fourth, Protocol.call]
  have hlength : calls.length = 3 := by
    rw [← List.length_map, hops]
    rfl
  have hlines : (calls.map fun e => (.ok (.text e.op) : Except Fault Value)) =
      page.map fun line => .ok (.text line) := by
    rw [← hops, List.map_map]
    rfl
  have houtcomes := hreads _ _ hruns hall
  rw [hlength, hlines] at houtcomes
  exact ⟨calls, u, text, reader, v, _, _, hr, hops, htext, hreader, hruns, hall, houtcomes⟩

end BaseLib.WrittenLines
