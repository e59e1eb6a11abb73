import BaseLib.Proofs.Bytes.Encodings
import BaseLib.Proofs.Session.Alike
import BaseLib.Proofs.Session.Runs
import BaseLib.Proofs.Text.Builder

namespace BaseLib.TextWriter

open Library Session Text Text.Buffer
open Builder (optionsOf exec_readOptions)

inductive Op
  | write (args : List Value)
  | writeLine (args : List Value)
  | setNewLine (v : Value)

def Op.run (writer : Nat) : Op → Action Value
  | write args => Methods.call (.ref writer) "Write" args
  | writeLine args => Methods.call (.ref writer) "WriteLine" args
  | setNewLine v => do
    Properties.write (.ref writer) "NewLine" v
    done

inductive Reconfiguration
  | configure (map : Value)
  | reset
  | setVariable (name value : Value)

def Reconfiguration.run : Reconfiguration → Action Value
  | configure map => Catalogue.call "configure" [map]
  | reset => Catalogue.call "reset_options" []
  | setVariable name value => Catalogue.call "setenv" [name, value]

/-- A memory stream with a writer over it, a writer over a text builder, and an encoding. -/
structure Pair where
  stream : Nat
  streamWriter : Nat
  builder : Nat
  stringWriter : Nat
  codec : Value

inductive Act
  /-- Both writers are asked for the same operation, one of them first. -/
  | round (streamFirst : Bool) (op : Op)
  | reconfigure (c : Reconfiguration)

def Pair.writer (p : Pair) (onStream : Bool) : Nat := if onStream then p.streamWriter else p.stringWriter

def Act.run (p : Pair) : Act → Action Value
  | round streamFirst op => do
    let _ ← outcome (op.run (p.writer streamFirst))
    op.run (p.writer !streamFirst)
  | reconfigure c => c.run

namespace Op

/-- The codes of the text of the arguments of an operation. -/
def text (s : Session) : Op → Except Fault (List Nat)
  | write [] => .error Misuse.wrongType
  | write args | writeLine args => s.written (args.headD .null) (args.drop 1)
  | setNewLine _ => .ok []

def lineEnd (s : Session) (newLine : Value) : Except Fault (List Nat) :=
  match newLine, newLine.codes? with
  | .null, _ => ((optionsOf s).mapError .failure).map (·.newLine)
  | _, some codes => .ok codes
  | _, none => .error Misuse.wrongType

def ending (s : Session) (newLine : Value) : Op → Except Fault (List Nat)
  | writeLine _ => lineEnd s newLine
  | _ => .ok []

def adds (s : Session) (newLine : Value) (op : Op) : Except Fault (List Nat) := do
  let t ← op.text s
  let stop ← op.ending s newLine
  .ok (t ++ stop)

def newLineAfter (newLine : Value) : Op → Value
  | setNewLine v => v
  | _ => newLine

def Clean (s : Session) (newLine : Value) (op : Op) : Prop :=
  ∀ codes, op.adds s newLine = .ok codes → codes.all isScalar = true

end Op

def ownLineEnd (s : Session) (writer : Nat) : Value :=
  match s.store[writer]? with
  | some (.writer _ newLine) => newLine
  | _ => .null

/-- No surrogate is written, and the second writer is given the same as the first: a text writer that goes first
is not itself among the arguments, or at least what is shown of them stays the same. -/
def Act.Allowed (p : Pair) (s : Session) : Act → Prop
  | round streamFirst op => op.Clean s (ownLineEnd s p.streamWriter) ∧
      (streamFirst = false → op.text (s.exec (op.run p.stringWriter)).2 = op.text s)
  | reconfigure _ => True

/-- Rounds and changes of the options; in between, anything may happen that touches neither the writers nor what
they write to. -/
def protocol (p : Pair) : Protocol Act where
  run := Act.run p
  allowed := Act.Allowed p
  quiet s t := (∀ id ∈ [p.stream, p.streamWriter, p.builder, p.stringWriter], t.store[id]? = s.store[id]?) ∧
    t.object? p.codec = s.object? p.codec

/-- The text of the string writer, the bytes that it is encoded to, which are those of the stream, and the text
that they are read as. -/
structure Mirrors (p : Pair) (s : Session) (t : List Nat) : Prop where
  text : s.exec (Methods.call (.ref p.stringWriter) "ToString" []) = (.ok (.ofCodes t), s)
  bytes : s.exec (Methods.call (.ref p.stream) "ToArray" []) = s.exec (Encoding.getBytes p.codec (.ofCodes t))
  decoded : ∃ a u, s.exec (Methods.call (.ref p.stream) "ToArray" []) = (.ok a, u) ∧
    u.exec (Encoding.getString p.codec a) = (.ok (.ofCodes t), u)

/-- The codes of a text, and the line end that both writers have of their own. -/
structure Written where
  text : List Nat
  newLine : Value

def Written.after (m : Written) (op : Op) : Except Fault (List Nat) → Written
  | .ok t => ⟨m.text ++ t, op.newLineAfter m.newLine⟩
  | .error _ => m

/-- One step. In a round both writers answer the same; the text grows by what the operation adds with the line
end in force, and not at all if it fails. -/
def Step (p : Pair) (m : Written) (e : Invocation Act) (m' : Written) : Prop :=
  Mirrors p e.after m'.text ∧
    match e.op with
    | .round streamFirst op =>
      e.outcome = (op.adds e.before m.newLine).map (fun _ => .null) ∧
        (e.before.exec (op.run (p.writer streamFirst))).1 = e.outcome ∧
        m' = m.after op (op.adds e.before m.newLine)
    | .reconfigure _ => m' = m

/-- A stream writer over a new memory stream, and a new string writer with its builder. -/
def Creates (s : Session) (p : Pair) (v : Session) : Prop :=
  ∃ t u, s.exec (Types.construct "MemoryStream" []) = (.ok (.ref p.stream), t) ∧
    t.exec (Types.construct "StreamWriter" [.ref p.stream]) = (.ok (.ref p.streamWriter), u) ∧
    u.exec (Types.construct "StringWriter" []) = (.ok (.ref p.stringWriter), v) ∧
    v.exec (Methods.call (.ref p.stringWriter) "GetStringBuilder" []) = (.ok (.ref p.builder), v)

variable {s t : Session}

theorem exec_entriesOf (s : Session) (map : Value) : ∃ r, s.exec (Environment.entriesOf map) = (r, s) := by
  rw [Environment.entriesOf, exec_get_bind]
  split <;> exact ⟨_, rfl⟩

theorem exec_needText (s : Session) (v : Value) : ∃ r, s.exec (needText v) = (r, s) := by
  cases v <;> exact ⟨_, rfl⟩

theorem Reconfiguration.kept (c : Reconfiguration) {id : Nat} {o : Object} (h : s.store[id]? = some o) :
    (s.exec c.run).2.store[id]? = some o := by
  cases c with
  | configure map =>
      change (s.exec (Environment.configure map)).2.store[id]? = some o
      obtain ⟨r, hr⟩ := exec_entriesOf s map
      cases r with
      | error f => rwa [Environment.configure, exec_bind_error hr]
      | ok entries =>
          obtain ⟨t, ht, hstore, -⟩ := exec_readOptions s
          rw [Environment.configure, exec_bind_ok hr]
          rw [← hstore] at h
          cases ho : optionsOf s with
          | error cause =>
              rw [ho] at ht
              rwa [exec_bind_error ht]
          | ok o' =>
              rw [ho] at ht
              rw [exec_bind_ok ht, exec_get_bind]
              cases hw : Environment.withOptions t o' entries with
              | error f => exact h
              | ok o'' => exact store_grow_of_some h (.options o'')
  | reset => exact h
  | setVariable name value =>
      change (s.exec (Environment.setVariable name value)).2.store[id]? = some o
      obtain ⟨n, hn⟩ := exec_needText s name
      obtain ⟨v, hv⟩ := exec_needText s value
      rw [Environment.setVariable]
      cases n with
      | error f => rwa [exec_bind_error hn]
      | ok n =>
          rw [exec_bind_ok hn]
          cases v with
          | error f => rwa [exec_bind_error hv]
          | ok v =>
              rw [exec_bind_ok hv]
              exact h

inductive Carries (s : Session) : WriterTarget → Nat → List Nat → Prop
  | stream {id : Nat} {t : List Char}
      (h : s.store[id]? = some (.memory ⟨Encoding.utf8.encode t, (Encoding.utf8.encode t).length⟩)) :
      Carries s (.stream (.ref id)) id (codesOf t)
  | builder {id : Nat} {x : Buffer} (h : s.store[id]? = some (.builder x)) : Carries s (.builder id) id x.codes

structure Outlet where
  self : Nat
  target : WriterTarget
  place : Nat

structure Outlet.Holds (w : Outlet) (s : Session) (m : Written) : Prop where
  self : s.store[w.self]? = some (.writer w.target m.newLine)
  carries : Carries s w.target w.place m.text

/-- What a writer has done: the text has grown, all other objects are as they were, and a writer over a stream
has not changed what is shown of the arguments. -/
structure Outlet.Done (w : Outlet) (s : Session) (m : Written) (op : Op) (u : Session) : Prop where
  holds : w.Holds u (m.after op (op.adds s m.newLine))
  options : optionsOf u = optionsOf s
  kept : ∀ id, id ≠ w.self → id ≠ w.place → u.store[id]? = s.store[id]?
  shown : ∀ v, w.target = .stream v → op.text u = op.text s

variable {w w' : Outlet} {m m' : Written} {op : Op} {target : WriterTarget} {place : Nat} {text : List Nat}

theorem encode_append (t t' : List Char) :
    Encoding.utf8.encode (t ++ t') = Encoding.utf8.encode t ++ Encoding.utf8.encode t' := List.flatMap_append

theorem Carries.exec_emit (h : Carries s target place text) {codes : List Nat} (hcodes : codes.all isScalar = true) :
    ∃ o, s.exec (Streams.emit target codes) = (.ok (), s.put place o) ∧
      Carries (s.put place o) target place (text ++ codes) ∧ ∀ v, target = .stream v → Alike s (s.put place o) := by
  cases h with
  | @stream _ t h =>
      have hencodable : s.exec (Streams.encodable codes) = (.ok (charsOf codes), s) := by
        rw [Streams.encodable, if_pos hcodes]
        rfl
      refine ⟨_, (exec_bind_ok hencodable _).trans (exec_send h (ByteBuffer.fillable_end _) _), ?_,
        fun _ _ => alike_put h (.memory _ _)⟩
      rw [← codesOf_charsOf hcodes, ← codesOf_append, charsOf_codesOf]
      refine .stream ?_
      rw [store_put h, ByteBuffer.overwrite_end, encode_append]
  | @builder _ x h =>
      have hbuilder : Carries (s.put place (.builder (x.push codes))) _ place (x.push codes).codes :=
        .builder (store_put h _)
      rw [codes_push] at hbuilder
      refine ⟨.builder (x.push codes), ?_, hbuilder, fun v hv => by cases hv⟩
      rw [Streams.emit, exec_get_bind, Builder.buffer_eq h]
      rfl

theorem Carries.of_stored (h : Carries s target place text) (hst : t.store[place]? = s.store[place]?) :
    Carries t target place text := by
  cases h with
  | stream h => exact .stream (hst.trans h)
  | builder h => exact .builder (hst.trans h)

theorem Outlet.Holds.of_stored (h : w.Holds s m) (hself : t.store[w.self]? = s.store[w.self]?)
    (hplace : t.store[w.place]? = s.store[w.place]?) : w.Holds t m :=
  ⟨hself.trans h.self, h.carries.of_stored hplace⟩

theorem carries_stream {id : Nat} : Carries s (.stream (.ref id)) id text ↔ ∃ t, codesOf t = text ∧
    s.store[id]? = some (.memory ⟨Encoding.utf8.encode t, (Encoding.utf8.encode t).length⟩) := by
  constructor
  · rintro ⟨h⟩
    exact ⟨_, rfl, h⟩
  · rintro ⟨t, rfl, h⟩
    exact .stream h

theorem carries_builder {id : Nat} : Carries s (.builder id) id text ↔
    ∃ x, s.store[id]? = some (.builder x) ∧ x.codes = text := by
  constructor
  · rintro (_ | h)
    exact ⟨_, h, rfl⟩
  · rintro ⟨x, h, rfl⟩
    exact .builder h

theorem Carries.ne (h : Carries s target place text) {id : Nat} {o : Object} (ho : s.store[id]? = some o)
    (hm : ∀ b, o ≠ .memory b) (hb : ∀ x, o ≠ .builder x) : id ≠ place := by
  rintro rfl
  cases h with
  | stream h => exact hm _ (Option.some.inj (ho.symm.trans h))
  | builder h => exact hb _ (Option.some.inj (ho.symm.trans h))

theorem Carries.exists_object (h : Carries s target place text) : ∃ o, s.store[place]? = some o := by
  cases h with
  | stream h => exact ⟨_, h⟩
  | builder h => exact ⟨_, h⟩

theorem Outlet.Holds.self_ne_place (h : w.Holds s m) (h' : w'.Holds s m') : w.self ≠ w'.place :=
  h'.carries.ne h.self (by simp) (by simp)

theorem text_alike (h : Alike s t) (op : Op) : op.text t = op.text s := by
  cases op with
  | write args =>
      cases args with
      | nil => rfl
      | cons v args => exact h.written _ _
  | writeLine args => exact h.written _ _
  | setNewLine v => rfl

theorem exec_lineEnd {α : Type} (s : Session) (newLine : Value) (f : List Nat → Action α) :
    ∃ u, u.store = s.store ∧ optionsOf u = optionsOf s ∧
      s.exec (do f (← needCodes (← Streams.lineEndOf newLine))) = match Op.lineEnd s newLine with
        | .ok stop => u.exec (f stop)
        | .error e => (.error e, u) := by
  cases newLine with
  | null =>
      obtain ⟨u, hu, hstore, hoptions⟩ := exec_readOptions s
      refine ⟨u, hstore, hoptions, ?_⟩
      have hrun : s.exec (do f (← needCodes (← Streams.lineEndOf .null))) =
          s.exec (readOptions >>= (fun o => pure (.ofCodes o.newLine)) >>= fun v => needCodes v >>= f) := rfl
      rw [hrun, exec_bind, exec_bind, hu, Op.lineEnd]
      cases optionsOf s with
      | error e => rfl
      | ok o =>
          dsimp only [Except.mapError, Except.map, exec_pure]
          rw [needCodes, Value.codes?_ofCodes, pure_bind]
  | _ => exact ⟨s, rfl, rfl, rfl⟩

theorem exec_writtenText (s : Session) (v : Value) (args : List Value) :
    s.exec (Streams.writtenText v args) = (s.written v args, s) := by
  rw [Streams.writtenText, exec_get_bind, exec_ofExcept]

section

variable {u : Session} (h : w.Holds s m) (hstore : u.store = s.store) (hoptions : optionsOf u = optionsOf s)

include h hstore hoptions

theorem Outlet.Holds.done_error {f : Fault} (hadds : op.adds s m.newLine = .error f) : w.Done s m op u where
  holds := by
    rw [hadds]
    exact h.of_stored (by rw [hstore]) (by rw [hstore])
  options := hoptions
  kept id _ _ := by rw [hstore]
  shown _ _ := text_alike (alike_of_store hstore) op

theorem Outlet.Holds.done_emit (hadds : op.adds s m.newLine = .ok text) (hclean : op.Clean s m.newLine)
    (hnewLine : op.newLineAfter m.newLine = m.newLine) :
    ∃ v, u.exec (do
        Streams.emit w.target text
        done) = (.ok .null, v) ∧ w.Done s m op v := by
  have hu : w.Holds u m := h.of_stored (by rw [hstore]) (by rw [hstore])
  obtain ⟨o, hemit, hcarries, halike⟩ := hu.carries.exec_emit (hclean _ hadds)
  refine ⟨_, exec_bind_ok hemit _, ?_, hoptions, fun id _ hid => ?_, fun v hv => ?_⟩
  · rw [hadds, Written.after, hnewLine]
    exact ⟨(store_put_ne (hu.self_ne_place hu) o).trans hu.self, hcarries⟩
  · rw [store_put_ne hid, hstore]
  · rw [text_alike (halike v hv) op, text_alike (alike_of_store hstore) op]

end

def Outlet.Answers (w : Outlet) (s : Session) (m : Written) (op : Op) : Prop :=
  ∃ u, s.exec (op.run w.self) = ((op.adds s m.newLine).map fun _ => .null, u) ∧ w.Done s m op u

theorem write_answers (h : w.Holds s m) {args : List Value} (hclean : (Op.write args).Clean s m.newLine) :
    w.Answers s m (.write args) := by
  have hcall : s.exec ((Op.write args).run w.self) =
      s.exec ((Member.variadic 1 (Streams.write w.target)).call args) := by
    rw [Op.run, exec_call h.self rfl]
  cases args with
  | nil => exact ⟨s, hcall, h.done_error rfl rfl rfl⟩
  | cons v args =>
      have hwrite : s.exec ((Op.write (v :: args)).run w.self) = s.exec (Streams.write w.target (v :: args)) :=
        hcall.trans rfl
      rw [Streams.write, exec_bind, exec_writtenText] at hwrite
      have hadds : (Op.write (v :: args)).adds s m.newLine = (s.written v args).map (· ++ []) := rfl
      cases hw : s.written v args with
      | error f =>
          rw [hw] at hadds
          refine ⟨s, hwrite.trans ?_, h.done_error rfl rfl hadds⟩
          rw [hadds]
          simp only [List.headD_cons, List.drop_one, List.tail_cons, hw]
          rfl
      | ok t =>
          rw [hw] at hadds
          change _ = Except.ok (t ++ []) at hadds
          rw [List.append_nil] at hadds
          obtain ⟨u, hu, hdone⟩ := h.done_emit rfl rfl hadds hclean rfl
          refine ⟨u, hwrite.trans ?_, hdone⟩
          simp only [List.headD_cons, List.drop_one, List.tail_cons, hw]
          rw [hadds]
          exact hu

theorem writeLine_answers (h : w.Holds s m) {args : List Value} (hclean : (Op.writeLine args).Clean s m.newLine) :
    w.Answers s m (.writeLine args) := by
  have hcall : s.exec ((Op.writeLine args).run w.self) =
      s.exec (Streams.writeLine w.target m.newLine args) := by
    rw [Op.run, exec_call h.self rfl]
    rfl
  rw [Streams.writeLine, exec_bind, exec_writtenText] at hcall
  have hadds : (Op.writeLine args).adds s m.newLine =
      (s.written (args.headD .null) (args.drop 1)).bind fun t =>
        (Op.lineEnd s m.newLine).bind fun stop => .ok (t ++ stop) := rfl
  cases hw : s.written (args.headD .null) (args.drop 1) with
  | error f =>
      rw [hw] at hcall hadds
      exact ⟨s, by rw [hadds]; exact hcall, h.done_error rfl rfl hadds⟩
  | ok t =>
      rw [hw] at hcall hadds
      obtain ⟨u, hstore, hoptions, hu⟩ := exec_lineEnd s m.newLine fun stop => do
        Streams.emit w.target (t ++ stop)
        done
      have hline := hcall.trans hu
      cases hend : Op.lineEnd s m.newLine with
      | error f =>
          rw [hend] at hline hadds
          exact ⟨u, by rw [hadds]; exact hline, h.done_error hstore hoptions hadds⟩
      | ok stop =>
          rw [hend] at hline hadds
          obtain ⟨v, hv, hdone⟩ := h.done_emit hstore hoptions hadds hclean rfl
          exact ⟨v, by rw [hadds]; exact hline.trans hv, hdone⟩

theorem setNewLine_answers (h : w.Holds s m) (v : Value) : w.Answers s m (.setNewLine v) := by
  have hobject : s.exec (objectOf (.ref w.self)) = (.ok (w.self, .writer w.target m.newLine), s) := by
    rw [objectOf, exec_get_bind]
    simp only [h.self]
    rfl
  have hwrite : s.exec (Properties.write (.ref w.self) "NewLine" v) =
      (.ok (), s.put w.self (.writer w.target v)) := (exec_bind_ok hobject _).trans rfl
  refine ⟨_, exec_bind_ok hwrite _, ?_, rfl, fun id hid _ => store_put_ne hid _, fun _ _ => rfl⟩
  refine ⟨store_put h.self _, ?_⟩
  change Carries _ _ _ (m.text ++ [])
  rw [List.append_nil]
  exact h.carries.of_stored (store_put_ne (h.self_ne_place h).symm _)

theorem answers (h : w.Holds s m) (hclean : op.Clean s m.newLine) : w.Answers s m op := by
  cases op with
  | write args => exact write_answers h hclean
  | writeLine args => exact writeLine_answers h hclean
  | setNewLine v => exact setNewLine_answers h v

def Pair.outlet (p : Pair) (onStream : Bool) : Outlet where
  self := p.writer onStream
  target := if onStream then .stream (.ref p.stream) else .builder p.builder
  place := if onStream then p.stream else p.builder

structure Holds (p : Pair) (s : Session) (m : Written) : Prop where
  outlet : ∀ onStream, (p.outlet onStream).Holds s m
  codec : Encoding.Codec s p.codec .utf8

variable {p : Pair}

theorem adds_congr (htext : op.text t = op.text s) (hoptions : optionsOf t = optionsOf s) (newLine : Value) :
    op.adds t newLine = op.adds s newLine := by
  have hending : op.ending t newLine = op.ending s newLine := by
    cases op with
    | writeLine args =>
        cases newLine with
        | null => simp only [Op.ending, Op.lineEnd, hoptions]
        | _ => rfl
    | _ => rfl
  rw [Op.adds, Op.adds, htext, hending]

theorem Holds.writers_ne (h : Holds p s m) (onStream : Bool) : p.writer onStream ≠ p.writer !onStream := by
  have hne : p.streamWriter ≠ p.stringWriter := by
    intro heq
    have hstream := (h.outlet true).self
    change s.store[p.streamWriter]? = _ at hstream
    rw [heq] at hstream
    cases hstream.symm.trans (h.outlet false).self
  cases onStream
  · exact hne.symm
  · exact hne

theorem Holds.places_ne (h : Holds p s m) (onStream : Bool) :
    (p.outlet onStream).place ≠ (p.outlet !onStream).place := by
  have hne : p.stream ≠ p.builder := by
    intro heq
    obtain ⟨_, -, hstream⟩ := carries_stream.mp (h.outlet true).carries
    obtain ⟨x, hx, -⟩ := carries_builder.mp (h.outlet false).carries
    rw [heq] at hstream
    cases hstream.symm.trans hx
  cases onStream
  · exact hne.symm
  · exact hne

theorem Outlet.Done.others {u : Session} (hd : w.Done s m op u) (h : w.Holds s m) (h' : w'.Holds s m')
    (hself : w'.self ≠ w.self) (hplace : w'.place ≠ w.place) : w'.Holds u m' :=
  h'.of_stored (hd.kept _ hself (h'.self_ne_place h)) (hd.kept _ (h.self_ne_place h').symm hplace)

theorem Outlet.Done.codec {u : Session} {codec : Value} {e : Encoding} (hd : w.Done s m op u) (h : w.Holds s m)
    (hc : Encoding.Codec s codec e) : Encoding.Codec u codec e := by
  obtain ⟨code, hcodec, hcode⟩ := hc
  obtain ⟨id, rfl, hid⟩ := exists_ref hcodec
  have hself : id ≠ w.self := by
    rintro rfl
    cases hid.symm.trans h.self
  exact ⟨code, (hd.kept id hself (h.carries.ne hid (by simp) (by simp))).trans hid, hcode⟩

theorem Holds.ownLineEnd_eq (h : Holds p s m) : ownLineEnd s p.streamWriter = m.newLine := by
  have hself := (h.outlet true).self
  change s.store[p.streamWriter]? = _ at hself
  rw [ownLineEnd, hself]

theorem Holds.round (h : Holds p s m) {streamFirst : Bool} (ha : (Act.round streamFirst op).Allowed p s) :
    ∃ u, s.exec ((Act.round streamFirst op).run p) = ((op.adds s m.newLine).map fun _ => .null, u) ∧
      (s.exec (op.run (p.writer streamFirst))).1 = (op.adds s m.newLine).map (fun _ => .null) ∧
      Holds p u (m.after op (op.adds s m.newLine)) := by
  obtain ⟨hclean, hsame⟩ := ha
  rw [h.ownLineEnd_eq] at hclean
  have hfirst := h.outlet streamFirst
  obtain ⟨u, hu, hdone⟩ := answers hfirst hclean
  change s.exec (op.run (p.writer streamFirst)) = _ at hu
  have htext : op.text u = op.text s := by
    cases streamFirst with
    | true => exact hdone.shown _ rfl
    | false =>
        have htext := hsame rfl
        change op.text (s.exec (op.run (p.writer false))).2 = _ at htext
        rwa [hu] at htext
  have hne := h.writers_ne streamFirst
  have hplaces := h.places_ne streamFirst
  have hsecond := hdone.others hfirst (h.outlet !streamFirst) hne.symm hplaces.symm
  have hadds := adds_congr htext hdone.options m.newLine
  obtain ⟨v, hv, hdone'⟩ := answers hsecond fun codes hcodes => hclean codes (hadds.symm.trans hcodes)
  have hafter := hdone'.holds
  rw [hadds] at hv hafter
  have hbefore := hdone'.others hsecond hdone.holds hne hplaces
  refine ⟨v, (exec_bind_ok (exec_outcome hu) _).trans hv, congrArg Prod.fst hu, fun onStream => ?_, ?_⟩
  · obtain rfl | rfl : onStream = streamFirst ∨ onStream = !streamFirst := by
      cases onStream <;> cases streamFirst <;> simp
    · exact hbefore
    · exact hafter
  · exact hdone'.codec hsecond (hdone.codec hfirst h.codec)

theorem Carries.exec_toText {writer : Nat} {newLine : Value} (h : Carries s (.builder place) place text)
    (hwriter : s.store[writer]? = some (.writer (.builder place) newLine)) :
    s.exec (Methods.call (.ref writer) "ToString" []) = (.ok (.ofCodes text), s) := by
  obtain ⟨x, hx, rfl⟩ := carries_builder.mp h
  have hdisplay : s.display (.ref writer) = .ok x.codes := by
    have hforms : s.display (.ref writer) = .ok (s.buffer place).codes := by
      simp only [Session.display, Session.view, Session.depth, viewAt, hwriter]
      rfl
    rw [hforms, Builder.buffer_eq hx]
  have htext := exec_textOf hwriter (by simp)
  rw [hdisplay] at htext
  refine (exec_call hwriter rfl []).trans ?_
  exact htext

theorem Holds.mirrors (h : Holds p s m) : Mirrors p s m.text := by
  obtain ⟨t, ht, hstream⟩ := carries_stream.mp (h.outlet true).carries
  have htext := (h.outlet false).carries.exec_toText (h.outlet false).self
  have harray : s.exec (Methods.call (.ref p.stream) "ToArray" []) = (.ok (.ref s.store.size),
      s.grow (.array ((Encoding.utf8.encode t).map fun (b : Nat) => .int b))) :=
    (exec_call hstream rfl []).trans rfl
  have hvalue : Value.ofCodes m.text = .text t := by rw [← ht, Value.ofCodes_codesOf]
  have hcodec := h.codec.kept (extends_grow s (.array ((Encoding.utf8.encode t).map fun (b : Nat) => .int b)))
  have hbytes := Encoding.isBytes_grow (Encoding.wellFormed_encode .utf8 t).byte s
  refine ⟨htext, ?_, _, _, harray, ?_⟩
  · rw [hvalue]
    exact harray.trans (Encoding.exec_getBytes h.codec t).symm
  · rw [hvalue, Encoding.exec_getString hcodec hbytes, Encoding.decode_encode]
    exact congrArg (fun t => (Except.ok (Value.text t), _)) (List.map_id t)

theorem Holds.of_stored (h : Holds p s m) (hcells : ∀ onStream, t.store[p.writer onStream]? =
      s.store[p.writer onStream]? ∧ t.store[(p.outlet onStream).place]? = s.store[(p.outlet onStream).place]?)
    (hcodec : t.object? p.codec = s.object? p.codec) : Holds p t m := by
  obtain ⟨code, hobject, hcode⟩ := h.codec
  exact ⟨fun onStream => (h.outlet onStream).of_stored (hcells onStream).1 (hcells onStream).2,
    code, hcodec.trans hobject, hcode⟩

theorem Holds.reconfigure (h : Holds p s m) (c : Reconfiguration) : Holds p (s.exec c.run).2 m := by
  have hkept {id : Nat} {o : Object} (ho : s.store[id]? = some o) :
      (s.exec c.run).2.store[id]? = s.store[id]? := (c.kept ho).trans ho.symm
  refine h.of_stored (fun onStream => ⟨hkept (h.outlet onStream).self, ?_⟩) ?_
  · obtain ⟨o, ho⟩ := (h.outlet onStream).carries.exists_object
    exact hkept ho
  · obtain ⟨code, hobject, -⟩ := h.codec
    obtain ⟨id, hid, ho⟩ := exists_ref hobject
    rw [hid]
    exact hkept ho

theorem call_step (h : Holds p s m) {act : Act} (ha : act.Allowed p s) :
    ∃ m', Step p m ((protocol p).call s act) m' ∧ Holds p ((protocol p).call s act).after m' := by
  cases act with
  | round streamFirst op =>
      obtain ⟨u, hu, hanswer, hafter⟩ := h.round ha
      have hcall := Protocol.call_eq (p := protocol p) (e := ⟨s, Act.round streamFirst op, _, u⟩) hu
      rw [hcall]
      exact ⟨_, ⟨hafter.mirrors, rfl, hanswer, rfl⟩, hafter⟩
  | reconfigure c =>
      have hafter := h.reconfigure c
      exact ⟨m, ⟨hafter.mirrors, rfl⟩, hafter⟩

theorem follows {calls : List (Invocation Act)} (hr : (protocol p).Runs s calls t) (h : Holds p s m) :
    ∃ m', Follows (Step p) m calls m' ∧ Holds p t m' := by
  refine hr.follows ?_ (fun ha h => call_step h ha) h
  rintro s t m ⟨hcells, hcodec⟩ h
  refine h.of_stored (fun onStream => ?_) hcodec
  cases onStream <;> exact ⟨hcells _ (by simp [Pair.writer]), hcells _ (by simp [Pair.outlet])⟩

theorem creates (s : Session) (codec : Value) : ∃ p t, p.codec = codec ∧ Creates s p t ∧
    (Encoding.Codec s codec .utf8 → Holds p t ⟨[], .null⟩) := by
  let t := s.grow (.memory ⟨[], 0⟩)
  let u := t.grow (.writer (.stream (.ref s.store.size)) .null)
  let v := u.grow (.builder .empty)
  let w := v.grow (.writer (.builder u.store.size) .null)
  have htext : w.store[v.store.size]? = some (.writer (.builder u.store.size) .null) := store_grow v _
  refine ⟨⟨s.store.size, t.store.size, u.store.size, v.store.size, codec⟩, w, rfl,
    ⟨t, u, rfl, rfl, rfl, (exec_call htext rfl []).trans rfl⟩, fun hcodec => ⟨fun onStream => ?_, ?_⟩⟩
  · cases onStream with
    | true =>
        refine ⟨store_grow_of_some (store_grow_of_some (store_grow t _) _) _, carries_stream.mpr ⟨[], rfl, ?_⟩⟩
        exact store_grow_of_some (store_grow_of_some (store_grow_of_some (store_grow s _) _) _) _
    | false => exact ⟨htext, .builder (store_grow_of_some (store_grow u _) _)⟩
  · have hext : Extends s w := (((extends_grow s _).trans (extends_grow t _)).trans (extends_grow u _)).trans
      (extends_grow v _)
    exact hcodec.kept hext

theorem Creates.eq {p' : Pair} {t' : Session} (h : Creates s p t) (h' : Creates s p' t')
    (hcodec : p.codec = p'.codec) : p = p' ∧ t = t' := by
  obtain ⟨stream, streamWriter, builder, stringWriter, codec⟩ := p
  obtain ⟨u, v, hstream, hwriter, htext, hbuilder⟩ := h
  obtain ⟨u', v', hstream', hwriter', htext', hbuilder'⟩ := h'
  cases hstream.symm.trans hstream'
  cases hwriter.symm.trans hwriter'
  cases htext.symm.trans htext'
  cases hbuilder.symm.trans hbuilder'
  cases hcodec
  exact ⟨rfl, rfl⟩

/-- A stream writer over a new memory stream and a new string writer are given the same, in any order and with
any changes of the options in between: after every step the bytes of the stream are those that UTF-8 encodes the
text of the string writer to, and they are read as that text. -/
theorem writers_mirror {codec : Value} (hcodec : Encoding.Codec s codec .utf8) :
    ∃ p t, p.codec = codec ∧ Creates s p t ∧ ∀ calls u, (protocol p).Runs t calls u →
      ∃ m, Follows (Step p) ⟨[], .null⟩ calls m ∧ Mirrors p u m.text := by
  obtain ⟨p, t, hp, hcreates, hholds⟩ := creates s codec
  refine ⟨p, t, hp, hcreates, fun calls u hr => ?_⟩
  obtain ⟨m, hfollows, hm⟩ := follows hr (hholds hcodec)
  exact ⟨m, hfollows, hm.mirrors⟩

/-- The options of the host, as a map that line ends are configured with. -/
def configured : Session := (Session.start 0).grow (.map [(.text "new_line".toList, .text ['\r', '\n'])])

def pair : Pair := ⟨14, 15, 16, 17, .ref 7⟩

def opened : Session :=
  let t := (configured.exec (Types.construct "MemoryStream" [])).2
  let u := (t.exec (Types.construct "StreamWriter" [.ref 14])).2
  (u.exec (Types.construct "StringWriter" [])).2

def first : Invocation Act := (protocol pair).call opened (.round true (.write [.text ['é']]))

def change : Invocation Act := (protocol pair).call first.after (.reconfigure (.configure (.ref 13)))

def last : Invocation Act := (protocol pair).call change.after (.round false (.writeLine [.int 1]))

/-- A line whose end is configured after the writers were made. -/
theorem writers_mirror_configured : Encoding.Codec configured (.ref 7) .utf8 ∧ Creates configured pair opened ∧
    (protocol pair).Runs opened [first, change, last] last.after ∧
    Mirrors pair last.after (plain "é1\r\n") := by
  have hcodec : Encoding.Codec configured (.ref 7) .utf8 :=
    (Encoding.start_codec .utf8 0).kept (extends_grow _ _)
  have hpair : Creates configured pair opened := ⟨_, _, rfl, rfl, rfl, rfl⟩
  have hshown (s : Session) : (Op.writeLine [.int 1]).text s = .ok (plain "1") := rfl
  have hfirst : (Op.write [.text ['é']]).Clean opened (ownLineEnd opened 15) := by
    rintro codes ⟨⟩
    rfl
  have hlast : (Op.writeLine [.int 1]).Clean change.after (ownLineEnd change.after 15) := by
    rintro codes ⟨⟩
    rfl
  have hr : (protocol pair).Runs opened [first, change, last] last.after :=
    .cons ⟨fun _ _ => rfl, rfl⟩ ⟨hfirst, nofun⟩ rfl (.cons ⟨fun _ _ => rfl, rfl⟩ trivial rfl
      (.cons ⟨fun _ _ => rfl, rfl⟩ ⟨hlast, fun _ => (hshown _).trans (hshown _).symm⟩ rfl
        (.nil ⟨fun _ _ => rfl, rfl⟩)))
  have htext : last.after.exec (Methods.call (.ref 17) "ToString" []) =
      (.ok (.ofCodes (plain "é1\r\n")), last.after) := rfl
  obtain ⟨p, t, hp, hcreates, hruns⟩ := writers_mirror hcodec
  obtain ⟨rfl, rfl⟩ := hpair.eq hcreates hp.symm
  obtain ⟨m, -, hm⟩ := hruns _ _ hr
  have hmtext : m.text = plain "é1\r\n" :=
    Value.ofCodes_inj.mp (Except.ok.inj (Prod.ext_iff.mp (hm.text.symm.trans htext)).1)
  exact ⟨hcodec, hpair, hr, hmtext ▸ hm⟩

end BaseLib.TextWriter
