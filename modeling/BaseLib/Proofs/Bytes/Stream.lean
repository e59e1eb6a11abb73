import BaseLib.Library.Types
import BaseLib.Proofs.Bytes.Store
import BaseLib.Proofs.Session.Runs

namespace BaseLib.MemoryStream

open Library Session ByteBuffer

/-- An operation on a memory stream; a count that is not given reaches to the end of the array. -/
inductive Op
  | write (buffer : Value) (offset : Int) (count : Option Int)
  | writeByte (n : Int)
  | seek (position : Int)

def Op.run (stream : Nat) : Op → Action Value
  | write buffer offset count =>
    Methods.call (.ref stream) "Write" (buffer :: .int offset :: (count.map Value.int).toList)
  | writeByte n => Methods.call (.ref stream) "WriteByte" [.int n]
  | seek position => do
    Properties.write (.ref stream) "Position" (.int position)
    done

def Lists (s : Session) (buffer : Value) (items : List Value) : Prop :=
  s.object? buffer = some (.array items) ∨ s.object? buffer = some (.tuple items)

def countIn (length : Nat) (offset : Int) (count : Option Int) : Int := count.getD (length - offset)

def InBounds (length : Nat) (offset : Int) (count : Option Int) : Prop :=
  0 ≤ offset ∧ 0 ≤ countIn length offset count ∧ offset + countIn length offset count ≤ length

def part (items : List Value) (offset : Int) (count : Option Int) : List Value :=
  (items.drop offset.toNat).take (countIn items.length offset count).toNat

def Selects (s : Session) (buffer : Value) (offset : Int) (count : Option Int) (data : List Nat) : Prop :=
  ∃ items, Lists s buffer items ∧ InBounds items.length offset count ∧ AreBytes (part items offset count) data

def Outside (s : Session) (buffer : Value) (offset : Int) (count : Option Int) : Prop :=
  buffer ≠ .null ∧ ((∃ c, count = some c ∧ (offset < 0 ∨ c < 0)) ∨
    ∃ n, s.length? buffer = some n ∧ ¬InBounds n offset count)

def Overflows (s : Session) (buffer : Value) (offset : Int) (count : Option Int) : Prop :=
  ∃ items, Lists s buffer items ∧ InBounds items.length offset count ∧
    (∀ v ∈ part items offset count, v.asInt?.isSome) ∧
    ∃ v ∈ part items offset count, ∃ n, v.asInt? = some n ∧ (n < 0 ∨ 255 < n)

/-- A write, by what it is given: bytes that are singled out are written unless the gap before them is too large,
and everything else is refused and changes nothing. -/
structure Writes (s : Session) (buffer : Value) (offset : Int) (count : Option Int) (m : ByteBuffer)
    (r : Except Fault Value) (m' : ByteBuffer) : Prop where
  written : ∀ v, r = .ok v → v = .null ∧ ∃ data, Selects s buffer offset count data ∧ Written m data m'
  accepted : ∀ data, Selects s buffer offset count data → m.Fillable → r = .ok .null
  tooLarge : ∀ data, Selects s buffer offset count data → ¬m.Fillable → r = .error (.misuse .tooLarge)
  absent : buffer = .null → r = .error (.failure (.nullArgument "buffer"))
  outside : Outside s buffer offset count → r = .error (.failure .boundsOutside)
  overflow : Overflows s buffer offset count → r = .error (.failure .byteOutside)
  unchanged : ∀ f, r = .error f → m' = m

def Op.Does (s : Session) (m : ByteBuffer) (r : Except Fault Value) (m' : ByteBuffer) : Op → Prop
  | write buffer offset count => Writes s buffer offset count m r m'
  | writeByte n =>
    (0 ≤ n ∧ n ≤ 255 → m.Fillable → r = .ok .null ∧ Written m [n.toNat] m') ∧
      (0 ≤ n ∧ n ≤ 255 → ¬m.Fillable → r = .error (.misuse .tooLarge) ∧ m' = m) ∧
      (n < 0 ∨ 255 < n → r = .error (.misuse .badValue) ∧ m' = m)
  | seek position =>
    (0 ≤ position → r = .ok .null ∧ m' = { m with position := position.toNat }) ∧
      (position < 0 → r = .error (.failure .negativePosition) ∧ m' = m)

def Holds (stream : Nat) (s : Session) (m : ByteBuffer) : Prop := s.store[stream]? = some (.memory m)

/-- Operations on a stream; in between, anything may happen that does not touch it. -/
def protocol (stream : Nat) : Protocol Op where
  run := Op.run stream
  allowed _ _ := True
  quiet s t := t.store[stream]? = s.store[stream]?

structure Shows (s : Session) (stream : Nat) (m : ByteBuffer) : Prop where
  holds : Holds stream s m
  length : s.exec (Properties.read (.ref stream) "Length") = (.ok (.int m.length), s)
  position : s.exec (Properties.read (.ref stream) "Position") = (.ok (.int m.position), s)
  bytes : s.exec (Methods.call (.ref stream) "ToArray" []) =
    (.ok (.ref s.store.size), s.grow (.array (m.bytes.map fun (b : Nat) => .int b)))

variable {s t : Session} {b : Nat} {m m' : ByteBuffer} {buffer : Value} {offset : Int} {count : Option Int}
  {items : List Value} {data : List Nat} {r : Except Fault Value}

theorem Holds.shows (h : Holds b s m) : Shows s b m := by
  have hread (name : String) (v : Value) (hv : Properties.known? s (.ref b) (.memory m) name = some v) :
      s.exec (Properties.read (.ref b) name) = (.ok v, s) := by
    have hobject : s.object? (.ref b) = some (.memory m) := h
    rw [Properties.read, exec_get_bind]
    simp only [hobject, hv]
    rfl
  exact ⟨h, hread _ _ rfl, hread _ _ rfl, (exec_call h rfl []).trans rfl⟩

theorem Lists.length (h : Lists s buffer items) : s.length? buffer = some items.length := by
  cases buffer with
  | ref id =>
      obtain h | h := h
      · simp only [Session.length?, h]
      · simp only [Session.length?, h]
  | _ => obtain h | h := h <;> cases h

theorem ne_null_of_length {n : Nat} (h : s.length? buffer = some n) : buffer ≠ .null := by
  rintro rfl
  cases h

theorem exec_lengthOf {n : Nat} (h : s.length? buffer = some n) : s.exec (lengthOf buffer) = (.ok n, s) := by
  rw [lengthOf, exec_get_bind, h]
  rfl

theorem exec_lengthOf_none (h : s.length? buffer = none) :
    s.exec (lengthOf buffer) = (.error (.misuse .wrongType), s) := by
  rw [lengthOf, exec_get_bind, h]
  rfl

def argument (count : Option Int) : Value := (count.map Value.int).getD .null

def bounded (buffer : Value) (offset count : Int) : Action (Nat × Nat) := do
  if offset < 0 ∨ count < 0 then fail .boundsOutside
  match ByteBuffer.range? (← lengthOf buffer) offset (some count) with
  | some r => pure r
  | none => fail .boundsOutside

theorem exec_rangeOf_count (h : buffer ≠ .null) (offset c : Int) :
    s.exec (Streams.rangeOf buffer (.int offset) (.int c)) = s.exec (bounded buffer offset c) :=
  (exec_bind_ok (exec_notNull h s "buffer") _).trans rfl

theorem exec_rangeOf_rest {n : Nat} (h : s.length? buffer = some n) (offset : Int) :
    s.exec (Streams.rangeOf buffer (.int offset) .null) = s.exec (bounded buffer offset (n - offset)) := by
  refine (exec_bind_ok (exec_notNull (ne_null_of_length h) s "buffer") _).trans ?_
  exact (exec_bind_ok (exec_lengthOf h) _).trans rfl

theorem exec_bounded_inside {n : Nat} {c : Int} (h : s.length? buffer = some n)
    (hin : 0 ≤ offset ∧ 0 ≤ c ∧ offset + c ≤ n) :
    s.exec (bounded buffer offset c) = (.ok (offset.toNat, c.toNat), s) := by
  have hrange : ByteBuffer.range? n offset (some c) = some (offset.toNat, c.toNat) := if_pos hin
  rw [bounded, if_neg (by omega)]
  refine (exec_bind_ok (exec_lengthOf h) _).trans ?_
  rw [hrange]
  rfl

theorem exec_bounded_outside {n : Nat} {c : Int} (h : s.length? buffer = some n)
    (hout : ¬(0 ≤ offset ∧ 0 ≤ c ∧ offset + c ≤ n)) :
    s.exec (bounded buffer offset c) = (.error (.failure .boundsOutside), s) := by
  have hrange : ByteBuffer.range? n offset (some c) = none := if_neg hout
  rw [bounded]
  split
  · rfl
  · refine (exec_bind_ok (exec_lengthOf h) _).trans ?_
    rw [hrange]
    rfl

theorem exec_rangeOf {n : Nat} (h : s.length? buffer = some n) (offset : Int) (count : Option Int) :
    s.exec (Streams.rangeOf buffer (.int offset) (argument count)) =
      s.exec (bounded buffer offset (countIn n offset count)) := by
  cases count with
  | none => exact exec_rangeOf_rest h offset
  | some c => exact exec_rangeOf_count (ne_null_of_length h) offset c

theorem exec_rangeOf_inside {n : Nat} (h : s.length? buffer = some n) (hin : InBounds n offset count) :
    s.exec (Streams.rangeOf buffer (.int offset) (argument count)) =
      (.ok (offset.toNat, (countIn n offset count).toNat), s) := by
  rw [exec_rangeOf h, exec_bounded_inside h hin]

theorem exec_rangeOf_outside (h : Outside s buffer offset count) :
    s.exec (Streams.rangeOf buffer (.int offset) (argument count)) = (.error (.failure .boundsOutside), s) := by
  obtain ⟨hnull, ⟨c, rfl, hneg⟩ | ⟨n, hn, hout⟩⟩ := h
  · refine (exec_rangeOf_count hnull offset c).trans ?_
    rw [bounded, if_pos hneg]
    rfl
  · rw [exec_rangeOf hn, exec_bounded_outside hn hout]

theorem exec_rangeOf_error (hnull : buffer ≠ .null) (h : s.length? buffer = none) (offset : Int)
    (count : Option Int) :
    ∃ f, s.exec (Streams.rangeOf buffer (.int offset) (argument count)) = (.error f, s) := by
  cases count with
  | none =>
      refine ⟨.misuse .wrongType, (exec_bind_ok (exec_notNull hnull s "buffer") _).trans ?_⟩
      exact exec_bind_error (exec_lengthOf_none h) _
  | some c =>
      change ∃ f, s.exec (Streams.rangeOf buffer (.int offset) (.int c)) = (.error f, s)
      rw [exec_rangeOf_count hnull, bounded]
      split
      · exact ⟨_, rfl⟩
      · exact ⟨_, exec_bind_error (exec_lengthOf_none h) _⟩

def storing (stream : Nat) (vs : List Value) : Action Value :=
  match Streams.bytesOf vs with
  | .ok data => do
    Streams.send (.ref stream) data
    done
  | .error .badValue => fail .byteOutside
  | .error e => misuse e

theorem exec_writeRange (h : Lists s buffer items) (hin : InBounds items.length offset count) :
    s.exec (Streams.writeRange b buffer (.int offset) (argument count)) =
      s.exec (storing b (part items offset count)) := by
  refine (exec_bind_ok (exec_rangeOf_inside h.length hin) _).trans ?_
  rw [exec_get_bind]
  obtain h | h := h
  · simp only [h]
    rfl
  · simp only [h]
    rfl

theorem exec_writeRange_other {n : Nat} (h : s.length? buffer = some n) (hin : InBounds n offset count)
    (hlists : ∀ items, ¬Lists s buffer items) :
    s.exec (Streams.writeRange b buffer (.int offset) (argument count)) = (.error (.misuse .wrongType), s) := by
  refine (exec_bind_ok (exec_rangeOf_inside h hin) _).trans ?_
  rw [exec_get_bind]
  split
  · rename_i items hitems
    exact absurd (.inl hitems) (hlists items)
  · rename_i items hitems
    exact absurd (.inr hitems) (hlists items)
  · rfl

theorem Lists.ne_null (h : Lists s buffer items) : buffer ≠ .null := ne_null_of_length h.length

theorem Lists.eq {items' : List Value} (h : Lists s buffer items) (h' : Lists s buffer items') :
    items = items' := by
  obtain h | h := h <;> obtain h' | h' := h' <;> cases h.symm.trans h' <;> rfl

theorem Lists.not_outside (h : Lists s buffer items) (hin : InBounds items.length offset count) :
    ¬Outside s buffer offset count := by
  rintro ⟨-, ⟨c, rfl, hneg⟩ | ⟨n, hn, hout⟩⟩
  · obtain ⟨hoffset, hcount, -⟩ := hin
    rw [countIn, Option.getD_some] at hcount
    omega
  · cases hn.symm.trans h.length
    exact hout hin

theorem writes_refused {f : Fault} (hselects : ∀ data, ¬Selects s buffer offset count data)
    (habsent : buffer = .null → f = .failure (.nullArgument "buffer"))
    (houtside : Outside s buffer offset count → f = .failure .boundsOutside)
    (hoverflow : Overflows s buffer offset count → f = .failure .byteOutside) :
    Writes s buffer offset count m (.error f) m where
  written v h := by cases h
  accepted data h := absurd h (hselects data)
  tooLarge data h := absurd h (hselects data)
  absent h := congrArg _ (habsent h)
  outside h := congrArg _ (houtside h)
  overflow h := congrArg _ (hoverflow h)
  unchanged _ _ := rfl

theorem storing_writes (hm : Holds b s m) (h : Lists s buffer items) (hin : InBounds items.length offset count) :
    ∃ r m' t, s.exec (storing b (part items offset count)) = (r, t) ∧ Holds b t m' ∧
      Writes s buffer offset count m r m' := by
  have hrefused {f : Fault} (hbytes : ∀ data, ¬AreBytes (part items offset count) data)
      (hoverflow : Overflows s buffer offset count → f = .failure .byteOutside) :
      Writes s buffer offset count m (.error f) m := by
    refine writes_refused ?_ (absurd · h.ne_null) (absurd · (h.not_outside hin)) hoverflow
    rintro data ⟨items', hlists, -, hdata⟩
    cases h.eq hlists
    exact hbytes data hdata
  rw [storing]
  cases hbytes : Streams.bytesOf (part items offset count) with
  | ok data =>
      have hdata : AreBytes (part items offset count) data := areBytes_of_bytesOf hbytes
      have hselects : Selects s buffer offset count data := ⟨items, h, hin, hdata⟩
      have hbytes : ¬Overflows s buffer offset count := by
        rintro ⟨items', hlists, -, -, v, hv, n, hn, hout⟩
        cases h.eq hlists
        obtain ⟨byte, hbyte, hn'⟩ := hdata.byte_of_mem hv
        cases hn.symm.trans hn'
        omega
      by_cases hfit : m.Fillable
      · refine ⟨.ok .null, m.overwrite data, _, exec_bind_ok (exec_send hm hfit data) _, store_put hm _, ?_⟩
        refine ⟨fun v hv => ?_, fun _ _ _ => rfl, fun _ _ => absurd hfit, (absurd · h.ne_null),
          (absurd · (h.not_outside hin)), (absurd · hbytes), ?_⟩
        · cases hv
          exact ⟨rfl, data, hselects, written_iff.mpr rfl⟩
        · rintro f ⟨⟩
      · refine ⟨_, m, s, exec_bind_error (exec_send_tooLarge hm hfit data) _, hm, ?_⟩
        refine ⟨?_, fun _ _ => (absurd · hfit), fun _ _ _ => rfl, (absurd · h.ne_null),
          (absurd · (h.not_outside hin)), (absurd · hbytes), fun _ _ => rfl⟩
        rintro v ⟨⟩
  | error e =>
      have hnone (data : List Nat) : ¬AreBytes (part items offset count) data := fun hdata => by
        cases hbytes.symm.trans (bytesOf_of_areBytes hdata)
      by_cases he : e = .badValue
      · subst he
        exact ⟨_, m, s, rfl, hm, hrefused hnone fun _ => rfl⟩
      · refine ⟨.error (.misuse e), m, s, ?_, hm, hrefused hnone ?_⟩
        · cases e <;> first | rfl | exact absurd rfl he
        · rintro ⟨items', hlists, -, hints, -⟩
          cases h.eq hlists
          cases hbytes.symm.trans (bytesOf_badValue hints fun ⟨data, hdata⟩ => hnone data hdata)
          exact absurd rfl he

theorem write_writes (hm : Holds b s m) (buffer : Value) (offset : Int) (count : Option Int) :
    ∃ r m' t, s.exec (Streams.writeRange b buffer (.int offset) (argument count)) = (r, t) ∧ Holds b t m' ∧
      Writes s buffer offset count m r m' := by
  have hrange {f : Fault}
      (h : s.exec (Streams.rangeOf buffer (.int offset) (argument count)) = (.error f, s)) :
      s.exec (Streams.writeRange b buffer (.int offset) (argument count)) = (.error f, s) :=
    exec_bind_error h _
  by_cases hnull : buffer = .null
  · subst hnull
    have hnone (items : List Value) : ¬Lists s .null items := fun h => h.ne_null rfl
    refine ⟨_, m, s, hrange rfl, hm, writes_refused ?_ (fun _ => rfl) (fun h => absurd rfl h.1) ?_⟩
    · rintro data ⟨items, h, -⟩
      exact hnone items h
    · rintro ⟨items, h, -⟩
      exact absurd h (hnone items)
  by_cases hout : Outside s buffer offset count
  · refine ⟨_, m, s, hrange (exec_rangeOf_outside hout), hm,
      writes_refused ?_ (absurd · hnull) (fun _ => rfl) ?_⟩
    · rintro data ⟨items, h, hin, -⟩
      exact h.not_outside hin hout
    · rintro ⟨items, h, hin, -⟩
      exact absurd hout (h.not_outside hin)
  cases hlength : s.length? buffer with
  | none =>
      obtain ⟨f, hf⟩ := exec_rangeOf_error hnull hlength offset count
      refine ⟨_, m, s, hrange hf, hm, writes_refused ?_ (absurd · hnull) (absurd · hout) ?_⟩
      · rintro data ⟨items, h, -⟩
        cases hlength.symm.trans h.length
      · rintro ⟨items, h, -⟩
        cases hlength.symm.trans h.length
  | some n =>
      have hin : InBounds n offset count := by
        by_contra hin
        exact hout ⟨hnull, .inr ⟨n, hlength, hin⟩⟩
      by_cases hlists : ∃ items, Lists s buffer items
      · obtain ⟨items, h⟩ := hlists
        cases hlength.symm.trans h.length
        rw [exec_writeRange h hin]
        exact storing_writes hm h hin
      · have hnone (items : List Value) : ¬Lists s buffer items := fun h => hlists ⟨items, h⟩
        refine ⟨_, m, s, exec_writeRange_other hlength hin hnone, hm,
          writes_refused ?_ (absurd · hnull) (absurd · hout) ?_⟩
        · rintro data ⟨items, h, -⟩
          exact hnone items h
        · rintro ⟨items, h, -⟩
          exact absurd h (hnone items)

def Steps (b : Nat) (s : Session) (m : ByteBuffer) (op : Op) : Prop :=
  ∃ r m' t, s.exec (op.run b) = (r, t) ∧ Holds b t m' ∧ op.Does s m r m'

theorem write_steps (hm : Holds b s m) (buffer : Value) (offset : Int) (count : Option Int) :
    Steps b s m (.write buffer offset count) := by
  have hrun : s.exec ((Op.write buffer offset count).run b) =
      s.exec (Streams.writeRange b buffer (.int offset) (argument count)) := by
    cases count <;> exact (exec_call hm rfl _).trans rfl
  obtain ⟨r, m', t, ht, hafter, hwrites⟩ := write_writes hm buffer offset count
  exact ⟨r, m', t, hrun.trans ht, hafter, hwrites⟩

theorem writeByte_steps (hm : Holds b s m) (n : Int) : Steps b s m (.writeByte n) := by
  have hrun : s.exec ((Op.writeByte n).run b) = s.exec (do
      Streams.send (.ref b) (← Streams.needBytes [.int n])
      done) := by
    refine (exec_call hm rfl _).trans ?_
    change s.exec (Streams.sendByte (.ref b) (.int n)) = _
    rw [Streams.sendByte, exec_get_bind]
    simp only [object?, show s.store[b]? = some (.memory m) from hm]
  cases hbyte : ByteBuffer.byte? n with
  | none =>
      have hfail : s.exec (Streams.needBytes [.int n]) = (.error (.misuse .badValue), s) := by
        rw [Streams.needBytes, exec_ofExcept, bytesOf_noByte rfl hbyte]
        rfl
      have hout : ¬(0 ≤ n ∧ n ≤ 255) := fun h => by
        rw [ByteBuffer.byte?, if_pos h] at hbyte
        cases hbyte
      exact ⟨_, m, s, hrun.trans (exec_bind_error hfail _), hm, (absurd · hout), (absurd · hout), fun _ => ⟨rfl, rfl⟩⟩
  | some byte =>
      obtain ⟨rfl, hlt⟩ := byte?_eq_some.mp hbyte
      have hbytes : AreBytes ([byte].map fun (b : Nat) => .int b) [byte] := areBytes_ints (by simpa using hlt)
      have hsend : s.exec ((Op.writeByte byte).run b) =
          s.exec (do
            Streams.send (.ref b) [byte]
            done) := hrun.trans (exec_bind_ok (exec_needBytes hbytes s) _)
      by_cases hfit : m.Fillable
      · refine ⟨_, m.overwrite [byte], _, hsend.trans (exec_bind_ok (exec_send hm hfit _) _), store_put hm _,
          fun _ _ => ⟨rfl, written_iff.mpr rfl⟩, fun _ => absurd hfit, ?_⟩
        omega
      · refine ⟨_, m, s, hsend.trans (exec_bind_error (exec_send_tooLarge hm hfit _) _), hm,
          fun _ => (absurd · hfit), fun _ _ => ⟨rfl, rfl⟩, ?_⟩
        omega

theorem seek_steps (hm : Holds b s m) (position : Int) : Steps b s m (.seek position) := by
  have hrun : s.exec ((Op.seek position).run b) = s.exec (do
      assign b (← ofExcept (((m.setPosition position).mapError Fault.failure).map Object.memory))
      done) := by
    have hobject : s.exec (objectOf (.ref b)) = (.ok (b, .memory m), s) := by
      rw [objectOf, exec_get_bind]
      simp only [show s.store[b]? = some (.memory m) from hm]
      rfl
    have hwrite : s.exec (Properties.write (.ref b) "Position" (.int position)) = s.exec (do
        assign b (← ofExcept (((m.setPosition position).mapError Fault.failure).map Object.memory))) :=
      (exec_bind_ok hobject _).trans rfl
    rw [Op.run, exec_bind, hwrite]
    cases m.setPosition position <;> rfl
  by_cases hneg : position < 0
  · have hset : m.setPosition position = .error .negativePosition := if_pos hneg
    rw [hset] at hrun
    exact ⟨_, m, s, hrun, hm, fun h => absurd hneg (by omega), fun _ => ⟨rfl, rfl⟩⟩
  · have hset : m.setPosition position = .ok { m with position := position.toNat } := if_neg hneg
    rw [hset] at hrun
    exact ⟨_, _, _, hrun, store_put hm _, fun _ => ⟨rfl, rfl⟩, (absurd · hneg)⟩

theorem steps (hm : Holds b s m) (op : Op) : Steps b s m op := by
  cases op with
  | write buffer offset count => exact write_steps hm buffer offset count
  | writeByte n => exact writeByte_steps hm n
  | seek position => exact seek_steps hm position

/-- One operation of a run: the stream has a store before and after it, changed as the operation says. -/
structure Changes (stream : Nat) (m : ByteBuffer) (e : Invocation Op) (m' : ByteBuffer) : Prop where
  before : Holds stream e.before m
  does : e.op.Does e.before m e.outcome m'
  after : Holds stream e.after m'

theorem call_changes (hm : Holds b s m) (op : Op) : ∃ m', Changes b m ((protocol b).call s op) m' := by
  obtain ⟨r, m', t, ht, hafter, hdoes⟩ := steps hm op
  have hcall : (protocol b).call s op = ⟨s, op, r, t⟩ := Protocol.call_of ht
  rw [hcall]
  exact ⟨m', hm, hdoes, hafter⟩

theorem follows {calls : List (Invocation Op)} (hr : (protocol b).Runs s calls t) (hm : Holds b s m) :
    ∃ m', Follows (Changes b) m calls m' ∧ Holds b t m' := by
  refine hr.follows ?_ ?_ hm
  · intro s t m hquiet hm
    exact Eq.trans hquiet hm
  · intro s m op _ hm
    obtain ⟨m', hchanges⟩ := call_changes hm op
    exact ⟨m', hchanges, hchanges.after⟩

/-- What a stream is made with: nothing, or an array of bytes. -/
def Initial (s : Session) (v : Value) (bs : List Nat) : Prop := v = .null ∧ bs = [] ∨ IsBytes s v bs

theorem exec_newMemory {v : Value} {bs : List Nat} (h : Initial s v bs) :
    s.exec (Types.construct "MemoryStream" [v]) =
      (.ok (.ref s.store.size), s.grow (.memory (ByteBuffer.ofBytes bs))) := by
  have hmember : s.exec (Types.construct "MemoryStream" [v]) = s.exec (Streams.newMemory v) := rfl
  rw [hmember, Streams.newMemory, exec_get_bind]
  obtain ⟨rfl, rfl⟩ | h := h
  · rfl
  · obtain ⟨id, rfl⟩ := h.exists_ref
    obtain ⟨items, hitems, hbytes⟩ := h
    have htruthy : s.truthy (.ref id) = !items.isEmpty := by
      simp only [Session.truthy, show s.store[id]? = some (.array items) from hitems]
    rw [htruthy]
    cases items with
    | nil =>
        rw [areBytes_nil.mp hbytes]
        rfl
    | cons item items => exact (exec_bind_ok (exec_rawBytes ⟨_, hitems, hbytes⟩) _).trans rfl

/-- A memory stream is a store of bytes with a position. Made from any bytes, it follows what every operation
of a run does to the store, and shows the store that the run leaves. -/
theorem stores_bytes {v : Value} {bs : List Nat} (h : Initial s v bs) :
    ∃ b t, s.exec (Types.construct "MemoryStream" [v]) = (.ok (.ref b), t) ∧ Shows t b (ofBytes bs) ∧
      ∀ calls u, (protocol b).Runs t calls u → ∃ m, Follows (Changes b) (ofBytes bs) calls m ∧ Shows u b m := by
  have hnew : Holds s.store.size (s.grow (.memory (ofBytes bs))) (ofBytes bs) := store_grow s _
  refine ⟨_, _, exec_newMemory h, hnew.shows, fun calls u hr => ?_⟩
  obtain ⟨m, hfollows, hu⟩ := follows hr hnew
  exact ⟨m, hfollows, hu.shows⟩

def arrays : Session :=
  ((Session.start 0).grow (.array [.int 1, .int 2])).grow (.array [.int 7, .int 8, .int 9])

def created : Session := (arrays.exec (Types.construct "MemoryStream" [.ref 13])).2

def seeking : Invocation Op := (protocol 15).call created (.seek 4)

def writing : Invocation Op := (protocol 15).call seeking.after (.write (.ref 14) 1 (some 2))

def refusal : Invocation Op := (protocol 15).call writing.after (.write (.ref 14) 2 (some 5))

/-- A write beyond the end fills the gap, and one that is refused changes nothing. -/
theorem stores_bytes_gap :
    Initial arrays (.ref 13) [1, 2] ∧ (protocol 15).Runs created [seeking, writing, refusal] refusal.after ∧
      Follows (Changes 15) (ofBytes [1, 2]) [seeking, writing, refusal] ⟨[1, 2, 0, 0, 8, 9], 6⟩ ∧
      Shows refusal.after 15 ⟨[1, 2, 0, 0, 8, 9], 6⟩ := by
  have hinitial : Initial arrays (.ref 13) [1, 2] := .inr ⟨_, rfl, rfl, by decide⟩
  have hr : (protocol 15).Runs created [seeking, writing, refusal] refusal.after :=
    .cons rfl trivial rfl (.cons rfl trivial rfl (.cons rfl trivial rfl (.nil rfl)))
  have hnew : arrays.exec (Types.construct "MemoryStream" [.ref 13]) = (.ok (.ref 15), created) := rfl
  obtain ⟨b, t, ht, -, hruns⟩ := stores_bytes hinitial
  cases hnew.symm.trans ht
  obtain ⟨m, hfollows, hshows⟩ := hruns _ _ hr
  have hend : Holds 15 refusal.after ⟨[1, 2, 0, 0, 8, 9], 6⟩ := rfl
  cases hend.symm.trans hshows.holds
  exact ⟨hinitial, hr, hfollows, hshows⟩

end BaseLib.MemoryStream
