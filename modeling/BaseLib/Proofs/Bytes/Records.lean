import BaseLib.Library.Types
import BaseLib.Proofs.Bytes.Encodings
import BaseLib.Proofs.Session.Runs
import Mathlib.Algebra.Group.Nat.Defs

namespace BaseLib.Binary

open Library Session

inductive Item
  | bool (b : Bool)
  | int (n : Int)
  | double (d : Double)
  | text (t : List Char)
  | bytes (bs : List Nat)

def Item.Fits : Item → Prop
  | int n => Word.InRange n
  | _ => True

def Item.form : Item → List Nat
  | bool b => ofBool b
  | int n => lowBytes 4 (Word.unsigned n)
  | double d => ofDouble d
  | text t => ofText t
  | bytes bs => bs

def forms (items : List Item) : List Nat := items.flatMap Item.form

inductive Kind
  | bool
  | int
  | double
  | text
  | bytes (length : Nat)

def Item.kind : Item → Kind
  | bool _ => .bool
  | int _ => .int
  | double _ => .double
  | text _ => .text
  | bytes bs => .bytes bs.length

def number : List Nat → Nat
  | [] => 0
  | b :: bs => b + 0x100 * number bs

/-- A number in groups of seven bits, lowest first; a high bit says that more follow. -/
def readLength : List Nat → Option (Nat × List Nat)
  | [] => none
  | b :: bs => if b < 0x80 then some (b, bs) else (readLength bs).map fun p => (b - 0x80 + 0x80 * p.1, p.2)

def take : Nat → List Nat → Option (List Nat × List Nat)
  | 0, bs => some ([], bs)
  | _ + 1, [] => none
  | n + 1, b :: bs => (take n bs).map fun p => (b :: p.1, p.2)

def Kind.read : Kind → List Nat → Option (Item × List Nat)
  | bool, bs => (take 1 bs).map fun p => (.bool (number p.1 != 0), p.2)
  | int, bs => (take 4 bs).map fun p => (.int (Word.wrap (number p.1)), p.2)
  | double, bs => (take 8 bs).map fun p => (.double ⟨UInt64.ofNat (number p.1)⟩, p.2)
  | text, bs =>
    (readLength bs).bind fun p => (take p.1 p.2).map fun p => (.text (Encoding.utf8.decode p.1), p.2)
  | bytes length, bs => (take length bs).map fun p => (.bytes p.1, p.2)

def readAll : List Kind → List Nat → Option (List Item × List Nat)
  | [], bs => some ([], bs)
  | k :: ks, bs => (k.read bs).bind fun p => (readAll ks p.2).map fun q => (p.1 :: q.1, q.2)

variable {item : Item} {items : List Item} {n count : Nat} {bs rest : List Nat}

theorem take_append (bs rest : List Nat) : take bs.length (bs ++ rest) = some (bs, rest) := by
  induction bs with
  | nil => rfl
  | cons b bs ih => rw [List.length_cons, List.cons_append, take, ih, Option.map_some]

theorem length_lowBytes (count n : Nat) : (lowBytes count n).length = count := by
  induction count generalizing n with
  | zero => rfl
  | succ count ih => rw [lowBytes, List.length_cons, ih]

theorem number_lowBytes (count n : Nat) : number (lowBytes count n) = n % 0x100 ^ count := by
  induction count generalizing n with
  | zero => rw [lowBytes, number, Nat.pow_zero, Nat.mod_one]
  | succ count ih => rw [lowBytes, number, ih, Nat.pow_succ', Nat.mod_mul]

theorem take_lowBytes (count n : Nat) (rest : List Nat) :
    take count (lowBytes count n ++ rest) = some (lowBytes count n, rest) := by
  have htake := take_append (lowBytes count n) rest
  rwa [length_lowBytes] at htake

theorem wrap_unsigned {n : Int} (h : Word.InRange n) : Word.wrap (Word.unsigned n) = n := by
  have hunsigned : (Word.unsigned n : Int) = n % 4294967296 :=
    Int.toNat_of_nonneg (Int.emod_nonneg n (by decide))
  rw [hunsigned]
  exact (Int.emod_bmod n 4294967296).trans (Word.wrap_of_inRange h)

theorem unsigned_lt (n : Int) : Word.unsigned n < 0x100 ^ 4 := by
  rw [Word.unsigned]
  omega

theorem readLength_sevenBit (n : Nat) (rest : List Nat) : readLength (sevenBit n ++ rest) = some (n, rest) := by
  induction n using sevenBit.induct with
  | case1 n h =>
      rw [sevenBit, if_pos h]
      exact if_pos h
  | case2 n h ih =>
      rw [sevenBit, if_neg h, List.cons_append, readLength, if_neg (by omega), ih, Option.map_some,
        Nat.add_sub_cancel, Nat.mod_add_div]

theorem read_form (h : item.Fits) (rest : List Nat) : item.kind.read (item.form ++ rest) = some (item, rest) := by
  cases item with
  | bool b => cases b <;> rfl
  | int n =>
      rw [Item.kind, Item.form, Kind.read, take_lowBytes, Option.map_some, number_lowBytes,
        Nat.mod_eq_of_lt (unsigned_lt n), wrap_unsigned h]
  | double d =>
      have hbits : d.bits.toNat < 0x100 ^ 8 := d.bits.toNat_lt
      rw [Item.kind, Item.form, Kind.read, ofDouble, take_lowBytes, Option.map_some, number_lowBytes,
        Nat.mod_eq_of_lt hbits, UInt64.ofNat_toNat]
  | text t =>
      have hdecode : Encoding.utf8.decode (Encoding.utf8.encode t) = t :=
        (Encoding.decode_encode .utf8 t).trans (List.map_id t)
      rw [Item.kind, Item.form, Kind.read, ofText, List.append_assoc, readLength_sevenBit, Option.bind_some,
        take_append, Option.map_some, hdecode]
  | bytes bs => rw [Item.kind, Item.form, Kind.read, take_append, Option.map_some]

theorem readAll_forms (h : ∀ item ∈ items, item.Fits) (rest : List Nat) :
    readAll (items.map Item.kind) (forms items ++ rest) = some (items, rest) := by
  induction items with
  | nil => rfl
  | cons item items ih =>
      obtain ⟨hitem, hitems⟩ := List.forall_mem_cons.mp h
      have hforms : forms (item :: items) ++ rest = item.form ++ (forms items ++ rest) :=
        List.append_assoc _ _ _
      rw [List.map_cons, readAll, hforms, read_form hitem, Option.bind_some, ih hitems, Option.map_some]

/-- The item that a value stands for; members of enumerations are integers. A text that is broken stands for none,
since no bytes encode it. -/
inductive Represents (s : Session) : Value → Item → Prop
  | bool (b : Bool) : Represents s (.bool b) (.bool b)
  | int {v : Value} {n : Int} (h : v.integer? = some n) : Represents s v (.int n)
  | double (d : Double) : Represents s (.double d) (.double d)
  | text (t : List Char) : Represents s (.text t) (.text t)
  | bytes {v : Value} {bs : List Nat} (h : IsBytes s v bs) : Represents s v (.bytes bs)

variable {s t : Session} {v : Value} {item' : Item} {writer stream : Nat}

theorem represents_int {n : Int} (hn : v.integer? = some n) (h : Represents s v item) : item = .int n := by
  cases h with
  | int h => rw [Option.some.inj (h.symm.trans hn)]
  | bytes h =>
      obtain ⟨id, rfl⟩ := h.exists_ref
      cases hn
  | _ => cases hn

inductive Formed (s : Session) (v : Value) : Except Fault (List Nat) → Prop
  | ok {item : Item} (h : Represents s v item) (hfits : item.Fits) : Formed s v (.ok item.form)
  | error {f : Fault} (h : ∀ item, Represents s v item → ¬item.Fits)
      (hoverflow : ∀ n, v.integer? = some n → ∃ e : Failure, f = .failure e ∧ e.kind = .overflow)
      (hbroken : ∀ codes, v = .broken codes → f = .misuse .unencodable) : Formed s v (.error f)

theorem formed_int {n : Int} (hn : v.integer? = some n) : Formed s v ((ofInt n).mapError .failure) := by
  by_cases h : Word.InRange n
  · have hform : ofInt n = .ok (Item.int n).form := if_pos h
    rw [hform]
    exact .ok (.int hn) h
  · have hform : ofInt n = .error .outsideInt32 := if_neg h
    rw [hform]
    refine .error (fun item hitem => ?_) (fun _ _ => ⟨_, rfl, rfl⟩) fun codes hv => ?_
    · rw [represents_int hn hitem]
      exact h
    · rw [hv] at hn
      cases hn

theorem formed_none {f : Fault} (hv : ∀ item, ¬Represents s v item)
    (hbroken : ∀ codes, v = .broken codes → f = .misuse .unencodable) : Formed s v (.error f) :=
  .error (fun item h => absurd h (hv item)) (fun n hn => absurd (.int hn) (hv (.int n))) hbroken

theorem not_represents_broken (codes : Text.Broken) (item : Item) : ¬Represents s (.broken codes) item := by
  intro h
  cases h with
  | int h => cases h
  | bytes h =>
      obtain ⟨id, hid⟩ := h.exists_ref
      cases hid

theorem represents_ref {id : Nat} (h : Represents s (.ref id) item) :
    ∃ bs, item = .bytes bs ∧ IsBytes s (.ref id) bs := by
  cases h with
  | int h => cases h
  | bytes h => exact ⟨_, rfl, h⟩

theorem exec_binaryForm_ref (s : Session) (id : Nat) :
    ∃ r, s.exec (Streams.binaryForm (.ref id)) = (r, s) ∧ Formed s (.ref id) r := by
  simp only [Streams.binaryForm, Value.integer?, exec_get_bind]
  split
  · rename_i items hitems
    cases hbytes : Streams.bytesOf items with
    | ok bs =>
        have hform := areBytes_of_bytesOf hbytes
        exact ⟨_, exec_needBytes hform s, .ok (.bytes ⟨items, hitems, hform⟩) trivial⟩
    | error e =>
        refine ⟨.error (.misuse e), ?_, formed_none (fun item h => ?_) fun _ h => by cases h⟩
        · rw [Streams.needBytes, exec_ofExcept, hbytes]
          rfl
        · obtain ⟨bs, -, items', hitems', hform⟩ := represents_ref h
          cases hitems.symm.trans hitems'
          cases hbytes.symm.trans (bytesOf_of_areBytes hform)
  · rename_i hother
    refine ⟨_, rfl, formed_none (fun item h => ?_) fun _ h => by cases h⟩
    obtain ⟨bs, -, items, hitems, -⟩ := represents_ref h
    exact hother items hitems

theorem exec_binaryForm (s : Session) (v : Value) :
    ∃ r, s.exec (Streams.binaryForm v) = (r, s) ∧ Formed s v r := by
  cases v with
  | bool b => exact ⟨_, rfl, .ok (.bool b) trivial⟩
  | double d => exact ⟨_, rfl, .ok (.double d) trivial⟩
  | text t => exact ⟨_, rfl, .ok (.text t) trivial⟩
  | int n => exact ⟨_, exec_ofResult s _, formed_int rfl⟩
  | day n => exact ⟨_, exec_ofResult s _, formed_int rfl⟩
  | flags type bits => exact ⟨_, exec_ofResult s _, formed_int rfl⟩
  | ref id => exact exec_binaryForm_ref s id
  | broken codes => exact ⟨_, rfl, formed_none (not_represents_broken codes) fun _ _ => rfl⟩
  | null | symbol x =>
      refine ⟨_, rfl, formed_none (fun item h => ?_) fun _ h => by cases h⟩
      cases h with
      | int h => cases h
      | bytes h => obtain ⟨id, ⟨⟩⟩ := h.exists_ref

/-- Writes to a binary writer; in between, anything may happen that touches neither it nor its stream. -/
def protocol (writer stream : Nat) : Protocol Value where
  run v := Methods.call (.ref writer) "Write" [v]
  allowed _ _ := True
  quiet s t := t.store[writer]? = s.store[writer]? ∧ t.store[stream]? = s.store[stream]?

/-- The stream holds the forms of the items, and its position is at the end. -/
def Contains (stream : Nat) (s : Session) (items : List Item) : Prop :=
  s.store[stream]? = some (.memory ⟨forms items, (forms items).length⟩)

/-- One write of a run. A value that has a form is written behind those before it; any other is refused and
changes nothing, with an overflow if it is an integer, and with an error of the host if it is a broken text. -/
inductive Writes (stream : Nat) (items : List Item) (e : Invocation Value) : List Item → Prop
  | stored {item : Item} (h : Represents e.before e.op item) (hfits : item.Fits) (hok : e.outcome = .ok .null)
      (hafter : Contains stream e.after (items ++ [item])) : Writes stream items e (items ++ [item])
  | refused {f : Fault} (h : ∀ item, Represents e.before e.op item → ¬item.Fits) (hf : e.outcome = .error f)
      (hoverflow : ∀ n, e.op.integer? = some n → ∃ x : Failure, f = .failure x ∧ x.kind = .overflow)
      (hbroken : ∀ codes, e.op = .broken codes → f = .misuse .unencodable)
      (hafter : e.after = e.before) : Writes stream items e items

structure Holds (writer stream : Nat) (s : Session) (items : List Item) : Prop where
  writer : s.store[writer]? = some (.binaryWriter (.ref stream))
  stream : Contains stream s items
  fits : ∀ item ∈ items, item.Fits

theorem forms_append (items items' : List Item) : forms (items ++ items') = forms items ++ forms items' :=
  List.flatMap_append

theorem exec_send_form (h : Contains stream s items) (item : Item) :
    s.exec (Streams.send (.ref stream) item.form) =
      (.ok (), s.put stream (.memory ⟨forms (items ++ [item]), (forms (items ++ [item])).length⟩)) := by
  have hitem : forms [item] = item.form := List.flatMap_singleton _ _
  rw [exec_send h (ByteBuffer.fillable_end _), ByteBuffer.overwrite_end, forms_append, hitem]

theorem call_writes (h : Holds writer stream s items) (v : Value) :
    ∃ items', Writes stream items ((protocol writer stream).call s v) items' ∧
      Holds writer stream ((protocol writer stream).call s v).after items' := by
  have hrun : s.exec ((protocol writer stream).run v) = s.exec (do
      Streams.send (.ref stream) (← Streams.binaryForm v)
      done) := (exec_call h.writer rfl _).trans rfl
  obtain ⟨r, hr, hformed⟩ := exec_binaryForm s v
  cases hformed with
  | @ok item hitem hfits =>
      have hexec := hrun.trans ((exec_bind_ok hr _).trans (exec_bind_ok (exec_send_form h.stream item) _))
      have hcall := Protocol.call_eq (p := protocol writer stream) (e := ⟨s, v, _, _⟩) hexec
      have hafter := store_put h.stream (.memory ⟨forms (items ++ [item]), (forms (items ++ [item])).length⟩)
      have hne : writer ≠ stream := by
        rintro rfl
        cases h.writer.symm.trans h.stream
      rw [hcall]
      refine ⟨items ++ [item], .stored hitem hfits rfl hafter, ?_, hafter, ?_⟩
      · exact (store_put_ne hne _).trans h.writer
      · exact List.forall_mem_append.mpr ⟨h.fits, by simpa using hfits⟩
  | @error f hnone hoverflow hbroken =>
      have hexec := hrun.trans (exec_bind_error hr _)
      have hcall := Protocol.call_eq (p := protocol writer stream) (e := ⟨s, v, _, _⟩) hexec
      rw [hcall]
      exact ⟨items, .refused hnone rfl hoverflow hbroken rfl, h⟩

theorem follows {calls : List (Invocation Value)} (hr : (protocol writer stream).Runs s calls t)
    (h : Holds writer stream s items) : ∃ items', Follows (Writes stream) items calls items' ∧
      Holds writer stream t items' := by
  refine hr.follows ?_ ?_ h
  · rintro s t items ⟨hwriter, hstream⟩ h
    exact ⟨hwriter.trans h.writer, hstream.trans h.stream, h.fits⟩
  · intro s items v _ h
    exact call_writes h v

/-- A binary writer on a new memory stream: whatever is written, the bytes of the stream are those from which a
reader that knows the kinds gets back every item, and no byte is left over. -/
theorem reads_back (s : Session) : ∃ stream writer t u,
    s.exec (Types.construct "MemoryStream" []) = (.ok (.ref stream), t) ∧
    t.exec (Types.construct "BinaryWriter" [.ref stream]) = (.ok (.ref writer), u) ∧
    ∀ calls w, (protocol writer stream).Runs u calls w → ∃ items bytes, Follows (Writes stream) [] calls items ∧
      w.store[stream]? = some (.memory ⟨bytes, bytes.length⟩) ∧
      readAll (items.map Item.kind) bytes = some (items, []) := by
  have hstream : s.exec (Types.construct "MemoryStream" []) =
      (.ok (.ref s.store.size), s.grow (.memory ⟨[], 0⟩)) := rfl
  have hwriter (t : Session) (id : Nat) : t.exec (Types.construct "BinaryWriter" [.ref id]) =
      (.ok (.ref t.store.size), t.grow (.binaryWriter (.ref id))) := rfl
  refine ⟨_, _, _, _, hstream, hwriter _ _, fun calls w hr => ?_⟩
  have hnew := store_grow_of_some (store_grow s (.memory ⟨[], 0⟩)) (.binaryWriter (.ref s.store.size))
  have hstart : Holds _ s.store.size _ [] := ⟨store_grow _ (.binaryWriter (.ref s.store.size)), hnew, by simp⟩
  obtain ⟨items, hfollows, hend⟩ := follows hr hstart
  refine ⟨items, forms items, hfollows, hend.stream, ?_⟩
  have hread := readAll_forms hend.fits []
  rwa [List.append_nil] at hread

def created : Session := ((Session.start 0).exec (Types.construct "MemoryStream" [])).2

def ready : Session := (created.exec (Types.construct "BinaryWriter" [.ref 13])).2

def first : Invocation Value := (protocol 14 13).call ready (.bool true)

def refusal : Invocation Value := (protocol 14 13).call first.after (.int 2147483648)

def lone : Invocation Value := (protocol 14 13).call refusal.after (.broken ⟨[0xD800], rfl⟩)

def last : Invocation Value := (protocol 14 13).call lone.after (.int (-2))

/-- An integer that is too large and a text that is broken leave no trace between two values that are written. -/
theorem reads_back_refusals :
    (protocol 14 13).Runs ready [first, refusal, lone, last] last.after ∧
      ∃ items, Follows (Writes 13) [] [first, refusal, lone, last] items ∧
        readAll (items.map Item.kind) [1, 254, 255, 255, 255] = some (items, []) := by
  have hr : (protocol 14 13).Runs ready [first, refusal, lone, last] last.after :=
    .cons ⟨rfl, rfl⟩ trivial rfl (.cons ⟨rfl, rfl⟩ trivial rfl (.cons ⟨rfl, rfl⟩ trivial rfl
      (.cons ⟨rfl, rfl⟩ trivial rfl (.nil ⟨rfl, rfl⟩))))
  have hstream : (Session.start 0).exec (Types.construct "MemoryStream" []) = (.ok (.ref 13), created) := rfl
  have hwriter : created.exec (Types.construct "BinaryWriter" [.ref 13]) = (.ok (.ref 14), ready) := rfl
  have hbytes : last.after.store[13]? = some (.memory ⟨[1, 254, 255, 255, 255], 5⟩) := rfl
  obtain ⟨stream, writer, t, u, ht, hu, hruns⟩ := reads_back (Session.start 0)
  cases hstream.symm.trans ht
  cases hwriter.symm.trans hu
  obtain ⟨items, bytes, hfollows, hend, hread⟩ := hruns _ _ hr
  cases hbytes.symm.trans hend
  exact ⟨hr, items, hfollows, hread⟩

/-- A text that consists of one surrogate is not written, so that no reader gets it back. -/
theorem lone_surrogate_lost :
    ready.exec (Methods.call (.ref 14) "Write" [.broken ⟨[0xD800], rfl⟩]) = (.error (.misuse .unencodable), ready) ∧
      ready.store[13]? = some (.memory ⟨[], 0⟩) := ⟨rfl, rfl⟩

end BaseLib.Binary
