import BaseLib.Library.Catalogue
import BaseLib.Proofs.Bytes.Characters
import BaseLib.Proofs.Bytes.Store

namespace BaseLib.Encoding

inductive WellFormed (e : Encoding) : List Nat → Prop
  | nil : WellFormed e []
  | append {bs rest : List Nat} (h : Character e bs) (hr : WellFormed e rest) : WellFormed e (bs ++ rest)

def kept : Encoding → Char → Char
  | ascii, k => if k.toNat < 0x80 then k else '?'
  | latin1, k => if k.toNat < 0x100 then k else '?'
  | _, k => k

inductive LowByteFirst : List Nat → List Nat → Prop
  | nil : LowByteFirst [] []
  | cons {low high : Nat} {us bs : List Nat} (hlow : low < 0x100) (hhigh : high < 0x100)
      (h : LowByteFirst us bs) : LowByteFirst ((low + 0x100 * high) :: us) (low :: high :: bs)

/-- The bytes of a text: those of the standard encoding of strings, those of the units of UTF-16, or a byte for
each character that is written. -/
def Serializes : Encoding → List Char → List Nat → Prop
  | utf8, t, bs => bs = (String.ofList t).toByteArray.data.toList.map UInt8.toNat
  | utf16, t, bs => LowByteFirst (Text.Utf16.units t) bs
  | utf16BigEndian, t, bs => LowByteFirst (Text.Utf16.units t) (swapPairs bs)
  | e, t, bs => bs = t.map fun k => (e.kept k).toNat

variable {e : Encoding} {a b n : Nat} {bs rest us : List Nat} {k : Char}

theorem swapPairs_swapPairs (bs : List Nat) : swapPairs (swapPairs bs) = bs := by
  induction bs using swapPairs.induct with
  | case1 a b rest ih => rw [swapPairs, swapPairs, ih]
  | case2 bs hbs =>
      rw [swapPairs.eq_2 bs hbs, swapPairs.eq_2 bs hbs]

theorem Character.swapPairs_append (h : Character utf16 bs) (rest : List Nat) :
    swapPairs (bs ++ rest) = swapPairs bs ++ swapPairs rest := by
  cases h <;> rfl

theorem Character.swapPairs_swapPairs_append (h : Character utf16 bs) (rest : List Nat) :
    swapPairs (swapPairs bs ++ rest) = bs ++ swapPairs rest := by
  cases h <;> rfl

theorem LowByteFirst.eq (h : LowByteFirst us bs) : bs = us.flatMap littleEndian := by
  induction h with
  | nil => rfl
  | @cons low high us bs hlow hhigh h ih =>
      have hpair : littleEndian (low + 0x100 * high) = [low, high] := by
        simp only [littleEndian, List.cons.injEq, and_true]
        omega
      rw [ih, List.flatMap_cons, hpair]
      rfl

theorem lowByteFirst_flatMap (h : ∀ u ∈ us, u < 0x10000) : LowByteFirst us (us.flatMap littleEndian) := by
  induction us with
  | nil => exact .nil
  | cons u us ih =>
      obtain ⟨hu, hus⟩ := List.forall_mem_cons.mp h
      have hcons := LowByteFirst.cons (Nat.mod_lt u (by decide)) (by omega : u / 0x100 < 0x100) (ih hus)
      rwa [littleEndian_value] at hcons

theorem lowByteFirst_units (t : List Char) : LowByteFirst (Text.Utf16.units t) (utf16.encode t) := by
  apply lowByteFirst_flatMap
  intro u hu
  obtain ⟨k, -, hk⟩ := List.mem_flatMap.mp hu
  have hbounds := toNat_bounds k
  rw [Text.Utf16.ofChar, Text.Utf16.ofCode] at hk
  split_ifs at hk
  · rw [List.mem_singleton] at hk
    omega
  · rw [List.mem_pair] at hk
    omega

theorem encode_utf8_singleton (k : Char) : utf8.encode [k] = utf8OfCode k.toNat := by
  rw [encode, List.flatMap_singleton]

theorem encode_utf16_singleton (k : Char) :
    utf16.encode [k] = (Text.Utf16.ofChar k).flatMap littleEndian := by
  rw [encode, Text.Utf16.units, List.flatMap_singleton]

theorem encode_utf16BigEndian (t : List Char) : utf16BigEndian.encode t = swapPairs (utf16.encode t) := rfl

theorem utf16_character (k : Char) : Character utf16 (utf16.encode [k]) := by
  rw [encode_utf16_singleton]
  exact ofChar_character k

theorem encode_character (e : Encoding) (k : Char) : Character e (e.encode [k]) := by
  cases e with
  | utf8 =>
      rw [encode_utf8_singleton]
      exact utf8OfCode_character k
  | ascii =>
      change Character ascii [if k.toNat < 0x80 then k.toNat else 0x3F]
      split_ifs with hk
      · exact .ascii hk
      · exact .ascii (by decide)
  | latin1 =>
      change Character latin1 [if k.toNat < 0x100 then k.toNat else 0x3F]
      split_ifs with hk
      · exact .latin1 hk
      · exact .latin1 (by decide)
  | utf16 => exact utf16_character k
  | utf16BigEndian => exact .swapped (utf16_character k)

theorem exists_toNat (ha : a < 0x100) : ∃ k : Char, k.toNat = a :=
  ⟨Char.ofNat a, toNat_ofNat (.inl (by omega))⟩

theorem Character.exists_kept (h : Character e bs) : ∃ k, e.kept k = k ∧ e.encode [k] = bs := by
  cases e with
  | utf8 =>
      obtain ⟨k, hk⟩ := exists_utf8OfCode h
      exact ⟨k, rfl, (encode_utf8_singleton k).trans hk⟩
  | ascii =>
      cases h with
      | ascii ha =>
          obtain ⟨k, rfl⟩ := exists_toNat (Nat.lt_trans ha (by decide))
          exact ⟨k, if_pos ha, congrArg ([·]) (if_pos ha)⟩
  | latin1 =>
      cases h with
      | latin1 ha =>
          obtain ⟨k, rfl⟩ := exists_toNat ha
          exact ⟨k, if_pos ha, congrArg ([·]) (if_pos ha)⟩
  | utf16 =>
      obtain ⟨k, hk⟩ := exists_ofChar h
      exact ⟨k, rfl, (encode_utf16_singleton k).trans hk⟩
  | utf16BigEndian =>
      cases h with
      | swapped h =>
          obtain ⟨k, hk⟩ := exists_ofChar h
          exact ⟨k, rfl, congrArg swapPairs ((encode_utf16_singleton k).trans hk)⟩

theorem decode_character (e : Encoding) (k : Char) (rest : List Nat) :
    e.decode (e.encode [k] ++ rest) = e.kept k :: e.decode rest := by
  cases e with
  | utf8 =>
      rw [encode_utf8_singleton]
      exact decodeUtf8_character k rest
  | ascii =>
      have hfront : (if k.toNat < 0x80 then k.toNat else 0x3F) < 0x80 := by split_ifs <;> omega
      change (if _ < 0x80 then Char.ofNat (if k.toNat < 0x80 then k.toNat else 0x3F) else _) :: _ = _
      rw [if_pos hfront, apply_ite Char.ofNat, Char.ofNat_toNat]
      rfl
  | latin1 =>
      change Char.ofNat (if k.toNat < 0x100 then k.toNat else 0x3F) :: _ = _
      rw [apply_ite Char.ofNat, Char.ofNat_toNat]
      rfl
  | utf16 =>
      rw [encode_utf16_singleton]
      exact decodeUtf16_character k rest
  | utf16BigEndian =>
      rw [encode_utf16BigEndian, decode, (utf16_character k).swapPairs_swapPairs_append, encode_utf16_singleton]
      exact decodeUtf16_character k (swapPairs rest)

theorem encode_cons (e : Encoding) (k : Char) (t : List Char) :
    e.encode (k :: t) = e.encode [k] ++ e.encode t := by
  have hutf16 : utf16.encode (k :: t) = utf16.encode [k] ++ utf16.encode t := by
    rw [encode_utf16_singleton, encode, Text.Utf16.units, List.flatMap_cons, List.flatMap_append]
    rfl
  cases e with
  | utf8 =>
      rw [encode_utf8_singleton, encode, List.flatMap_cons]
      rfl
  | ascii => rfl
  | latin1 => rfl
  | utf16 => exact hutf16
  | utf16BigEndian =>
      rw [encode_utf16BigEndian, hutf16, (utf16_character k).swapPairs_append]
      rfl

theorem Character.byte (h : Character e bs) : ∀ b ∈ bs, b < 0x100 := by
  induction h with
  | swapped h ih => cases h <;> simp [swapPairs] at ih ⊢ <;> omega
  | _ => simp [Tail] at *; omega

theorem decode_encode (e : Encoding) (t : List Char) : e.decode (e.encode t) = t.map e.kept := by
  induction t with
  | nil => cases e <;> rfl
  | cons k t ih => rw [encode_cons, decode_character, ih, List.map_cons]

theorem wellFormed_encode (e : Encoding) (t : List Char) : WellFormed e (e.encode t) := by
  induction t with
  | nil => cases e <;> exact .nil
  | cons k t ih =>
      rw [encode_cons]
      exact .append (encode_character e k) ih

theorem WellFormed.exists_kept (h : WellFormed e bs) : ∃ t, t.map e.kept = t ∧ e.encode t = bs := by
  induction h with
  | nil => exact ⟨[], rfl, by cases e <;> rfl⟩
  | append h hr ih =>
      obtain ⟨k, hk, hbs⟩ := h.exists_kept
      obtain ⟨t, ht, hrest⟩ := ih
      refine ⟨k :: t, ?_, ?_⟩
      · rw [List.map_cons, hk, ht]
      · rw [encode_cons, hbs, hrest]

theorem WellFormed.byte (h : WellFormed e bs) : ∀ b ∈ bs, b < 0x100 := by
  induction h with
  | nil => simp
  | append h hr ih =>
      intro b hb
      obtain hb | hb := List.mem_append.mp hb
      · exact h.byte b hb
      · exact ih b hb

theorem encode_decode : e.encode (e.decode bs) = bs ↔ WellFormed e bs := by
  constructor
  · intro h
    rw [← h]
    exact wellFormed_encode e _
  · intro h
    obtain ⟨t, ht, rfl⟩ := h.exists_kept
    rw [decode_encode, ht]

theorem serializes_encode (e : Encoding) (t : List Char) : Serializes e t (e.encode t) := by
  cases e with
  | utf8 =>
      change utf8.encode t = _
      rw [String.toByteArray_ofList, List.utf8Encode, List.data_toByteArray, List.map_flatMap, encode]
      simp only [utf8OfCode_eq]
  | ascii =>
      apply List.map_congr_left
      intro k _
      exact (apply_ite Char.toNat (k.toNat < 0x80) k '?').symm
  | latin1 =>
      apply List.map_congr_left
      intro k _
      exact (apply_ite Char.toNat (k.toNat < 0x100) k '?').symm
  | utf16 => exact lowByteFirst_units t
  | utf16BigEndian =>
      change LowByteFirst _ (swapPairs (swapPairs (utf16.encode t)))
      rw [swapPairs_swapPairs]
      exact lowByteFirst_units t

open Library Session

/-- An object that stands for an encoding. -/
def Codec (s : Session) (self : Value) (e : Encoding) : Prop :=
  ∃ code, s.object? self = some (.encoding code) ∧ ofName? code = some e

def getBytes (self v : Value) : Action Value := Methods.call self "GetBytes" [v]

def getString (self v : Value) : Action Value := Methods.call self "GetString" [v]

/-- The encodings that are static members. -/
inductive Shared
  | utf8
  | ascii
  | unicode

def Shared.member : Shared → String
  | utf8 => "UTF8"
  | ascii => "ASCII"
  | unicode => "Unicode"

def Shared.path (k : Shared) : String := "Encoding." ++ k.member

def Shared.encoding : Shared → Encoding
  | utf8 => .utf8
  | ascii => .ascii
  | unicode => .utf16

def Shared.self : Shared → Value
  | utf8 => .ref 7
  | ascii => .ref 8
  | unicode => .ref 9

/-- A text becomes a new array of well-formed bytes, and what was kept of it is read from them. Any bytes are
read as a text; what is written for it are the same bytes if and only if they were well formed. -/
structure Converts (s : Session) (codec : Value) (e : Encoding) : Prop where
  writes (t : List Char) : ∃ a u bs, s.exec (getBytes codec (.text t)) = (.ok a, u) ∧ Extends s u ∧
    IsBytes u a bs ∧ Serializes e t bs ∧ WellFormed e bs ∧
    u.exec (getString codec a) = (.ok (.text (t.map e.kept)), u)
  reads {a : Value} {bs : List Nat} (h : IsBytes s a bs) : ∃ t, s.exec (getString codec a) = (.ok (.text t), s) ∧
    ∃ a' u bs', s.exec (getBytes codec (.text t)) = (.ok a', u) ∧ IsBytes u a' bs' ∧
      (bs' = bs ↔ WellFormed e bs)

variable {s t : Session} {self v : Value}

theorem Codec.kept (h : Codec s self e) (hext : Extends s t) : Codec t self e := by
  obtain ⟨code, hself, hcode⟩ := h
  obtain ⟨id, rfl, hid⟩ := exists_ref hself
  exact ⟨code, hext.kept hid, hcode⟩

theorem exec_encodingOf {code : List Char} (h : ofName? code = some e) (s : Session) :
    s.exec (Environment.encodingOf code) = (.ok e, s) := by
  rw [Environment.encodingOf, h]
  rfl

theorem encodedText_text (t : List Char) : Environment.encodedText (.text t) = pure t := by
  have hkept : (Text.codesOf t).map (fun n => if Text.isScalar n then Char.ofNat n else '?') =
      Text.charsOf (Text.codesOf t) :=
    List.map_congr_left fun n hn => if_pos (List.all_eq_true.mp (Text.all_isScalar_codesOf t) n hn)
  rw [Text.charsOf_codesOf] at hkept
  exact congrArg pure hkept

theorem exec_getBytes (h : Codec s self e) (t : List Char) :
    s.exec (getBytes self (.text t)) =
      (.ok (.ref s.store.size), s.grow (.array ((e.encode t).map fun (b : Nat) => .int b))) := by
  obtain ⟨code, hself, hcode⟩ := h
  obtain ⟨id, rfl, hid⟩ := exists_ref hself
  refine (exec_call hid rfl _).trans ?_
  change s.exec (Environment.getBytes code (.text t)) = _
  refine (exec_bind_ok (exec_notNull (by simp) s "s") _).trans ?_
  rw [encodedText_text, pure_bind]
  exact exec_bind_ok (exec_encodingOf hcode s) _

theorem exec_givenBytes (h : IsBytes s v bs) : s.exec (Environment.givenBytes v) = (.ok bs, s) := by
  rw [Environment.givenBytes, exec_bind_ok (exec_outcome (exec_rawBytes h))]
  rfl

theorem exec_getString (h : Codec s self e) (hbytes : IsBytes s v bs) :
    s.exec (getString self v) = (.ok (.text (e.decode bs)), s) := by
  obtain ⟨code, hself, hcode⟩ := h
  obtain ⟨id, rfl, hid⟩ := exists_ref hself
  have hnull : v ≠ .null := by
    obtain ⟨id, rfl⟩ := hbytes.exists_ref
    simp
  refine (exec_call hid rfl _).trans ?_
  change s.exec (Environment.getString code v) = _
  refine (exec_bind_ok (exec_notNull hnull s "bytes") _).trans ?_
  refine (exec_bind_ok (exec_givenBytes hbytes) _).trans ?_
  exact exec_bind_ok (exec_encodingOf hcode s) _

theorem isBytes_grow (h : ∀ b ∈ bs, b < 0x100) (s : Session) :
    IsBytes (s.grow (.array (bs.map fun (b : Nat) => .int b))) (.ref s.store.size) bs :=
  ⟨_, object?_grow s _, areBytes_ints h⟩

theorem Codec.converts (h : Codec s self e) : Converts s self e := by
  have hwritten (t : List Char) : IsBytes (s.grow (.array ((e.encode t).map fun (b : Nat) => .int b)))
      (.ref s.store.size) (e.encode t) := isBytes_grow (wellFormed_encode e t).byte s
  constructor
  · intro t
    refine ⟨_, _, e.encode t, exec_getBytes h t, extends_grow s _, hwritten t,
      serializes_encode e t, wellFormed_encode e t, ?_⟩
    rw [exec_getString (h.kept (extends_grow s _)) (hwritten t), decode_encode]
  · intro a bs hbytes
    refine ⟨_, exec_getString h hbytes, _, _, _, exec_getBytes h _, hwritten _, encode_decode⟩

theorem exec_valueAt (k : Shared) (s : Session) : s.exec (Catalogue.valueAt k.path) = (.ok k.self, s) := by
  have hnames : Catalogue.names k.path = ["Encoding", k.member] := by cases k <;> decide +kernel
  have hnone : Objects.enumerator? "Encoding" k.member = none := by
    rw [← Option.isNone_iff_eq_none]
    cases k <;> decide +kernel
  rw [Catalogue.valueAt, hnames]
  simp only [List.foldlM_nil, bind_pure, Catalogue.staticValue, hnone]
  cases k <;> rfl

theorem start_codec (k : Shared) (offset : Int) : Codec (Session.start offset) k.self k.encoding := by
  cases k with
  | utf8 => exact ⟨_, rfl, by decide +kernel⟩
  | ascii => exact ⟨_, rfl, by decide +kernel⟩
  | unicode => exact ⟨_, rfl, by decide +kernel⟩

/-- The three static encodings turn every text into bytes and all bytes into a text. A text comes back as it was,
in ASCII with question marks for the other characters, and bytes come back exactly if they were well formed. -/
theorem shared_converts {k : Shared} (h : Codec s k.self k.encoding) :
    s.exec (Catalogue.valueAt k.path) = (.ok k.self, s) ∧ Converts s k.self k.encoding :=
  ⟨exec_valueAt k s, h.converts⟩

def clef : Char := Char.ofNat 0x1D11E

/-- A character outside the basic plane, in UTF-16. -/
theorem shared_converts_clef : Codec (Session.start 0) (.ref 9) utf16 ∧
    (Session.start 0).exec (Catalogue.valueAt "Encoding.Unicode") = (.ok (.ref 9), Session.start 0) ∧
    ∃ a u, (Session.start 0).exec (getBytes (.ref 9) (.text [clef])) = (.ok a, u) ∧
      IsBytes u a [0x34, 0xD8, 0x1E, 0xDD] ∧ u.exec (getString (.ref 9) a) = (.ok (.text [clef]), u) := by
  have hstart : Codec (Session.start 0) (.ref 9) utf16 := start_codec .unicode 0
  obtain ⟨hvalue, hconverts⟩ := shared_converts (k := .unicode) hstart
  obtain ⟨a, u, bs, hget, -, hbytes, hserial, -, hstring⟩ := hconverts.writes [clef]
  have heq : bs = [0x34, 0xD8, 0x1E, 0xDD] := LowByteFirst.eq hserial
  subst heq
  exact ⟨hstart, hvalue, a, u, hget, hbytes, hstring⟩

end BaseLib.Encoding
