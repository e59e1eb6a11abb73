import BaseLib.Library.Streams
import BaseLib.Proofs.Session.Exec

namespace BaseLib.ByteBuffer

/-- The data has been written at the position: it stands there, a gap before it holds zeros, everything else is
as it was, and the position is behind it. -/
structure Written (m : ByteBuffer) (data : List Nat) (m' : ByteBuffer) : Prop where
  position : m'.position = m.position + data.length
  length : m'.length = max m.length m'.position
  stored : ∀ i < data.length, m'.bytes[m.position + i]? = data[i]?
  filled : ∀ i, m.length ≤ i → i < m.position → m'.bytes[i]? = some 0
  kept : ∀ i < m.length, i < m.position ∨ m'.position ≤ i → m'.bytes[i]? = m.bytes[i]?

def Fillable (m : ByteBuffer) : Prop := m.position ≤ m.length + Word.maxSize

variable {m m' : ByteBuffer} {data : List Nat} {i : Nat}

@[simp]
theorem overwrite_position (m : ByteBuffer) (data : List Nat) :
    (m.overwrite data).position = m.position + data.length := rfl

@[simp]
theorem overwrite_length (m : ByteBuffer) (data : List Nat) :
    (m.overwrite data).length = max m.length (m.position + data.length) := by
  simp only [length, overwrite, List.length_append, List.length_take, List.length_drop, List.length_replicate]
  omega

theorem overwrite_getElem? (m : ByteBuffer) (data : List Nat) (i : Nat) :
    (m.overwrite data).bytes[i]? =
      if i < m.position then if i < m.length then m.bytes[i]? else some 0
      else if i < m.position + data.length then data[i - m.position]? else m.bytes[i]? := by
  have hfilled : m.position ≤ (m.bytes ++ List.replicate (m.position - m.bytes.length) 0).length := by
    simp only [List.length_append, List.length_replicate]
    omega
  by_cases hi : i < m.position
  · rw [if_pos hi, overwrite, List.append_assoc,
      List.getElem?_append_left (by rw [List.length_take, Nat.min_eq_left hfilled]; exact hi),
      List.getElem?_take_of_lt hi]
    by_cases hlength : i < m.length
    · rw [if_pos hlength, List.getElem?_append_left hlength]
    · have hle : m.bytes.length ≤ i := Nat.le_of_not_lt hlength
      rw [if_neg hlength, List.getElem?_append_right hle, List.getElem?_replicate, if_pos (by omega)]
  · rw [if_neg hi, overwrite, List.append_assoc,
      List.getElem?_append_right (by rw [List.length_take, Nat.min_eq_left hfilled]; omega),
      List.length_take, Nat.min_eq_left hfilled]
    by_cases hdata : i < m.position + data.length
    · rw [if_pos hdata, List.getElem?_append_left (by omega)]
    · rw [if_neg hdata, List.getElem?_append_right (by omega), List.getElem?_drop,
        show m.position + data.length + (i - m.position - data.length) = i by omega]
      by_cases hlength : i < m.length
      · exact List.getElem?_append_left hlength
      · have hlength : m.bytes.length ≤ i := Nat.le_of_not_lt hlength
        rw [List.getElem?_eq_none hlength]
        apply List.getElem?_eq_none
        simp only [List.length_append, List.length_replicate]
        omega

theorem written_iff : Written m data m' ↔ m' = m.overwrite data := by
  constructor
  · intro h
    have hlength : m'.length = (m.overwrite data).length := by rw [overwrite_length, h.length, h.position]
    have hbytes : m'.bytes = (m.overwrite data).bytes := by
      apply List.ext_getElem?
      intro i
      rw [overwrite_getElem?]
      split
      · split
        · rename_i hi hlt
          exact h.kept i hlt (.inl hi)
        · rename_i hi hle
          exact h.filled i (Nat.le_of_not_lt hle) hi
      · rename_i hi
        split
        · have hstored := h.stored (i - m.position) (by omega)
          rwa [Nat.add_sub_cancel' (Nat.le_of_not_lt hi)] at hstored
        · rename_i hdata
          by_cases hlt : i < m.length
          · exact h.kept i hlt (.inr (by rw [h.position]; omega))
          · have hle : m'.bytes.length ≤ i := by
              rw [show m'.bytes.length = m'.length from rfl, hlength, overwrite_length]
              omega
            rw [List.getElem?_eq_none hle, List.getElem?_eq_none (Nat.le_of_not_lt hlt)]
    rcases m' with ⟨bytes, position⟩
    exact (ByteBuffer.mk.injEq _ _ _ _).mpr ⟨hbytes, h.position⟩
  · rintro rfl
    refine ⟨overwrite_position m data, by simp, fun i hi => ?_, fun i hle hi => ?_, fun i hlt hi => ?_⟩
    · rw [overwrite_getElem?, if_neg (by omega), if_pos (by omega), Nat.add_sub_cancel_left]
    · rw [overwrite_getElem?, if_pos hi, if_neg (by omega)]
    · rw [overwrite_position] at hi
      rw [overwrite_getElem?]
      by_cases hpos : i < m.position
      · rw [if_pos hpos, if_pos hlt]
      · rw [if_neg hpos, if_neg (by omega)]

theorem write_of_fillable (h : m.Fillable) (data : List Nat) : m.write data = .ok (m.overwrite data) :=
  if_neg (Nat.not_lt.mpr h)

theorem write_of_not_fillable (h : ¬m.Fillable) (data : List Nat) : m.write data = .error .tooLarge :=
  if_pos (Nat.not_le.mp h)

theorem fillable_end (bytes : List Nat) : (⟨bytes, bytes.length⟩ : ByteBuffer).Fillable := Nat.le_add_right _ _

theorem overwrite_end (bytes data : List Nat) :
    (⟨bytes, bytes.length⟩ : ByteBuffer).overwrite data = ⟨bytes ++ data, (bytes ++ data).length⟩ := by
  simp [overwrite]

end BaseLib.ByteBuffer

namespace BaseLib.Session

open Library

variable {s : Session} {vs : List Value} {bs : List Nat} {v : Value}

def AreBytes (vs : List Value) (bs : List Nat) : Prop :=
  vs.map Value.asInt? = bs.map (fun (b : Nat) => some (b : Int)) ∧ ∀ b ∈ bs, b < 0x100

theorem areBytes_nil : AreBytes [] bs ↔ bs = [] := by
  constructor
  · rintro ⟨h, -⟩
    simpa using h.symm
  · rintro rfl
    simp [AreBytes]

theorem areBytes_cons : AreBytes (v :: vs) bs ↔
    ∃ b rest, bs = b :: rest ∧ v.asInt? = some (b : Int) ∧ b < 0x100 ∧ AreBytes vs rest := by
  constructor
  · rintro ⟨h, hb⟩
    rcases bs with _ | ⟨b, rest⟩
    · cases h
    · obtain ⟨hv, hvs⟩ := List.cons.inj h
      obtain ⟨hb, hrest⟩ := List.forall_mem_cons.mp hb
      exact ⟨b, rest, rfl, hv, hb, hvs, hrest⟩
  · rintro ⟨b, rest, rfl, hv, hb, hvs, hrest⟩
    exact ⟨by simp [hv, hvs], List.forall_mem_cons.mpr ⟨hb, hrest⟩⟩

theorem AreBytes.byte_of_mem (h : AreBytes vs bs) (hv : v ∈ vs) :
    ∃ b : Nat, b < 0x100 ∧ v.asInt? = some (b : Int) := by
  have hmem : v.asInt? ∈ bs.map fun (b : Nat) => some (b : Int) := h.1 ▸ List.mem_map_of_mem hv
  obtain ⟨b, hb, heq⟩ := List.mem_map.mp hmem
  exact ⟨b, h.2 b hb, heq.symm⟩

theorem areBytes_ints (h : ∀ b ∈ bs, b < 0x100) : AreBytes (bs.map fun (b : Nat) => .int b) bs :=
  ⟨by simp [Value.asInt?, Value.integer?], h⟩

theorem byte?_eq_some {n : Int} {b : Nat} : ByteBuffer.byte? n = some b ↔ n = b ∧ b < 0x100 := by
  rw [ByteBuffer.byte?]
  split
  · rw [Option.some.injEq]
    omega
  · rw [iff_false_left (by simp)]
    omega

section

variable {n : Int} {b : Nat}

theorem bytesOf_byte (hv : v.asInt? = some (b : Int)) (hb : b < 0x100) :
    Streams.bytesOf (v :: vs) = (Streams.bytesOf vs).map (b :: ·) := by
  rw [Streams.bytesOf]
  simp only [hv, byte?_eq_some.mpr ⟨rfl, hb⟩]
  cases Streams.bytesOf vs <;> rfl

theorem bytesOf_noByte (hv : v.asInt? = some n) (hn : ByteBuffer.byte? n = none) :
    Streams.bytesOf (v :: vs) = .error .badValue := by
  simp only [Streams.bytesOf, hv, hn]

theorem bytesOf_noInt (hv : v.asInt? = none) : Streams.bytesOf (v :: vs) = .error .wrongType := by
  simp only [Streams.bytesOf, hv]

end

theorem bytesOf_of_areBytes (h : AreBytes vs bs) : Streams.bytesOf vs = .ok bs := by
  induction vs generalizing bs with
  | nil =>
      rw [areBytes_nil.mp h]
      rfl
  | cons v vs ih =>
      obtain ⟨b, rest, rfl, hv, hb, hrest⟩ := areBytes_cons.mp h
      rw [bytesOf_byte hv hb, ih hrest]
      rfl

theorem areBytes_of_bytesOf (h : Streams.bytesOf vs = .ok bs) : AreBytes vs bs := by
  induction vs generalizing bs with
  | nil =>
      rw [areBytes_nil]
      exact (Except.ok.inj h).symm
  | cons v vs ih =>
      cases hv : v.asInt? with
      | none =>
          rw [bytesOf_noInt hv] at h
          cases h
      | some n =>
          cases hn : ByteBuffer.byte? n with
          | none =>
              rw [bytesOf_noByte hv hn] at h
              cases h
          | some b =>
              obtain ⟨rfl, hb⟩ := byte?_eq_some.mp hn
              rw [bytesOf_byte hv hb] at h
              cases hvs : Streams.bytesOf vs with
              | error e =>
                  rw [hvs] at h
                  cases h
              | ok rest =>
                  rw [hvs] at h
                  cases h
                  exact areBytes_cons.mpr ⟨b, rest, rfl, hv, hb, ih hvs⟩

theorem bytesOf_badValue (hints : ∀ v ∈ vs, (v.asInt?).isSome) (h : ¬∃ bs, AreBytes vs bs) :
    Streams.bytesOf vs = .error .badValue := by
  induction vs with
  | nil => exact absurd ⟨[], areBytes_nil.mpr rfl⟩ h
  | cons v vs ih =>
      obtain ⟨hv, hints⟩ := List.forall_mem_cons.mp hints
      obtain ⟨n, hv⟩ := Option.isSome_iff_exists.mp hv
      cases hn : ByteBuffer.byte? n with
      | none => exact bytesOf_noByte hv hn
      | some b =>
          obtain ⟨rfl, hb⟩ := byte?_eq_some.mp hn
          have hvs : ¬∃ bs, AreBytes vs bs := by
            rintro ⟨rest, hrest⟩
            exact h ⟨b :: rest, areBytes_cons.mpr ⟨b, rest, rfl, hv, hb, hrest⟩⟩
          rw [bytesOf_byte hv hb, ih hints hvs]
          rfl

theorem exec_needBytes (h : AreBytes vs bs) (s : Session) : s.exec (Streams.needBytes vs) = (.ok bs, s) := by
  rw [Streams.needBytes, exec_ofExcept, bytesOf_of_areBytes h]
  rfl

def IsBytes (s : Session) (v : Value) (bs : List Nat) : Prop :=
  ∃ items, s.object? v = some (.array items) ∧ AreBytes items bs

theorem IsBytes.exists_ref (h : IsBytes s v bs) : ∃ id, v = .ref id := by
  obtain ⟨items, h, -⟩ := h
  obtain ⟨id, rfl, -⟩ := Session.exists_ref h
  exact ⟨id, rfl⟩

theorem exec_rawBytes (h : IsBytes s v bs) : s.exec (Streams.rawBytes v) = (.ok bs, s) := by
  obtain ⟨id, rfl⟩ := h.exists_ref
  obtain ⟨items, hitems, hbytes⟩ := h
  simp only [Streams.rawBytes, Value.asInt?, Value.integer?, exec_get_bind, hitems, exec_needBytes hbytes]

section

variable {id : Nat} {m : ByteBuffer}

theorem exec_send_write (h : s.store[id]? = some (.memory m)) (data : List Nat) :
    s.exec (Streams.send (.ref id) data) =
      s.exec (do assign id (.memory (← ofExcept ((m.write data).mapError .misuse)))) := by
  rw [Streams.send, exec_get_bind, Session.depth, Streams.sendAt, exec_get_bind]
  simp only [object?, h]

theorem exec_send (h : s.store[id]? = some (.memory m)) (hfit : m.Fillable) (data : List Nat) :
    s.exec (Streams.send (.ref id) data) = (.ok (), s.put id (.memory (m.overwrite data))) := by
  rw [exec_send_write h, ByteBuffer.write_of_fillable hfit]
  rfl

theorem exec_send_tooLarge (h : s.store[id]? = some (.memory m)) (hfit : ¬m.Fillable) (data : List Nat) :
    s.exec (Streams.send (.ref id) data) = (.error (.misuse .tooLarge), s) := by
  rw [exec_send_write h, ByteBuffer.write_of_not_fillable hfit]
  rfl

end

end BaseLib.Session
