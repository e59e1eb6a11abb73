import BaseLib.Proofs.Session.Later

namespace BaseLib

def Value.isNamed : Value → Bool
  | symbol _ | day _ | flags _ _ => true
  | _ => false

def Content.tupleless : Content → Bool
  | tuple => false
  | pair k v => k.tupleless && v.tupleless
  | _ => true

theorem Datum.tupleless_content (offset : Int) (x : Datum) : (x.content offset).tupleless = x.tupleless := by
  induction x using layerInduction with
  | leaf x h =>
      cases x with
      | nullable | pair => cases h
      | _ => rfl
  | nullable v ih => exact ih
  | pair k v ihk ihv => rw [content, Content.tupleless, tupleless, ihk, ihv]

namespace Session

variable {s t : Session} {x y w : Value}

/-- The value refers to none but the objects that there are. -/
def IsThere (s : Session) (w : Value) : Prop := ∀ id, w = .ref id → id < s.store.size

/-- Equality meets neither a layer of `nullable` nor a foreign tuple in the value, and sees the same of it as
long as the objects stay what they are. -/
structure Settled (s : Session) (x : Value) : Prop where
  there : s.IsThere x
  tupleless : ∀ {t : Session}, Similar s t → (t.view x).tupleless = true
  layerless : ∀ {t : Session}, Similar s t → (t.view x).layerless = true
  content_eq : ∀ {t : Session}, Similar s t → t.content x = s.content x

theorem IsThere.similar (h : s.IsThere w) (hst : Similar s t) : t.IsThere w := by
  intro id hid
  obtain ⟨o, ho, -⟩ := hst.kept (Array.getElem?_eq_getElem (h id hid))
  exact (Array.getElem?_eq_some_iff.mp ho).1

theorem view_isNull_of_isThere (hw : s.IsThere w) : (s.view w).isNull = true ↔ w = .null := by
  cases w with
  | ref id =>
      obtain ⟨o, ho⟩ : ∃ o, s.store[id]? = some o := ⟨_, Array.getElem?_eq_getElem (hw id rfl)⟩
      cases o <;> simp [view, depth, viewAt, ho, Datum.isNull]
  | _ => simp [view, depth, viewAt, Datum.isNull]

theorem isThere_of_store {id : Nat} {o : Object} (h : s.store[id]? = some o) : s.IsThere (.ref id) := by
  rintro _ ⟨⟩
  exact (Array.getElem?_eq_some_iff.mp h).1

theorem IsKey.isThere (h : s.IsKey x) : s.IsThere x := by
  obtain ⟨n, h⟩ := h
  cases h with
  | plain h =>
      rintro id rfl
      cases h
  | whole h | pair h => exact isThere_of_store h
  | nullable hl => cases hl

theorem IsKey.settled (h : s.IsKey x) : s.Settled x := by
  have ⟨n, hx⟩ := h
  exact ⟨h.isThere, fun hst => viewAt_tupleless (hx.similar hst) _,
    fun hst => viewAt_layerless (hx.similar hst) _, fun hst => h.content_similar hst⟩

theorem settled_of_named (h : x.isNamed = true) : s.Settled x := by
  cases x with
  | symbol | day | flags =>
      exact ⟨fun _ hid => Value.noConfusion hid, fun _ => rfl, fun _ => rfl, fun _ => rfl⟩
  | _ => cases h

namespace Settled

theorem similar (hx : s.Settled x) (hst : Similar s t) : t.Settled x where
  there := hx.there.similar hst
  tupleless htu := hx.tupleless (hst.trans htu)
  layerless htu := hx.layerless (hst.trans htu)
  content_eq htu := (hx.content_eq (hst.trans htu)).trans (hx.content_eq hst).symm

theorem equals_iff (hx : s.Settled x) (w : Value) :
    s.equals x w = true ↔ s.content x = s.content w ∧ (s.view x).reaches (s.view w) = true :=
  Datum.equals_iff s.offset (hx.tupleless (.refl s)) _

theorem equals_eq (hx : s.Settled x) (hy : s.Settled y) : s.equals x y = (s.content x == s.content y) := by
  have hst := Similar.refl s
  rw [Bool.eq_iff_iff, beq_iff_eq]
  exact Datum.equals_iff_content s.offset (hx.tupleless hst) (hx.layerless hst) (hy.layerless hst)

theorem equals_trans (hx : s.Settled x) (hy : s.Settled y) (h : s.equals x y = true)
    (h' : s.equals y w = true) : s.equals x w = true :=
  Datum.equals_trans s.offset (hx.tupleless (.refl s)) (hy.tupleless (.refl s)) h h'

theorem hash_eq (hx : s.Settled x) : s.hash x = (s.content x).hash :=
  Datum.hash_eq s.offset _ (hx.tupleless (.refl s))

theorem hash_of_equals (hx : s.Settled x) (h : s.equals x w = true) : s.hash x = s.hash w := by
  have hcontent : (s.view x).content s.offset = (s.view w).content s.offset := ((hx.equals_iff w).mp h).1
  have hw : (s.view w).tupleless = true := by
    rw [← Datum.tupleless_content s.offset, ← hcontent, Datum.tupleless_content]
    exact hx.tupleless (.refl s)
  rw [hx.hash_eq, content, hcontent]
  exact (Datum.hash_eq s.offset _ hw).symm

theorem eq_null (hx : s.Settled x) (h : s.equals x .null = true) : x = .null := by
  have hnull : s.Settled .null := IsKey.settled ⟨1, .plain rfl⟩
  rw [hx.equals_eq hnull, ← Bool.beq_comm, ← hnull.equals_eq hx] at h
  exact (view_isNull_of_isThere hx.there).mp h

theorem answers_eq (hx : s.Settled x) (hw : s.IsThere w) :
    s.keying.answers (s.keying.token x) (s.keying.token w) = s.equals x w := by
  have hnull : s.equals .null w = true ↔ w = .null := view_isNull_of_isThere hw
  by_cases hxn : x = .null <;> by_cases hwn : w = .null
  · subst hxn hwn
    rfl
  · subst hxn
    have hfalse : s.equals .null w = false := Bool.eq_false_iff.mpr fun h => hwn (hnull.mp h)
    simp [Keying.token, keying, Keying.answers, hwn, hfalse]
  · subst hwn
    have hfalse : s.equals x .null = false := Bool.eq_false_iff.mpr fun h => hxn (hx.eq_null h)
    simp [Keying.token, keying, Keying.answers, hxn, hfalse]
  · have hhash := hx.hash_of_equals (w := w)
    simp only [Keying.token, keying, Keying.answers, hxn, hwn, beq_iff_eq, if_false]
    cases he : s.equals x w with
    | true => simp [hhash he]
    | false => simp

theorem token_eq (hx : s.Settled x) (hst : Similar s t) : t.keying.token x = s.keying.token x := by
  have hhash : t.hash x = s.hash x := by rw [(hx.similar hst).hash_eq, hx.content_eq hst, hx.hash_eq]
  simp [Keying.token, keying, hhash]

end Settled

end Session

end BaseLib
