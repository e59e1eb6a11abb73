import BaseLib.Library.Catalogue
import BaseLib.Proofs.Session.Built
import BaseLib.Proofs.Session.Exec

namespace BaseLib.Session

open Library

variable {s : Session} {layers : Bool} {n m l : Nat} {v x y z : Value}

theorem hashAt_int {d : Nat} (hn : ∀ w, s.object? v ≠ some (.nullable w))
    (hd : ∀ k, v ≠ .day k) (hf : ∀ t k, v ≠ .flags t k) :
    s.exec (Objects.hashAt (d + 1) v) = (.ok (.int (s.hash v)), s) := by
  rw [Objects.hashAt, exec_get_bind]
  split
  · exact absurd rfl (hd _)
  · exact absurd rfl (hf _ _)
  · rename_i hw
    exact absurd hw (hn _)
  · rfl

theorem hashAt_eq (h : Built s layers n v) {d : Nat} (hd : n ≤ d) :
    s.exec (Objects.hashAt d v) = (.ok (.int (s.content v).hash), s) := by
  induction h generalizing d with
  | @plain n v h =>
      obtain ⟨d, rfl⟩ : ∃ k, d = k + 1 := ⟨d - 1, by omega⟩
      have hb : Built s layers 1 v := .plain h
      rw [← hash_eq hb]
      cases v <;> first | rfl | cases h
  | @whole n id o c h hc =>
      obtain ⟨d, rfl⟩ : ∃ k, d = k + 1 := ⟨d - 1, by omega⟩
      have hb : Built s layers 1 (.ref id) := .whole h hc
      rw [← hash_eq hb]
      refine hashAt_int (fun w hw => ?_) (by simp) (by simp)
      cases h.symm.trans hw
      cases hc
  | @nullable n id v hl h hv ih =>
      obtain ⟨d, rfl⟩ : ∃ k, d = k + 1 := ⟨d - 1, by omega⟩
      rw [content_nullable h hv, ← ih (d := d) (by omega), Objects.hashAt, exec_get_bind]
      simp only [object?, h]
  | @pair n id k w h hk hv =>
      obtain ⟨d, rfl⟩ : ∃ k, d = k + 1 := ⟨d - 1, by omega⟩
      rw [← hash_eq (.pair (n := n) h hk hv)]
      refine hashAt_int (fun w hw => ?_) (by simp) (by simp)
      cases h.symm.trans hw

theorem hashOf_eq (h : Built s layers n v) :
    s.exec (Objects.hashOf v) = (.ok (.int (s.content v).hash), s) := by
  rw [Objects.hashOf, exec_get_bind]
  exact hashAt_eq h.bound le_rfl

/-- The library says that two values are equal. -/
def Equal (s : Session) (x y : Value) : Prop :=
  s.exec (Catalogue.call "NObject.GenericEquals" [x, y]) = (.ok (.bool true), s)

/-- The library says that two values are one key. -/
def OneKey (s : Session) (x y : Value) : Prop :=
  s.exec (Catalogue.call "canonical_equal" [x, y]) = (.ok (.bool true), s)

theorem equal_iff : s.Equal x y ↔ s.equals x y = true := by
  show ((Except.ok (Value.bool (s.equals x y)), s) : Except Fault Value × Session) = _ ↔ _
  simp

theorem oneKey_iff : s.OneKey x y ↔ Operators.sameKey s x y = true := by
  show ((Except.ok (Value.bool (Operators.sameKey s x y)), s) :
    Except Fault Value × Session) = _ ↔ _
  simp

/-- Values that are equal have one hash, an integer of 32 bits. -/
theorem hash_of_equal (hx : Built s true n x) (hy : Built s true m y)
    (h : s.Equal x y) :
    ∃ k, Word.InRange k ∧
      s.exec (Catalogue.call "NObject.GenericGetHashCode" [x]) = (.ok (.int k), s) ∧
      s.exec (Catalogue.call "NObject.GenericGetHashCode" [y]) = (.ok (.int k), s) := by
  obtain ⟨hc, -⟩ := (equals_iff hx y).mp (equal_iff.mp h)
  refine ⟨(s.content x).hash, Content.hash_inRange _, hashOf_eq hx, ?_⟩
  rw [hc]
  exact hashOf_eq hy

/-- Some values that are built up, two of them equal. -/
def sample : Session :=
  { start 0 with
    store := #[.timeSpan .zero, .nullable (.int 1), .pair (.ref 1) (.ref 0),
      .pair (.double ⟨0x3FF0000000000000⟩) (.ref 0), .nullable (.ref 0)] }

theorem hash_of_equal_sample : ∃ k, Word.InRange k ∧
    sample.exec (Catalogue.call "NObject.GenericGetHashCode" [.ref 2]) = (.ok (.int k), sample) ∧
    sample.exec (Catalogue.call "NObject.GenericGetHashCode" [.ref 3]) = (.ok (.int k), sample) :=
  hash_of_equal (n := 3) (m := 2)
    (.pair rfl (.nullable rfl rfl (.plain rfl)) (.whole rfl rfl))
    (.pair rfl (.plain rfl) (.whole rfl rfl)) rfl

theorem view_isNull (h : Built s layers n v) : (s.view v).isNull = true ↔ v = .null := by
  cases h with
  | plain h => cases v <;> simp_all [Value.isPlain, view, depth, viewAt, Datum.isNull]
  | @whole _ id o c h hc =>
      cases o <;> simp_all [Object.whole?, view, depth, viewAt, Datum.isNull]
  | nullable _ h _ => simp [view, depth, viewAt, h, Datum.isNull]
  | pair h _ _ => simp [view, depth, viewAt, h, Datum.isNull]

theorem sameKey_iff (hx : Built s layers n x) (hy : Built s layers m y) :
    Operators.sameKey s x y = true ↔ s.equals x y = true ∧ (y = .null → x = .null) := by
  have hnull : s.equals .null y = true ↔ y = .null := view_isNull hy
  rw [Operators.sameKey, Keying.token, Keying.token]
  by_cases hxn : x = .null <;> by_cases hyn : y = .null
  · subst hxn hyn
    simp [keying, Keying.answers, hnull]
  · subst hxn
    simp [keying, Keying.answers, hnull, hyn]
  · simp [keying, Keying.answers, hxn, hyn]
  · have hh (h : s.equals x y = true) : s.hash x = s.hash y := by
      rw [hash_eq hx, hash_eq hy, ((equals_iff hx y).mp h).1]
    simpa [keying, Keying.answers, hxn, hyn] using hh

/-- Equality is reflexive and transitive. It turns round exactly where the right value reaches back to
the left one, and equal values are one key unless only the right one is null itself. -/
theorem equal_preorder (hx : Built s true n x) (hy : Built s true m y) :
    s.Equal x x ∧ (s.Equal x y → s.Equal y z → s.Equal x z) ∧
      (s.Equal x y → (s.Equal y x ↔ (s.view y).reaches (s.view x) = true)) ∧
      (s.OneKey x y ↔ s.Equal x y ∧ (y = .null → x = .null)) := by
  have ht := viewAt_tupleless hx s.depth
  simp only [equal_iff, oneKey_iff, sameKey_iff hx hy]
  refine ⟨Datum.equals_refl s.offset ht, fun h h' => ?_, fun h => ?_, trivial⟩
  · exact Datum.equals_trans s.offset ht (viewAt_tupleless hy _) h h'
  · exact Datum.equals_symm_iff s.offset ht (viewAt_tupleless hy _) h

theorem equal_preorder_sample :
    sample.Equal (.ref 4) (.ref 4) ∧
      (sample.Equal (.ref 4) (.ref 0) → sample.Equal (.ref 0) (.ref 0) →
        sample.Equal (.ref 4) (.ref 0)) ∧
      (sample.Equal (.ref 4) (.ref 0) → (sample.Equal (.ref 0) (.ref 4) ↔
        (sample.view (.ref 0)).reaches (sample.view (.ref 4)) = true)) ∧
      (sample.OneKey (.ref 4) (.ref 0) ↔
        sample.Equal (.ref 4) (.ref 0) ∧ ((.ref 0 : Value) = .null → (.ref 4 : Value) = .null)) :=
  equal_preorder (n := 2) (m := 1) (.nullable rfl rfl (.whole rfl rfl)) (.whole rfl rfl)

/-- A duration in a layer is equal to the duration, but not the other way round. -/
theorem not_equal_symm : sample.Equal (.ref 4) (.ref 0) ∧ ¬ sample.Equal (.ref 0) (.ref 4) :=
  ⟨rfl, fun h => by cases (equal_iff.mp h : false = true)⟩

end BaseLib.Session
