import BaseLib.Proofs.Collection.Table
import BaseLib.Proofs.Session.Equality

namespace BaseLib.Session

variable {s t : Session} {x y : Value}

def IsKey (s : Session) (x : Value) : Prop := ∃ n, Built s false n x

def tokenContent (s : Session) : Token Value → Content
  | .null => .null
  | .keyed _ x => s.content x

def IsKeyToken (s : Session) (a : Token Value) : Prop := ∃ x, s.IsKey x ∧ a = s.keying.token x

theorem IsKey.isKeyToken (h : s.IsKey x) : s.IsKeyToken (s.keying.token x) := ⟨x, h, rfl⟩

theorem equal_iff_content (hx : s.IsKey x) (hy : s.IsKey y) :
    s.Equal x y ↔ s.content x = s.content y := by
  obtain ⟨n, hx⟩ := hx
  obtain ⟨m, hy⟩ := hy
  rw [equal_iff, equals_iff_content hx hy]

theorem eq_null_of_content (hx : s.IsKey x) (h : s.content x = .null) : x = .null := by
  obtain ⟨n, hx⟩ := hx
  have hn : Built s false 1 .null := .plain rfl
  have he := (equals_iff_content hn hx).mpr h.symm
  exact (view_isNull hx).mp he

theorem tokenContent_token (s : Session) (x : Value) :
    s.tokenContent (s.keying.token x) = s.content x := by
  rw [Keying.token, keying]
  by_cases h : x = .null
  · subst h
    rfl
  · simp [h, tokenContent]

theorem sameKey_iff_content (hx : s.IsKey x) (hy : s.IsKey y) :
    Library.Operators.sameKey s x y = true ↔ s.content x = s.content y := by
  obtain ⟨n, hbx⟩ := hx
  obtain ⟨m, hby⟩ := hy
  rw [sameKey_iff hbx hby, equals_iff_content hbx hby]
  refine and_iff_left_of_imp fun h hn => eq_null_of_content ⟨n, hbx⟩ ?_
  rw [h, hn]
  rfl

theorem classifies (s : Session) : s.keying.Classifies s.IsKeyToken s.tokenContent := by
  refine ⟨?_⟩
  rintro _ _ ⟨x, hx, rfl⟩ ⟨y, hy, rfl⟩
  rw [tokenContent_token, tokenContent_token]
  exact sameKey_iff_content hx hy

theorem IsKey.similar (hst : Similar s t) (h : s.IsKey x) : t.IsKey x := by
  obtain ⟨n, h⟩ := h
  exact ⟨n, h.similar hst⟩

theorem IsKey.content_similar (hst : Similar s t) (h : s.IsKey x) : t.content x = s.content x := by
  obtain ⟨n, h⟩ := h
  exact Session.content_similar hst h

theorem token_of_content (h : s.IsKey x) (h' : t.IsKey x) (hc : t.content x = s.content x) :
    s.keying.token x = t.keying.token x := by
  obtain ⟨n, h⟩ := h
  obtain ⟨m, h'⟩ := h'
  have hh : t.hash x = s.hash x := by rw [hash_eq h', hc, hash_eq h]
  simp [Keying.token, keying, hh]

theorem Extends.similar (h : Extends s t) : Similar s t :=
  ⟨h.offset, fun ho => ⟨_, h.kept ho, rfl, fun _ => rfl⟩⟩

/-- An object that equality takes as a whole can be exchanged for one that it takes as the same. -/
theorem similar_put {id : Nat} {o : Object} (h : s.store[id]? = some o) (o' : Object)
    (hw : o'.whole? s.offset id = o.whole? s.offset id) (hn : o.whole? s.offset id ≠ none) :
    Similar s (s.put id o') := by
  refine ⟨rfl, fun {i p} hp => ?_⟩
  by_cases hi : i = id
  · subst hi
    obtain rfl : o = p := Option.some_inj.mp (h.symm.trans hp)
    exact ⟨o', store_put h o', hw, fun hc => absurd hc hn⟩
  · exact ⟨p, (store_put_ne hi o').trans hp, rfl, fun _ => rfl⟩

end BaseLib.Session
