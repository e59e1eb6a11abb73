import BaseLib.Proofs.Session.Exec

namespace BaseLib

open Text

inductive Object.Alike : Object → Object → Prop
  | same (o : Object) : Alike o o
  | memory (b b' : ByteBuffer) : Alike (.memory b) (.memory b')
  | builder {x y : Buffer} (h : y.codes = x.codes) : Alike (.builder x) (.builder y)

namespace Session

structure Alike (s t : Session) : Prop where
  size : t.store.size = s.store.size
  kept : ∀ {id : Nat} {o : Object}, s.store[id]? = some o → ∃ o', t.store[id]? = some o' ∧ o.Alike o'

variable {s t : Session}

theorem alike_of_store (h : t.store = s.store) : Alike s t := ⟨by rw [h], fun ho => ⟨_, h ▸ ho, .same _⟩⟩

theorem alike_put {id : Nat} {o o' : Object} (h : s.store[id]? = some o) (ho : o.Alike o') :
    Alike s (s.put id o') := by
  refine ⟨by simp [put], fun {i p} hp => ?_⟩
  by_cases hi : i = id
  · subst hi
    cases h.symm.trans hp
    exact ⟨o', store_put h o', ho⟩
  · exact ⟨p, (store_put_ne hi o').trans hp, .same p⟩

theorem alike_flatten {id : Nat} {x : Buffer} (h : s.store[id]? = some (.builder x)) :
    Alike s (s.put id (.builder x.flatten)) := alike_put h (.builder (Buffer.codes_flatten x))

namespace Alike

theorem absent (h : Alike s t) {id : Nat} (hs : s.store[id]? = none) : t.store[id]? = none := by
  rw [Array.getElem?_eq_none_iff] at hs ⊢
  rwa [h.size]

/-- What a value refers to is the same, unless both times it is a stream or both times a builder. -/
theorem object? (h : Alike s t) (v : Value) : t.object? v = s.object? v ∨
    (∃ b b', s.object? v = some (.memory b) ∧ t.object? v = some (.memory b')) ∨
    ∃ x y, s.object? v = some (.builder x) ∧ t.object? v = some (.builder y) := by
  cases v with
  | ref id =>
      cases hs : s.store[id]? with
      | none => exact .inl ((h.absent hs).trans hs.symm)
      | some o =>
          obtain ⟨o', ho', hoo'⟩ := h.kept hs
          cases hoo' with
          | same => exact .inl (ho'.trans hs.symm)
          | memory b b' => exact .inr (.inl ⟨b, b', hs, ho'⟩)
          | builder => exact .inr (.inr ⟨_, _, hs, ho'⟩)
  | _ => exact .inl rfl

theorem codes_buffer (h : Alike s t) (id : Nat) : (t.buffer id).codes = (s.buffer id).codes := by
  cases hs : s.store[id]? with
  | none => simp only [buffer, hs, h.absent hs]
  | some o =>
      obtain ⟨o', ho', hoo'⟩ := h.kept hs
      cases hoo' with
      | same => simp only [buffer, hs, ho']
      | memory => simp only [buffer, hs, ho']
      | builder hxy => simp only [buffer, hs, ho', hxy]

theorem forms (h : Alike s t) (o : Object) : t.forms o = s.forms o := by
  unfold Session.forms
  split <;> first | rfl | rw [h.codes_buffer]

theorem viewAt (h : Alike s t) (d : Nat) (v : Value) : t.viewAt d v = s.viewAt d v := by
  induction d generalizing v with
  | zero => simp only [Session.viewAt, h.size]
  | succ d ih =>
      have hd : t.viewAt d = s.viewAt d := funext ih
      cases v with
      | ref id =>
          cases hs : s.store[id]? with
          | none => simp only [Session.viewAt, hs, h.absent hs]
          | some o =>
              obtain ⟨o', ho', hoo'⟩ := h.kept hs
              cases hoo' with
              | same => cases o <;> simp only [Session.viewAt, hs, ho', hd, h.forms]
              | memory => simp only [Session.viewAt, hs, ho', Session.forms, Object.type, Object.isRooted]
              | builder hxy =>
                  simp only [Session.viewAt, hs, ho', Session.forms, Object.type, hxy]
      | _ => rfl

theorem view (h : Alike s t) (v : Value) : t.view v = s.view v := by
  rw [Session.view, depth, h.size, h.viewAt]
  rfl

theorem display (h : Alike s t) (v : Value) : t.display v = s.display v := by
  rw [Session.display, h.view, Session.display]

theorem symbolsAt? (h : Alike s t) (v : Value) : t.symbolsAt? v = s.symbolsAt? v := by
  obtain ho | ⟨_, _, ho, ho'⟩ | ⟨_, _, ho, ho'⟩ := h.object? v <;>
    simp only [Session.symbolsAt?, *]

theorem currentSymbols (h : Alike s t) : t.currentSymbols = s.currentSymbols := by
  obtain ho | ⟨_, _, ho, ho'⟩ | ⟨_, _, ho, ho'⟩ := h.object? (.ref currentCulture) <;>
    simp only [Session.currentSymbols, h.symbolsAt?, *]

theorem symbolsOf (h : Alike s t) (provider : Value) : t.symbolsOf provider = s.symbolsOf provider := by
  obtain ho | ⟨_, _, ho, ho'⟩ | ⟨_, _, ho, ho'⟩ := h.object? provider <;>
    simp only [Session.symbolsOf, h.symbolsAt?, h.currentSymbols, *]

theorem formatNumber (h : Alike s t) (v : Value) (fmt : List Char) (provider : Value) :
    t.formatNumber v fmt provider = s.formatNumber v fmt provider := by
  rw [Session.formatNumber, h.symbolsOf]
  rfl

theorem formatItem (h : Alike s t) (provider v : Value) (fmt : List Nat) :
    t.formatItem provider v fmt = s.formatItem provider v fmt := by
  obtain ho | ⟨_, _, ho, ho'⟩ | ⟨_, _, ho, ho'⟩ := h.object? v <;>
    simp only [Session.formatItem, h.formatNumber, h.symbolsOf, h.display, *]

theorem expandFormat (h : Alike s t) (provider fmt : Value) (args : List Value) :
    t.expandFormat provider fmt args = s.expandFormat provider fmt args := by
  have hitem : t.formatItem provider = s.formatItem provider :=
    funext fun v => funext fun f => h.formatItem provider v f
  unfold Session.expandFormat
  rw [hitem]

theorem formatArguments (h : Alike s t) (rest : List Value) :
    t.formatArguments rest = s.formatArguments rest := by
  unfold Session.formatArguments
  split
  · rename_i v
    obtain ho | ⟨_, _, ho, ho'⟩ | ⟨_, _, ho, ho'⟩ := h.object? v <;> simp only [*]
  · rfl

theorem isProvider (h : Alike s t) (v : Value) : t.isProvider v = s.isProvider v := by
  obtain ho | ⟨_, _, ho, ho'⟩ | ⟨_, _, ho, ho'⟩ := h.object? v <;>
    simp only [Session.isProvider, *]

theorem formatParts (h : Alike s t) (args : List Value) : t.formatParts args = s.formatParts args := by
  unfold Session.formatParts
  simp only [h.isProvider, h.formatArguments]

theorem formatCall (h : Alike s t) (args : List Value) : t.formatCall args = s.formatCall args := by
  unfold Session.formatCall
  simp only [h.formatParts, h.expandFormat]

theorem written (h : Alike s t) (v : Value) (args : List Value) : t.written v args = s.written v args := by
  unfold Session.written
  rw [h.display, h.formatCall]

end Alike

end Session

end BaseLib
