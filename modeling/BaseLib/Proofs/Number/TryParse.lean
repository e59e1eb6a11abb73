import BaseLib.Proofs.Number.Parse

namespace BaseLib.Session

open Library

variable {s : Session} {h : Nat} {x v fallback text : Value} {xs : List Value} {read : Action Value}

theorem exec_tryInto_ok (hh : s.store[h]? = some (.array (x :: xs))) (hread : s.exec read = (.ok v, s)) :
    s.exec (Numbers.tryInto (.ref h) fallback read) = (.ok (.bool true), s.put h (.array (v :: xs))) := by
  rw [Numbers.tryInto, exec_bind_ok (exec_outcome hread)]
  exact exec_bind_ok (exec_writeHolder hh v) _

theorem exec_tryInto_format {f : Failure} (hh : s.store[h]? = some (.array (x :: xs)))
    (hread : s.exec read = (.error (.failure f), s)) (hf : f.kind = .format) :
    s.exec (Numbers.tryInto (.ref h) fallback read) =
      (.ok (.bool false), s.put h (.array (fallback :: xs))) := by
  have hformat : Numbers.isFormatFailure (.failure f) = true := beq_iff_eq.mpr hf
  rw [Numbers.tryInto, exec_bind_ok (exec_outcome hread)]
  dsimp only
  rw [if_pos hformat]
  exact exec_bind_ok (exec_writeHolder hh fallback) _

theorem exec_tryInto_error {e : Fault} (fallback holder : Value) (hread : s.exec read = (.error e, s))
    (he : Numbers.isFormatFailure e = false) :
    s.exec (Numbers.tryInto holder fallback read) = (.error e, s) := by
  rw [Numbers.tryInto, exec_bind_ok (exec_outcome hread)]
  dsimp only
  rw [if_neg (by simp [he])]
  rfl

inductive IsText : Value → Prop
  | null : IsText .null
  | text (t : List Char) : IsText (.text t)

/-- Trying to parse, with the outcome of parsing: true with the value in the holder if parsing returns one, and
false with the fallback if the format is bad. -/
inductive Tries (s : Session) (h : Nat) (type : String) (fallback text : Value) : Prop
  | reads {v : Value} (parse : s.exec (Catalogue.call (type ++ ".Parse") [text]) = (.ok v, s))
    (try_ : s.exec (Catalogue.call (type ++ ".TryParse") [text, .ref h]) =
      (.ok (.bool true), s.put h (.array [v])))
  | refuses {f : Failure} (format : f.kind = .format)
    (parse : s.exec (Catalogue.call (type ++ ".Parse") [text]) = (.error (.failure f), s))
    (try_ : s.exec (Catalogue.call (type ++ ".TryParse") [text, .ref h]) =
      (.ok (.bool false), s.put h (.array [fallback])))

theorem Tries.answers {type : String} (ht : Tries s h type fallback text) :
    ∃ b, (s.exec (Catalogue.call (type ++ ".TryParse") [text, .ref h])).1 = .ok (.bool b) := by
  cases ht with
  | reads _ htry => exact ⟨true, congrArg Prod.fst htry⟩
  | refuses _ _ htry => exact ⟨false, congrArg Prod.fst htry⟩

theorem tries_number {symbols : NumberSymbols} (hsymbols : s.currentSymbols = .ok symbols)
    (hh : s.store[h]? = some (.array [x])) (t : List Char) : Tries s h "NNumber" (.int 0) (.text t) := by
  have hnull : s.symbolsOf .null = .ok symbols := hsymbols
  have hparse : s.exec (Numbers.parseNumber (.text t) .null .null) = _ := exec_parse .null hnull t
  cases hread : Number.read? t (Numbers.styleOf .null .null).1 symbols with
  | some n =>
      rw [hread] at hparse
      exact .reads hparse (exec_tryInto_ok hh hparse)
  | none =>
      rw [hread] at hparse
      exact .refuses rfl hparse (exec_tryInto_format hh hparse rfl)

theorem exec_parseNumber_symbolless {e : Fault} (he : s.currentSymbols = .error e) (t : List Char) :
    s.exec (Numbers.parseNumber (.text t) .null .null) = (.error e, s) := by
  have hnull : s.exec (notNull (.text t) "s") = (.ok (), s) := exec_notNull (by simp) s "s"
  have hsymbols : s.exec (ofExcept (s.symbolsOf .null)) = (.error e, s) := by
    rw [exec_ofExcept]
    exact congrArg (·, s) he
  rw [Numbers.parseNumber, exec_bind_ok hnull]
  dsimp only [Numbers.styleOf]
  rw [exec_get_bind, exec_bind_error hsymbols]

theorem not_format_of_symbolless {e : Fault} (he : s.currentSymbols = .error e) :
    Numbers.isFormatFailure e = false := by
  unfold currentSymbols at he
  split at he
  · split at he
    · cases he
    · cases he
      rfl
  · cases he
    rfl

theorem exec_tryParse_null (s : Session) (holder : Value) :
    s.exec (Catalogue.call "NNumber.TryParse" [.null, holder]) =
      (.error (.failure (.nullArgument "s")), s) :=
  have hparse : s.exec (Numbers.parseNumber .null .null .null) =
      (.error (.failure (.nullArgument "s")), s) := rfl
  exec_tryInto_error (.int 0) holder hparse rfl

/-- Numbers are tried as they are parsed exactly where there is a text and the current culture has its
symbols. -/
theorem tries_number_iff (hh : s.store[h]? = some (.array [x])) (htext : IsText text) :
    Tries s h "NNumber" (.int 0) text ↔ text ≠ .null ∧ ∃ symbols, s.currentSymbols = .ok symbols := by
  cases htext with
  | null =>
      refine iff_of_false (fun ht => ?_) fun hn => hn.1 rfl
      obtain ⟨b, hb⟩ := ht.answers
      have hnull := congrArg Prod.fst (exec_tryParse_null s (.ref h))
      cases hnull.symm.trans hb
  | text t =>
      refine ⟨fun ht => ⟨by simp, ?_⟩, fun ⟨_, _, hsymbols⟩ => tries_number hsymbols hh t⟩
      cases hsymbols : s.currentSymbols with
      | ok symbols => exact ⟨symbols, rfl⟩
      | error e =>
          obtain ⟨b, hb⟩ := ht.answers
          have herror := congrArg Prod.fst (exec_tryInto_error (.int 0) (.ref h)
            (exec_parseNumber_symbolless hsymbols t) (not_format_of_symbolless hsymbols))
          cases herror.symm.trans hb

theorem exec_parseBool (htext : IsText text) :
    (∃ b, s.exec (Numbers.parseBool text) = (.ok (.bool b), s)) ∨
      ∃ t, s.exec (Numbers.parseBool text) = (.error (.failure (.badBoolean t)), s) := by
  cases htext with
  | null => exact .inr ⟨_, rfl⟩
  | text t =>
      -- the empty text is not taken for true, and then nothing is read
      cases t with
      | nil => exact .inr ⟨_, rfl⟩
      | cons c t =>
          have htruthy : s.truthy (.text (c :: t)) = true := rfl
          have howner : s.exec (textOwner (.text (c :: t))) = (.ok (c :: t), s) := rfl
          rw [Numbers.parseBool, exec_get_bind, if_pos htruthy, exec_bind_ok howner]
          dsimp only
          cases Number.readBool? (Text.lower (c :: t)) with
          | some b => exact .inl ⟨b, rfl⟩
          | none => exact .inr ⟨_, rfl⟩

theorem tries_bool (hh : s.store[h]? = some (.array [x])) (htext : IsText text) :
    Tries s h "NBoolean" (.bool false) text := by
  obtain ⟨b, hparse⟩ | ⟨t, hparse⟩ := exec_parseBool (s := s) htext
  · exact .reads hparse (exec_tryInto_ok hh hparse)
  · exact .refuses rfl hparse (exec_tryInto_format hh hparse rfl)

/-- Trying a text, also a missing one, into a holder of one slot. Truth values are always tried as they are
parsed. Numbers are so exactly where there is a text and the current culture has its symbols; a missing text
is refused as an argument, and the holder keeps what it holds. -/
theorem tryParse_iff (hh : s.store[h]? = some (.array [x])) (htext : IsText text) :
    (Tries s h "NNumber" (.int 0) text ↔ text ≠ .null ∧ ∃ symbols, s.currentSymbols = .ok symbols) ∧
      Tries s h "NBoolean" (.bool false) text ∧
      s.exec (Catalogue.call "NNumber.TryParse" [.null, .ref h]) =
        (.error (.failure (.nullArgument "s")), s) :=
  ⟨tries_number_iff hh htext, tries_bool hh htext, exec_tryParse_null s (.ref h)⟩

def holding : Session := (start 0).grow (.array [.text "unset".toList])

theorem tryParse_iff_spaced :
    holding.store[13]? = some (.array [.text "unset".toList]) ∧ IsText (.text " 7 ".toList) ∧
      Tries holding 13 "NNumber" (.int 0) (.text " 7 ".toList) ∧
      Tries holding 13 "NBoolean" (.bool false) (.text " 7 ".toList) := by
  have hh : holding.store[13]? = some (.array [.text "unset".toList]) := rfl
  have htext := IsText.text " 7 ".toList
  have hsymbols : ∃ symbols, holding.currentSymbols = .ok symbols := ⟨_, rfl⟩
  obtain ⟨hnumber, hbool, -⟩ := tryParse_iff hh htext
  exact ⟨hh, htext, hnumber.mpr ⟨by simp, hsymbols⟩, hbool⟩

/-- A missing text is no text of bad format: trying to parse a number raises, and leaves the holder alone. -/
theorem null_raises :
    IsText .null ∧
      holding.exec (Catalogue.call "NNumber.TryParse" [.null, .ref 13]) =
        (.error (.failure (.nullArgument "s")), holding) ∧
      ¬ Tries holding 13 "NNumber" (.int 0) .null ∧
      (holding.exec (Catalogue.call "NBoolean.TryParse" [.null, .ref 13])).1 = .ok (.bool false) := by
  have hraises := exec_tryParse_null holding (.ref 13)
  refine ⟨.null, hraises, fun ht => ?_, rfl⟩
  obtain ⟨b, hb⟩ := ht.answers
  cases (congrArg Prod.fst hraises).symm.trans hb

end BaseLib.Session
