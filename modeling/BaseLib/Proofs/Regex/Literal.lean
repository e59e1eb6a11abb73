import BaseLib.Library.Catalogue
import BaseLib.Proofs.Regex.Escape
import BaseLib.Proofs.Regex.Replace
import BaseLib.Proofs.Text.Separators

namespace BaseLib.Regex

open Library Session

variable {p t : List Char} {text : Array Char}

def literally (p : List Char) : Program := ⟨Pattern.ofList (p.map literalOf), 0, []⟩

theorem run_literalOf (c : Char) (pos : Nat) (marks : Marks) (k : Continuation) :
    (literalOf c).run text pos marks k = if text[pos]? = some c then k (pos + 1) marks else none := by
  rw [literalOf, Pattern.run]
  cases h : text[pos]? with
  | none => rfl
  | some d =>
      have hd : (CharTest.literal .exact c.toNat false).holds d = decide (d = c) := by
        simp [CharTest.holds, Folding.accepted, Folding.fold, Char.toNat_inj]
      simp [hd]

theorem isPrefixOf_drop_cons (c : Char) (p t : List Char) (pos : Nat) :
    (c :: p).isPrefixOf (t.drop pos) = (decide (t[pos]? = some c) && p.isPrefixOf (t.drop (pos + 1))) := by
  by_cases h : pos < t.length
  · rw [List.drop_eq_getElem_cons h, List.getElem?_eq_getElem h, List.isPrefixOf_cons_cons]
    by_cases hc : c = t[pos] <;> simp [hc, Ne.symm]
  · have hdrop : t.drop pos = [] := List.drop_eq_nil_of_le (by omega)
    have hget : t[pos]? = none := List.getElem?_eq_none (by omega)
    simp [hdrop, hget]

theorem run_literals (p : List Char) (pos : Nat) (marks : Marks) (k : Continuation) :
    (Pattern.ofList (p.map literalOf)).run text pos marks k =
      if p.isPrefixOf (text.toList.drop pos) then k (pos + p.length) marks else none := by
  induction p generalizing pos with
  | nil => rfl
  | cons c p ih =>
      have hseq : (Pattern.ofList ((c :: p).map literalOf)).run text pos marks k =
          (literalOf c).run text pos marks fun pos' marks' =>
            (Pattern.ofList (p.map literalOf)).run text pos' marks' k := by
        cases p <;> rfl
      rw [hseq, run_literalOf, ih, isPrefixOf_drop_cons, Array.getElem?_toList, List.length_cons,
        Nat.add_right_comm, Nat.add_assoc]
      by_cases hc : text[pos]? = some c <;> simp [hc]

theorem matchAt_literally (hp : p ≠ []) (start : Nat) (advance : Bool) :
    (literally p).matchAt text start advance =
      if p.isPrefixOf (text.toList.drop start) then some ⟨start, start + p.length, []⟩ else none := by
  have hlen := List.length_pos_of_ne_nil hp
  have hmoved : (start + p.length == start) = false := by simp [hp]
  rw [Program.matchAt, literally, run_literals]
  split
  · simp [hmoved, Marks.fresh]
  · rfl

theorem searchFrom_literally (hp : p ≠ []) {more start : Nat} (h : start + more = text.size)
    (advance : Bool) :
    (literally p).searchFrom text advance more start =
      (Text.find? p (text.toList.drop start)).map fun i =>
        ⟨start + i, start + i + p.length, []⟩ := by
  induction more generalizing start advance with
  | zero =>
      have hdrop : text.toList.drop start = [] := List.drop_eq_nil_of_le (by simp; omega)
      rw [Program.searchFrom, matchAt_literally hp, hdrop, Text.find?_nil hp]
      simp [hp]
  | succ more ih =>
      have hlt : start < text.toList.length := by
        rw [Array.length_toList]
        omega
      rw [Program.searchFrom, matchAt_literally hp, ih (by omega), List.drop_eq_getElem_cons hlt,
        Text.find?]
      split
      · rfl
      · cases Text.find? p (text.toList.drop (start + 1)) with
        | none => rfl
        | some i => simp [Nat.add_comm 1, Nat.add_assoc]

theorem search_literally (hp : p ≠ []) (t : List Char) (start : Nat) (advance : Bool) :
    (literally p).search t.toArray start advance =
      (Text.find? p (t.drop start)).map fun i => ⟨start + i, start + i + p.length, []⟩ := by
  rw [Program.search]
  split
  · rename_i h
    rw [searchFrom_literally hp (by omega)]
  · rename_i h
    have hdrop : t.drop start = [] := List.drop_eq_nil_of_le (by simp at h; omega)
    rw [hdrop, Text.find?_nil hp]
    rfl

theorem scanFrom_literally (hp : p ≠ []) (t : List Char) (fuel start : Nat) (advance : Bool) :
    (literally p).scanFrom t.toArray (fuel + 1) start advance =
      match Text.find? p (t.drop start) with
      | none => []
      | some i =>
        ⟨start + i, start + i + p.length, []⟩ ::
          (literally p).scanFrom t.toArray fuel (start + i + p.length) false := by
  rw [Program.scanFrom, search_literally hp]
  cases Text.find? p (t.drop start) with
  | none => rfl
  | some i =>
      have hmoved : (start + i + p.length == start + i) = false := by simp [hp]
      simp only [Option.map_some, hmoved]

theorem fuel_of_find? (hp : p ≠ []) {fuel start i : Nat} (hfuel : t.length - start < fuel + 1)
    (hi : Text.find? p (t.drop start) = some i) : t.length - (start + i + p.length) < fuel := by
  have hlen := List.length_pos_of_ne_nil hp
  have hlt : start < t.length := by
    by_contra hge
    rw [List.drop_eq_nil_of_le (by omega), Text.find?_nil hp] at hi
    cases hi
  omega

theorem length_lt_turns (t : List Char) : t.length - 0 < 2 * (t.toArray.size - 0) + 2 := by
  rw [List.size_toArray]
  omega

theorem splice_scanFrom (hp : p ≠ []) (r : Regex) (w : List Char) {fuel start : Nat}
    (advance : Bool) (hfuel : t.length - start < fuel) :
    splice t start (((literally p).scanFrom t.toArray fuel start advance).map fun m =>
      m.replacedWith r t w) = Text.replaceAfter p w 0 (t.drop start) := by
  induction fuel generalizing start advance with
  | zero => exact absurd hfuel (Nat.not_lt_zero _)
  | succ fuel ih =>
      rw [scanFrom_literally hp, Text.replaceAfter_eq hp]
      cases hi : Text.find? p (t.drop start) with
      | none => rfl
      | some i =>
          have hle : start + i ≤ start + i + p.length := Nat.le_add_right _ _
          simp only [List.map_cons]
          rw [splice_cons hle, ih false (fuel_of_find? hp hfuel hi), Nat.add_sub_cancel_left,
            List.drop_drop, Nat.add_assoc]

theorem pieces_scanFrom (hp : p ≠ []) {r : Regex} (hr : r.program.groups = 0) {fuel start : Nat}
    (advance : Bool) (hfuel : t.length - start < fuel) :
    r.pieces t start ((literally p).scanFrom t.toArray fuel start advance) =
      Text.cut (Text.longestAt [p]) (t.drop start) := by
  induction fuel generalizing start advance with
  | zero => exact absurd hfuel (Nat.not_lt_zero _)
  | succ fuel ih =>
      rw [scanFrom_literally hp, Text.cut_eq hp]
      cases hi : Text.find? p (t.drop start) with
      | none => rfl
      | some i =>
          have ih := ih false (fuel_of_find? hp hfuel hi)
          simp only [pieces, hr, List.range_zero, List.filterMap_nil, ih, Nat.add_sub_cancel_left,
            List.drop_drop, ← Nat.add_assoc, List.singleton_append]

/-- A text with its dollar signs doubled, as a replacement asks for it. -/
def doubled (w : List Char) : List Char := w.flatMap fun c => if c = '$' then ['$', '$'] else [c]

theorem expand_doubled (site : Site) (w : List Char) : site.expand (doubled w) = .ok w := by
  rw [Site.expand]
  induction w with
  | nil => rfl
  | cons c w ih =>
      rw [doubled, List.flatMap_cons, ← doubled]
      by_cases hc : c = '$'
      · subst hc
        have htoken : site.token? ('$' :: doubled w) = .ok (some (1, ['$'])) := rfl
        show site.expandAfter 0 ('$' :: '$' :: doubled w) = _
        rw [Site.expandAfter, if_pos rfl, htoken]
        show (do pure (['$'] ++ (← site.expandAfter 0 (doubled w)))) = _
        rw [ih]
        rfl
      · simp only [if_neg hc, List.cons_append, List.nil_append, Site.expandAfter]
        rw [ih]
        rfl

/-- The regular expression of a text escaped. -/
def escaped (p : List Char) : Regex := ⟨escape p, ⟨0⟩, literally p⟩

theorem exec_escape (s : Session) (p : List Char) :
    s.exec (Catalogue.call "Regex.Escape" [.text p]) = (.ok (.text (escape p)), s) := rfl

theorem exec_indexOf (s : Session) (t p : List Char) :
    s.exec (Catalogue.call "NString.IndexOf" [.text t, .text p]) =
      (.ok (.int (Text.position (Text.find? p t))), s) := by
  have hstart (v : List Char) : Text.indexOf t v 0 = .ok (Text.position (Text.find? v t)) := by
    have hrange : ¬ ((0 : Int) < 0 ∨ (t.length : Int) < 0) := by omega
    rw [Text.indexOf, if_neg hrange]
    simp [Text.findFrom?]
  have hplace : s.exec (Texts.textAndStart (.text t) (.int 0) (.textIndex "startIndex")) =
      (.ok (t, 0), s) := rfl
  show s.exec (Texts.indexOf (.text t) (.text p) (.int 0)) = _
  rw [Texts.indexOf, exec_bind_ok hplace]
  simp only [hstart]
  rfl

theorem ofPattern_escape (known : CharacterNames) (p : List Char) :
    ofPattern known (escape p) ⟨0⟩ = .ok (escaped p) := by
  have hread : read known (Spelling.normalize (escape p) (RegexOptions.explicitCapture ⟨0⟩))
      (RegexOptions.flags ⟨0⟩) = .ok (literally p) := by
    rw [show RegexOptions.explicitCapture ⟨0⟩ = false from rfl, Spelling.normalize_escape]
    exact read_escape known p
  rw [ofPattern, hread]
  rfl

theorem exec_newRegex_escape (s : Session) (p : List Char) :
    s.exec (Types.construct "Regex" [.text (escape p)]) =
      (.ok (.ref s.store.size),
        s.grow (.regex (escaped p) (.flags .regexOptions 0))) := by
  have hmember : Types.constructors.lookup "Regex" =
      some (.binary Patterns.newRegex [.flags .regexOptions 0]) := rfl
  rw [Types.construct, hmember]
  show s.exec (do
    let r ← ofExcept (ofPattern s.characters (escape p) ⟨0⟩)
    alloc (.regex r (.flags .regexOptions 0))) = _
  rw [ofPattern_escape]
  rfl

def IsLiteral (s : Session) (id : Nat) (p : List Char) : Prop :=
  s.store[id]? = some (.regex (escaped p) (.flags .regexOptions 0))

variable {s : Session} {id : Nat}

theorem exec_read_match {m g : Nat} {x : Match} {name : String} {v : Value}
    (hm : s.store[m]? = some (.match_ x g))
    (hv : Properties.known? s (.ref m) (.match_ x g) name = some v) :
    s.exec (Properties.read (.ref m) name) = (.ok v, s) := by
  rw [Properties.read, exec_get_bind]
  simp only [object?, hm, hv]
  rfl

theorem exec_match (h : IsLiteral s id p) (hp : p ≠ []) (t : List Char) :
    ∃ i m v, s.exec (Catalogue.call "NString.IndexOf" [.text t, .text p]) = (.ok (.int i), s) ∧
      s.exec (Methods.call (.ref id) "Match" [.text t]) = (.ok m, v) ∧
      v.exec (Properties.read m "Success") = (.ok (.bool (decide (i ≠ -1))), v) ∧
      (i ≠ -1 → v.exec (Properties.read m "Value") = (.ok (.text p), v) ∧
        v.exec (Properties.read m "Index") = (.ok (.int i), v)) := by
  have hsearch := search_literally hp t 0 false
  obtain ⟨m, g, v, hv, -, hm⟩ := exec_newMatch s
    ⟨escaped p, t, (literally p).search t.toArray 0 false⟩
  rw [hsearch] at hm
  refine ⟨_, .ref m, v, exec_indexOf s t p, (exec_call h rfl _).trans ?_, ?_⟩
  · exact (exec_bind_ok (exec_checkedInput s (Nat.zero_le t.length)) _).trans hv
  cases hi : Text.find? p t with
  | none =>
      simp only [List.drop_zero, hi, Option.map_none] at hm
      exact ⟨exec_read_match hm rfl, fun hne => absurd rfl hne⟩
  | some i =>
      simp only [List.drop_zero, hi, Option.map_some, Nat.zero_add] at hm
      have hvalue : Properties.known? v (.ref m) 
          (.match_ ⟨escaped p, t, some ⟨i, i + p.length, []⟩⟩ g) "Value" = some (.text p) := by
        show some (Value.text ((t.drop i).take (i + p.length - i))) = _
        rw [Nat.add_sub_cancel_left, Text.take_drop_of_find? hi]
      have hsuccess : decide (Text.position (some i) ≠ -1) = true := by
        simp [Text.position]
      refine ⟨hsuccess ▸ exec_read_match hm rfl, fun _ => ⟨?_, exec_read_match hm rfl⟩⟩
      exact exec_read_match hm hvalue

theorem exec_splitAt (h : IsLiteral s id p) (hp : p ≠ []) (t : List Char) :
    s.exec (Methods.call (.ref id) "Split" [.text t]) =
      s.exec (newArray ((Text.cut (Text.longestAt [p]) t).map .text)) := by
  have hpieces := pieces_scanFrom hp (r := escaped p) rfl false (length_lt_turns t)
  have hsplit : (escaped p).split t 0 = Text.cut (Text.longestAt [p]) t := by
    rw [Regex.split, if_neg (by decide)]
    exact hpieces
  rw [← hsplit]
  exact (exec_call h rfl _).trans rfl

theorem exec_substitute_doubled (s : Session) (w : List Char) (m : Match) :
    ∃ u, s.exec (Patterns.substitute (.text (doubled w)) m) = (.ok (.text w), u) := by
  obtain ⟨id, g, u, hu, -, -⟩ := exec_newMatch s m
  refine ⟨u, ?_⟩
  rw [Patterns.substitute, exec_bind_ok hu]
  show u.exec (do pure (Value.text (← ofExcept ((Site.ofMatch m m.text).expand (doubled w))))) = _
  rw [expand_doubled]
  rfl

theorem exec_replacedBy_doubled (s : Session) (w : List Char) (ms : List Match) :
    ∃ u, s.exec (replacedBy t (.text (doubled w)) ms) =
      (.ok (.text (splice t 0 (ms.map fun m => (m.whole, w)))), u) := by
  refine exec_replacedBy_of (P := fun _ => True) ?_ trivial ms
  intro s m _
  simpa using exec_substitute_doubled s w m

theorem exec_replaceAll {r : Regex} {o : Value} (h : s.store[id]? = some (.regex r o))
    (t w : List Char) :
    ∃ u, s.exec (Methods.call (.ref id) "Replace" [.text t, .text (doubled w)]) =
      (.ok (.text (splice t 0 ((r.program.scan t.toArray 0).map fun m =>
        m.replacedWith r t w))), u) := by
  obtain ⟨u, hu⟩ := exec_replacedBy_doubled (t := t) s w (r.scanned t 0)
  refine ⟨u, ?_⟩
  have hcall : s.exec (Methods.call (.ref id) "Replace" [.text t, .text (doubled w)]) =
      s.exec (Patterns.replace r (.text t) (.text (doubled w)) (.int (-1)) (.int (0 : Nat))) :=
    (exec_call h rfl _).trans rfl
  rw [hcall, exec_replace s (Nat.zero_le _) (by simp) (by decide)]
  refine Eq.trans hu ?_
  rw [scanned, List.map_map]
  rfl

theorem exec_replaceBy (h : IsLiteral s id p) (hp : p ≠ []) (t w : List Char) :
    ∃ u, s.exec (Methods.call (.ref id) "Replace" [.text t, .text (doubled w)]) =
      (.ok (.text (Text.replaceAfter p w 0 t)), u) := by
  obtain ⟨u, hu⟩ := exec_replaceAll h t w
  have hsplice := splice_scanFrom hp (escaped p) w false (length_lt_turns t)
  exact ⟨u, hu.trans (congrArg (fun x => (Except.ok (Value.text x), u)) hsplice)⟩

/-- A regular expression made of an escaped text finds, splits at and replaces what the plain routines
do. -/
theorem escape_literal (hp : p ≠ []) (s : Session) :
    ∃ e id s', s.exec (Catalogue.call "Regex.Escape" [.text p]) = (.ok e, s) ∧
      s.exec (Types.construct "Regex" [e]) = (.ok (.ref id), s') ∧
      ∀ u : Session, u.store[id]? = s'.store[id]? → ∀ t w : List Char,
        (∃ i m v, u.exec (Catalogue.call "NString.IndexOf" [.text t, .text p]) = (.ok (.int i), u) ∧
          u.exec (Methods.call (.ref id) "Match" [.text t]) = (.ok m, v) ∧
          v.exec (Properties.read m "Success") = (.ok (.bool (decide (i ≠ -1))), v) ∧
          (i ≠ -1 → v.exec (Properties.read m "Value") = (.ok (.text p), v) ∧
            v.exec (Properties.read m "Index") = (.ok (.int i), v))) ∧
        (∃ parts : List (List Char),
          u.exec (Methods.call (.ref id) "Split" [.text t]) =
            (.ok (.ref u.store.size), u.grow (.array (parts.map .text))) ∧
          u.exec (Catalogue.call "NString.Split" [.text t, .text p]) =
            (.ok (.ref u.store.size), u.grow (.array (parts.map .text)))) ∧
        ∃ x v, u.exec (Methods.call (.ref id) "Replace" [.text t, .text (doubled w)]) =
            (.ok (.text x), v) ∧
          u.exec (Catalogue.call "NString.Replace" [.text t, .text p, .text w]) =
            (.ok (.text x), u) := by
  refine ⟨_, _, _, exec_escape s p, exec_newRegex_escape s p, fun u hu t w => ⟨?_, ?_, ?_⟩⟩
  all_goals have h : IsLiteral u s.store.size p := hu.trans (store_grow s _)
  · exact exec_match h hp t
  · exact ⟨Text.cut (Text.longestAt [p]) t, exec_splitAt h hp t, exec_split u hp t⟩
  · obtain ⟨v, hv⟩ := exec_replaceBy h hp t w
    exact ⟨_, v, hv, exec_replaceText u hp t w⟩

theorem escape_literal_dollars :
    ['$', '+'] ≠ [] ∧ ∃ e id s', (start 0).exec (Catalogue.call "Regex.Escape" [.text ['$', '+']]) =
        (.ok e, start 0) ∧
      (start 0).exec (Types.construct "Regex" [e]) = (.ok (.ref id), s') ∧
      ∃ v, s'.exec (Methods.call (.ref id) "Replace" [.text "a$+b".toList, .text "$$".toList]) =
        (.ok (.text "a$b".toList), v) := by
  obtain ⟨e, id, s', he, hid, h⟩ := escape_literal (p := ['$', '+']) (by decide) (start 0)
  obtain ⟨-, -, x, v, hx, hplain⟩ := h s' rfl "a$+b".toList ['$']
  refine ⟨by decide, e, id, s', he, hid, v, ?_⟩
  rw [exec_replaceText s' (by decide)] at hplain
  cases hplain
  exact hx

end BaseLib.Regex
