import BaseLib.Proofs.Session.Depth
import BaseLib.Proofs.Session.Runs
import BaseLib.Proofs.Text.Builder

namespace BaseLib.Showing

open Library Session Text Text.Buffer
open Builder (Holds rendered showsArguments)

def bracketed (key value : Except Fault (List Nat)) : Except Fault (List Nat) := do
  let key ← key
  let value ← value
  pure (plain "[" ++ key ++ plain ", " ++ value ++ plain "]")

/-- The text of a nest of nullables and pairs, when the builder has the codes `m`. -/
inductive Spelled (s : Session) (b : Nat) (m : List Nat) : Value → Except Fault (List Nat) → Prop
  | source {id : Nat} (h : IsSource s b id) : Spelled s b m (.ref id) (.ok m)
  | other {n : Nat} {v : Value} (h : Stable s n v) : Spelled s b m v (s.display v)
  | nullable {id : Nat} {v : Value} {u : Except Fault (List Nat)} (h : s.store[id]? = some (.nullable v))
      (hv : Spelled s b m v u) : Spelled s b m (.ref id) u
  | pair {id : Nat} {k v : Value} {u w : Except Fault (List Nat)} (h : s.store[id]? = some (.pair k v))
      (hk : Spelled s b m k u) (hv : Spelled s b m v w) : Spelled s b m (.ref id) (bracketed u w)

variable {s t : Session} {b : Nat} {x : Buffer} {m m' k : List Nat} {v : Value} {u : Except Fault (List Nat)}

theorem display_source {id : Nat} (hb : s.store[b]? = some (.builder x)) (h : IsSource s b id) :
    Stable s 1 (.ref id) ∧ (s.viewAt 1 (.ref id)).display = .ok x.codes := by
  obtain ⟨rfl, -⟩ | ⟨newLine, hw⟩ := h
  · refine ⟨stable_one fun i o hi ho => ?_, ?_⟩
    · cases hi
      cases hb.symm.trans ho
      rfl
    · simp only [viewAt, hb]
      rfl
  · refine ⟨stable_one fun i o hi ho => ?_, ?_⟩
    · cases hi
      cases hw.symm.trans ho
      rfl
    · simp only [viewAt, hw, forms, Builder.buffer_eq hb]
      rfl

theorem Spelled.display (hb : s.store[b]? = some (.builder x)) (h : Spelled s b x.codes v u) :
    s.display v = u := by
  obtain ⟨n, hstable, htext⟩ : ∃ n, Stable s n v ∧ (s.viewAt n v).display = u := by
    induction h with
    | source h => exact ⟨1, display_source hb h⟩
    | @other n v h => exact ⟨n, h, by rw [Session.display, h.view_eq]⟩
    | nullable h _ ih =>
        obtain ⟨n, hn, htext⟩ := ih
        refine ⟨n + 1, (stable_succ_iff h).mpr (by simpa [Object.inner] using hn), ?_⟩
        simp only [viewAt, h, Datum.display, htext]
    | pair h _ _ ihk ihv =>
        obtain ⟨i, hi, hk⟩ := ihk
        obtain ⟨j, hj, hv⟩ := ihv
        have hi' := hi.mono (le_max_left i j)
        have hj' := hj.mono (le_max_right i j)
        refine ⟨max i j + 1, (stable_succ_iff h).mpr (by simpa [Object.inner] using ⟨hi', hj'⟩), ?_⟩
        simp only [viewAt, h, Datum.display, hi _ (le_max_left i j), hj _ (le_max_right i j), hk, hv, bracketed]
  rw [Session.display, hstable.view_eq, htext]

/-- What reads the builder is an object and no number or time, so it is shown as it is whatever the format. -/
theorem rendered_of_readsText (h : ReadsText s b v) :
    rendered s v = s.display v ∧ ∀ provider fmt, s.formatItem provider v fmt = s.display v := by
  obtain ⟨id, rfl, htime⟩ : ∃ id, v = .ref id ∧ ∀ d, s.store[id]? ≠ some (.dateTime d) := by
    cases h with
    | @source id h =>
        refine ⟨id, rfl, fun d hd => ?_⟩
        obtain ⟨-, y, hy⟩ | ⟨newLine, hw⟩ := h
        · cases hd.symm.trans hy
        · cases hd.symm.trans hw
    | @inside id o w ho hw =>
        refine ⟨id, rfl, fun d hd => ?_⟩
        cases hd.symm.trans ho
        cases hw
  refine ⟨rfl, fun provider fmt => ?_⟩
  have hnumber : (Value.ref id).number? = none := rfl
  simp only [formatItem, hnumber]
  split
  · rename_i d hd
    exact absurd hd (htime d)
  · rfl

inductive Op
  | append (v : Value)
  | appendFormat (args : List Value)
  | insert (index : Int) (v : Value)
  | toText

namespace Op

def run (b : Nat) : Op → Action Value
  | append v => Methods.call (.ref b) "Append" [v]
  | appendFormat args => Methods.call (.ref b) "AppendFormat" args
  | insert index v => Methods.call (.ref b) "Insert" [.int index, v]
  | toText => Methods.call (.ref b) "ToString" []

/-- What the text becomes when everything that is added is rendered on the text before. -/
def result (s : Session) (m : List Nat) : Op → Except Fault (List Nat)
  | append v => if v = .null then .ok m else (rendered s v).map (m ++ ·)
  | appendFormat args => (s.formatCall args).map (m ++ ·)
  | insert index v =>
    if index < 0 ∨ (m.length : Int) < index then .error (.failure (.textIndex "index"))
    else (rendered s v).map fun codes => m.take index.toNat ++ codes ++ m.drop index.toNat
  | toText => .ok m

def AppendsItself (s : Session) (b : Nat) : Op → Prop
  | append v => ReadsText s b v
  | appendFormat args => ∃ provider fmt rest, s.formatParts args = .ok (provider, fmt, rest) ∧
      ∃ v ∈ Texts.shownArguments fmt rest, ReadsText s b v
  | insert _ _ | toText => False

def Answers (b : Nat) (m : List Nat) : Op → Value → Prop
  | toText, v => v.codes? = some m
  | _, v => v = .ref b

end Op

/-- Operations on a builder; in between, anything may happen that does not touch it. -/
def protocol (b : Nat) : Protocol Op where
  run := Op.run b
  allowed _ _ := True
  quiet s t := t.store[b]? = s.store[b]?

/-- One operation. What appends the builder's own text adds nothing. -/
def Step (b : Nat) (m : List Nat) (e : Invocation Op) (m' : List Nat) : Prop :=
  Holds e.before b m ∧ Holds e.after b m' ∧
    match e.op.result e.before m with
    | .error f => e.outcome = .error f ∧ m' = m
    | .ok k => (∃ v, e.outcome = .ok v ∧ e.op.Answers b m' v) ∧
        (e.op.AppendsItself e.before b → m' = m) ∧ (¬ e.op.AppendsItself e.before b → m' = k)

theorem showsArguments_iff {args : List Value} :
    showsArguments s b args = true ↔ (Op.appendFormat args).AppendsItself s b := by
  rw [showsArguments, Op.AppendsItself]
  cases s.formatParts args with
  | error f => simp
  | ok parts =>
      obtain ⟨provider, fmt, rest⟩ := parts
      simp [shows_iff]

variable {op : Op} {f : Fault}

def Steps (s : Session) (b : Nat) (m : List Nat) (op : Op) : Prop :=
  ∃ m', Step b m ((protocol b).call s op) m' ∧ Holds ((protocol b).call s op).after b m'

theorem steps_error (hs : Holds s b m) (hresult : op.result s m = .error f)
    (hrun : s.exec (op.run b) = (.error f, t)) (ht : Holds t b m) : Steps s b m op := by
  rw [Steps, Protocol.call_of (p := protocol b) hrun]
  refine ⟨m, ⟨hs, ht, ?_⟩, ht⟩
  dsimp only
  rw [hresult]
  exact ⟨rfl, rfl⟩

theorem steps_ok (hs : Holds s b m) (hresult : op.result s m = .ok k)
    (hrun : s.exec (op.run b) = (.ok v, t)) (ht : Holds t b m') (hv : op.Answers b m' v)
    (hlost : op.AppendsItself s b → m' = m) (hkept : ¬ op.AppendsItself s b → m' = k) : Steps s b m op := by
  rw [Steps, Protocol.call_of (p := protocol b) hrun]
  refine ⟨m', ⟨hs, ht, ?_⟩, ht⟩
  dsimp only
  rw [hresult]
  exact ⟨⟨v, rfl, hv⟩, hlost, hkept⟩

theorem steps_appended (h : s.store[b]? = some (.builder x)) {own : Bool} {codes : List Nat}
    (hresult : op.result s x.codes = .ok (x.codes ++ codes))
    (hrun : s.exec (op.run b) =
      (.ok (.ref b), s.put b (.builder (if own then x.flatten else x.push codes))))
    (hv : ∀ m, op.Answers b m (.ref b)) (hown : own = true ↔ op.AppendsItself s b) :
    Steps s b x.codes op := by
  cases own with
  | true =>
      exact steps_ok ⟨x, h, rfl⟩ hresult hrun (Builder.holds_put h (codes_flatten x)) (hv _)
        (fun _ => rfl) fun hn => absurd (hown.mp rfl) hn
  | false =>
      exact steps_ok ⟨x, h, rfl⟩ hresult hrun (Builder.holds_put h (codes_push x codes)) (hv _)
        (fun hself => absurd (hown.mpr hself) Bool.false_ne_true) fun _ => rfl

theorem append_steps (h : s.store[b]? = some (.builder x)) (v : Value) :
    Steps s b x.codes (.append v) := by
  by_cases hnull : v = .null
  · subst hnull
    exact steps_ok ⟨x, h, rfl⟩ rfl (Builder.exec_appendNull h) ⟨x, h, rfl⟩ rfl (fun _ => rfl) fun _ => rfl
  have hresult : (Op.append v).result s x.codes = (rendered s v).map (x.codes ++ ·) := if_neg hnull
  have hrun : s.exec ((Op.append v).run b) = _ := Builder.exec_appendValue h hnull
  cases hrendered : rendered s v with
  | error f =>
      rw [hrendered] at hresult hrun
      exact steps_error ⟨x, h, rfl⟩ hresult hrun ⟨x, h, rfl⟩
  | ok codes =>
      rw [hrendered] at hresult hrun
      exact steps_appended h hresult hrun (fun _ => rfl) shows_iff

theorem appendFormat_steps (h : s.store[b]? = some (.builder x)) (args : List Value) :
    Steps s b x.codes (.appendFormat args) := by
  have hresult : (Op.appendFormat args).result s x.codes = (s.formatCall args).map (x.codes ++ ·) := rfl
  have hrun : s.exec ((Op.appendFormat args).run b) = _ := Builder.exec_appendFormat h args
  cases hcall : s.formatCall args with
  | error f =>
      rw [hcall] at hresult hrun
      exact steps_error ⟨x, h, rfl⟩ hresult hrun ⟨x, h, rfl⟩
  | ok text =>
      rw [hcall] at hresult hrun
      exact steps_appended h hresult hrun (fun _ => rfl) showsArguments_iff

theorem insert_steps (h : s.store[b]? = some (.builder x)) (index : Int) (v : Value) :
    Steps s b x.codes (.insert index v) := by
  have hrun : s.exec ((Op.insert index v).run b) = _ := Builder.exec_insert h index v
  have hflat := Builder.holds_put h (codes_flatten x)
  by_cases hindex : index < 0 ∨ (x.codes.length : Int) < index
  · have hresult : (Op.insert index v).result s x.codes = .error (.failure (.textIndex "index")) :=
      if_pos hindex
    rw [if_pos hindex] at hrun
    exact steps_error ⟨x, h, rfl⟩ hresult hrun hflat
  have hresult : (Op.insert index v).result s x.codes =
      (rendered s v).map fun codes => x.codes.take index.toNat ++ codes ++ x.codes.drop index.toNat :=
    if_neg hindex
  rw [if_neg hindex] at hrun
  cases hrendered : rendered s v with
  | error f =>
      rw [hrendered] at hresult hrun
      exact steps_error ⟨x, h, rfl⟩ hresult hrun hflat
  | ok codes =>
      rw [hrendered] at hresult hrun
      have hcodes : (x.flatten.splice index.toNat codes).codes =
          x.codes.take index.toNat ++ codes ++ x.codes.drop index.toNat := by
        rw [codes_splice, codes_flatten]
      exact steps_ok ⟨x, h, rfl⟩ hresult hrun (Builder.holds_put h hcodes) rfl False.elim fun _ => rfl

theorem toText_steps (h : s.store[b]? = some (.builder x)) : Steps s b x.codes .toText := by
  refine steps_ok ⟨x, h, rfl⟩ rfl (Builder.exec_toText h) (Builder.holds_put h (codes_flatten x)) ?_
    False.elim fun _ => rfl
  rw [Op.Answers, codes_flatten, Value.codes?_ofCodes]

theorem step (hs : Holds s b m) (op : Op) :
    ∃ m', Step b m ((protocol b).call s op) m' ∧ Holds ((protocol b).call s op).after b m' := by
  obtain ⟨x, h, rfl⟩ := hs
  cases op with
  | append v => exact append_steps h v
  | appendFormat args => exact appendFormat_steps h args
  | insert index v => exact insert_steps h index v
  | toText => exact toText_steps h

/-- Everything that is added to a builder is rendered on the text that the builder has before, also by its own
text. What is inserted is put in at its place, and what is appended behind the text; but nothing is appended
by what reads the builder. -/
theorem shown_then_added (h : Holds s b m) :
    (∀ calls t, (protocol b).Runs s calls t → ∃ m', Follows (Step b) m calls m' ∧ Holds t b m') ∧
    (∀ v, ReadsText s b v →
      rendered s v = s.display v ∧ ∀ provider fmt, s.formatItem provider v fmt = s.display v) ∧
    ∀ v u, Spelled s b m v u → s.display v = u := by
  refine ⟨fun calls t hr => ?_, ?_, ?_⟩
  · have hquiet (s t : Session) (m : List Nat) (hst : (protocol b).quiet s t) : Holds s b m → Holds t b m :=
      fun ⟨x, hx, hm⟩ => ⟨x, hst.trans hx, hm⟩
    exact hr.follows (fun {s t m} => hquiet s t m) (fun {s m op} _ hs => step hs op) h
  · exact fun v hv => rendered_of_readsText hv
  · obtain ⟨x, hx, rfl⟩ := h
    exact fun v u hv => hv.display hx

/-- A builder with a letter and a surrogate, a writer over it, and a nullable pair of the writer and a number. -/
def nested : Session :=
  let s := ((start 0).exec (Types.construct "StringBuilder" [.text ['a']])).2
  let s := (s.exec (Methods.call (.ref 13) "Append" [.int 0xD800])).2
  let s := (s.exec (Types.construct "StringWriter" [.ref 13])).2
  let s := (s.exec (Types.construct "KeyValuePair" [.ref 14, .int 7])).2
  (s.exec (Types.construct "Nullable" [.ref 15])).2

def inserted : Invocation Op := (protocol 13).call nested (.insert 1 (.ref 16))

def appended : Invocation Op := (protocol 13).call inserted.after (.append (.ref 14))

/-- The pair is put between the letter and the surrogate with both of them in it. -/
theorem shown_then_added_nested :
    Holds nested 13 [97, 0xD800] ∧
    inserted.after.display (.ref 13) = .ok (plain "a[a" ++ [0xD800] ++ plain ", 7]" ++ [0xD800]) ∧
    (∃ m, Follows (Step 13) [97, 0xD800] [inserted, appended] m ∧ Holds appended.after 13 m) ∧
    ReadsText nested 13 (.ref 16) ∧
    rendered nested (.ref 16) = .ok (plain "[a" ++ [0xD800] ++ plain ", 7]") := by
  have h : Holds nested 13 [97, 0xD800] := ⟨_, rfl, rfl⟩
  have hsource : IsSource nested 13 14 := .inr ⟨_, rfl⟩
  have hreads : ReadsText nested 13 (.ref 16) :=
    .inside (w := .ref 15) rfl List.mem_cons_self (.inside (w := .ref 14) rfl List.mem_cons_self (.source hsource))
  have hnumber : Stable nested 1 (.int 7) := stable_one fun _ _ h => nomatch h
  have hpair : Spelled nested 13 [97, 0xD800] (.ref 15) (bracketed (.ok [97, 0xD800]) (nested.display (.int 7))) :=
    .pair rfl (.source hsource) (.other hnumber)
  obtain ⟨hruns, hrendered, hdisplay⟩ := shown_then_added h
  have hr : (protocol 13).Runs nested [inserted, appended] appended.after :=
    .call rfl trivial (.call rfl trivial (.nil rfl))
  refine ⟨h, rfl, hruns _ _ hr, hreads, ?_⟩
  rw [(hrendered _ hreads).1, hdisplay _ _ (.nullable rfl hpair)]
  rfl

def letters : Session := ((start 0).exec (Types.construct "StringBuilder" [.text ['a', 'b']])).2

/-- A builder that is appended to itself keeps its text. -/
theorem appended_itself_lost :
    rendered letters (.ref 13) = .ok (plain "ab") ∧
      ¬ Holds ((protocol 13).call letters (.append (.ref 13))).after 13 (plain "abab") := by
  refine ⟨rfl, ?_⟩
  rintro ⟨x, hx, hcodes⟩
  have hstore : ((protocol 13).call letters (.append (.ref 13))).after.store[13]? =
      some (.builder ⟨[plain "ab"]⟩) := rfl
  cases hstore.symm.trans hx
  cases hcodes

end BaseLib.Showing
