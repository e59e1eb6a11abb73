import BaseLib.Library.Types
import BaseLib.Proofs.Session.Alike

namespace BaseLib.Builder

open Library Session Text Text.Buffer

inductive Simple : Value → Prop
  | null : Simple .null
  | bool (b : Bool) : Simple (.bool b)
  | int (n : Int) : Simple (.int n)
  | double (d : Double) : Simple (.double d)
  | text (t : List Char) : Simple (.text t)
  | broken (t : Broken) : Simple (.broken t)

inductive Op
  | append (v : Value)
  | appendLine (v : Value)
  | appendFormat (args : List Value)
  | insert (index : Int) (v : Value)
  | clear
  | setLength (n : Int)
  | toText
  | length
  | codeAt (index : Int)

namespace Op

def run (builder : Nat) : Op → Action Value
  | append v => Methods.call (.ref builder) "Append" [v]
  | appendLine v => Methods.call (.ref builder) "AppendLine" [v]
  | appendFormat args => Methods.call (.ref builder) "AppendFormat" args
  | insert index v => Methods.call (.ref builder) "Insert" [.int index, v]
  | clear => Methods.call (.ref builder) "Clear" []
  | setLength n => do
    Properties.write (.ref builder) "Length" (.int n)
    done
  | toText => Methods.call (.ref builder) "ToString" []
  | length => Properties.read (.ref builder) "Length"
  | codeAt index => Methods.call (.ref builder) "get_Item" [.int index]

def Allowed : Op → Prop
  | append v | insert _ v => Simple v
  | appendLine v => v = .null ∨ ∃ codes, v.codes? = some codes
  | appendFormat args => ∀ v ∈ args, Simple v
  | _ => True

end Op

def shownAs : Value → List Nat
  | .bool b => codesOf (Datum.boolText b)
  | .double d => codesOf (Number.double d).display
  | .text t => codesOf t
  | .broken t => t.codes
  | _ => []

def characterCode (n : Int) : Except Fault Nat :=
  if n < -2147483648 ∨ 2147483647 < n then .error Misuse.tooLarge
  else if n < 0 ∨ 1114111 < n then .error Misuse.badValue
  else .ok n.toNat

def added : Value → Except Fault (List Nat)
  | .int n => (characterCode n).map ([·])
  | v => .ok (shownAs v)

/-- The options in force, read from the environment unless they are known. -/
def optionsOf (s : Session) : Except Failure Options :=
  match s.options with
  | some o => .ok o
  | none => Options.ofEnvironment fun name => s.environment.lookup name.toList

namespace Op

/-- What an operation makes of a sequence of codes. -/
def result (s : Session) (m : List Nat) : Op → Except Fault (List Nat)
  | append v => if v = .null then .ok m else (added v).map (m ++ ·)
  | appendLine v =>
    match optionsOf s with
    | .ok o => .ok (m ++ shownAs v ++ o.newLine)
    | .error cause => .error (.failure cause)
  | appendFormat args => (s.formatCall args).map (m ++ ·)
  | insert index v =>
    if index < 0 ∨ (m.length : Int) < index then .error (.failure (.textIndex "index"))
    else (added v).map fun codes => m.take index.toNat ++ codes ++ m.drop index.toNat
  | clear => .ok []
  | setLength n =>
    if n < 0 then .error (.failure (.outOfRange "value"))
    else if Word.maxSize < n.toNat then .error (.misuse .tooLarge)
    else .ok (m.take n.toNat ++ List.replicate (n.toNat - m.length) 0)
  | codeAt index => if index < 0 then .error (.failure (.textIndex "index")) else .ok m
  | toText | length => .ok m

/-- What a failing operation leaves: the codes as they were, but a line without an end stays. -/
def left (m : List Nat) : Op → List Nat
  | appendLine v => m ++ shownAs v
  | _ => m

def next (s : Session) (m : List Nat) (op : Op) : List Nat :=
  match op.result s m with
  | .ok m' => m'
  | .error _ => op.left m

def Answers (builder : Nat) (m : List Nat) : Op → Value → Prop
  | toText, v => v.codes? = some m
  | length, v => v = .int m.length
  | codeAt index, v => v = .int (m[index.toNat]?.getD 0)
  | setLength _, v => v = .null
  | _, v => v = .ref builder

end Op

/-- An operation with the sessions before and after it and with what it answers. -/
structure Event where
  before : Session
  op : Op
  outcome : Except Fault Value
  after : Session

/-- The operation answers what the sequence of codes answers. -/
def Event.Agrees (builder : Nat) (m : List Nat) (e : Event) : Prop :=
  match e.op.result e.before m with
  | .ok m' => ∃ v, e.outcome = .ok v ∧ e.op.Answers builder m' v
  | .error f => e.outcome = .error f

def after (m : List Nat) (events : List Event) : List Nat :=
  events.foldl (fun m e => e.op.next e.before m) m

def initial (v : Value) : List Nat := v.codes?.getD []

/-- A run of operations on a builder, one after the other; in between, anything may happen that does not
touch the builder. -/
inductive Run (builder : Nat) : Session → List Event → Session → Prop
  | nil {s t : Session} (h : t.store[builder]? = s.store[builder]?) : Run builder s [] t
  | cons {s t : Session} {e : Event} {events : List Event}
      (h : e.before.store[builder]? = s.store[builder]?) (ha : e.op.Allowed)
      (he : e.before.exec (e.op.run builder) = (e.outcome, e.after))
      (hr : Run builder e.after events t) : Run builder s (e :: events) t

def Holds (s : Session) (builder : Nat) (m : List Nat) : Prop :=
  ∃ x, s.store[builder]? = some (.builder x) ∧ x.codes = m

variable {s t : Session} {b : Nat} {x : Buffer} {m : List Nat} {v : Value}

theorem Simple.shows_eq (h : Simple v) (s : Session) (b : Nat) : s.shows b v = false := by
  cases h <;> rfl

theorem exec_validCode (s : Session) (n : Int) :
    s.exec (validCode n) = (characterCode n, s) := by
  unfold validCode characterCode
  by_cases hlarge : n < -2147483648 ∨ 2147483647 < n
  · rw [if_pos hlarge, if_pos hlarge]
    rfl
  · rw [if_neg hlarge, if_neg hlarge]
    by_cases hcode : n < 0 ∨ 1114111 < n
    · rw [if_pos hcode, if_pos hcode]
      rfl
    · rw [if_neg hcode, if_neg hcode]
      rfl

/-- What a value adds in a session: an integer is the code of a character, all else is shown. -/
def rendered (s : Session) (v : Value) : Except Fault (List Nat) :=
  match v.integer? with
  | some n => (characterCode n).map ([·])
  | none => s.display v

theorem exec_addition (s : Session) (v : Value) : s.exec (Texts.addition v) = (rendered s v, s) := by
  rw [Texts.addition, rendered]
  cases v.integer? with
  | none => exact exec_displayOf s v
  | some n =>
      show s.exec (do pure [← validCode n]) = ((characterCode n).map ([·]), s)
      rw [exec_bind, exec_validCode]
      cases characterCode n <;> rfl

theorem Simple.rendered_eq (h : Simple v) (s : Session) : rendered s v = added v := by
  cases h <;> rfl

theorem rendered_alike (h : Alike s t) (v : Value) : rendered t v = rendered s v := by
  unfold rendered
  rw [h.display]

theorem buffer_eq (h : s.store[b]? = some (.builder x)) : s.buffer b = x := by
  simp only [Session.buffer, h]

theorem exec_append (h : s.store[b]? = some (.builder x)) (own : Bool) (codes : List Nat) :
    s.exec (Texts.append b own codes) =
      (.ok (.ref b), s.put b (.builder (if own then x.flatten else x.push codes))) := by
  rw [Texts.append, exec_get_bind, buffer_eq h]
  rfl

theorem exec_readOptions (s : Session) :
    ∃ t, s.exec readOptions = ((optionsOf s).mapError .failure, t) ∧ t.store = s.store ∧
      optionsOf t = optionsOf s := by
  cases ho : s.options with
  | some o =>
      have hrun : s.exec readOptions = (.ok o, s) := by
        rw [readOptions, exec_get_bind, ho]
        rfl
      have hoptions : optionsOf s = .ok o := by rw [optionsOf, ho]
      exact ⟨s, hoptions ▸ hrun, rfl, rfl⟩
  | none =>
      have hoptions : optionsOf s = Options.ofEnvironment fun name => s.environment.lookup name.toList := by
        rw [optionsOf, ho]
      have hrun : s.exec readOptions = s.exec (do
          let o ← ofResult (optionsOf s)
          modify fun s => { s with options := some o }
          pure o) := by
        rw [hoptions, readOptions, exec_get_bind, ho]
      rw [exec_bind, exec_ofResult] at hrun
      cases hread : optionsOf s with
      | error cause =>
          rw [hread] at hrun
          exact ⟨s, hrun, rfl, hread⟩
      | ok o =>
          rw [hread] at hrun
          exact ⟨{ s with options := some o }, hrun, rfl, rfl⟩

theorem exec_appendNull (h : s.store[b]? = some (.builder x)) :
    s.exec (Methods.call (.ref b) "Append" [.null]) = (.ok (.ref b), s) :=
  (exec_call h rfl _).trans rfl

theorem exec_appendValue (h : s.store[b]? = some (.builder x)) (hv : v ≠ .null) :
    s.exec (Methods.call (.ref b) "Append" [v]) =
      match rendered s v with
      | .error f => (.error f, s)
      | .ok codes => (.ok (.ref b), s.put b (.builder (if s.shows b v then x.flatten else x.push codes))) := by
  have hrun : s.exec (Methods.call (.ref b) "Append" [v]) = s.exec (if v == .null then pure (.ref b) else do
      Texts.append b ((← get).shows b v) (← Texts.addition v)) := (exec_call h rfl _).trans rfl
  rw [if_neg (by simpa using hv), exec_get_bind, exec_bind, exec_addition] at hrun
  rw [hrun]
  cases rendered s v with
  | error f => rfl
  | ok codes => exact exec_append h _ codes

def showsArguments (s : Session) (b : Nat) (args : List Value) : Bool :=
  match s.formatParts args with
  | .ok (_, fmt, rest) => (Texts.shownArguments fmt rest).any (s.shows b)
  | .error _ => false

theorem exec_appendFormat (h : s.store[b]? = some (.builder x)) (args : List Value) :
    s.exec (Methods.call (.ref b) "AppendFormat" args) =
      match s.formatCall args with
      | .error f => (.error f, s)
      | .ok codes => (.ok (.ref b), s.put b
        (.builder (if showsArguments s b args then x.flatten else x.push codes))) := by
  have hrun : s.exec (Methods.call (.ref b) "AppendFormat" args) = s.exec (Texts.appendFormat b args) :=
    (exec_call h rfl _).trans rfl
  rw [hrun, Texts.appendFormat, exec_get_bind]
  cases hparts : s.formatParts args with
  | error f =>
      have hcall : s.formatCall args = .error f := by
        rw [formatCall, hparts]
        rfl
      rw [hcall]
      rfl
  | ok parts =>
      obtain ⟨provider, fmt, rest⟩ := parts
      have hcall : s.formatCall args = s.expandFormat provider fmt rest := by
        rw [formatCall, hparts]
        rfl
      have hown : showsArguments s b args = (Texts.shownArguments fmt rest).any (s.shows b) := by
        rw [showsArguments, hparts]
      rw [hcall, hown, exec_bind_ok (exec_ofExcept s _)]
      change s.exec (ofExcept (s.expandFormat provider fmt rest) >>= _) = _
      rw [exec_bind, exec_ofExcept]
      cases s.expandFormat provider fmt rest with
      | error f => rfl
      | ok text => exact exec_append h _ _

/-- The value is rendered after the pieces have been made one, which makes no difference to it. -/
theorem exec_insert (h : s.store[b]? = some (.builder x)) (index : Int) (v : Value) :
    s.exec (Methods.call (.ref b) "Insert" [.int index, v]) =
      if index < 0 ∨ (x.codes.length : Int) < index then
        (.error (.failure (.textIndex "index")), s.put b (.builder x.flatten))
      else match rendered s v with
        | .error f => (.error f, s.put b (.builder x.flatten))
        | .ok codes => (.ok (.ref b), s.put b (.builder (x.flatten.splice index.toNat codes))) := by
  have hrun : s.exec (Methods.call (.ref b) "Insert" [.int index, v]) =
      (s.put b (.builder x.flatten)).exec (do
        ofResult (x.flatten.checkPlace index)
        let codes ← Texts.addition v
        assign b (.builder (x.flatten.splice index.toNat codes))
        pure (.ref b)) := by
    refine (exec_call h rfl _).trans ?_
    show s.exec (Texts.insert b (.int index) v) = _
    rw [Texts.insert, exec_get_bind, buffer_eq h]
    rfl
  rw [hrun, checkPlace, codes_flatten]
  by_cases hindex : index < 0 ∨ (x.codes.length : Int) < index
  · rw [if_pos hindex, if_pos hindex]
    rfl
  · rw [if_neg hindex, if_neg hindex, exec_bind_ok (exec_ofResult _ _), exec_bind, exec_addition,
      rendered_alike (alike_flatten h)]
    cases rendered s v with
    | error f => rfl
    | ok codes =>
        show (Except.ok (Value.ref b), (s.put b _).put b _) = _
        rw [put_put]

theorem exec_toText (h : s.store[b]? = some (.builder x)) :
    s.exec (Methods.call (.ref b) "ToString" []) =
      (.ok (.ofCodes x.flatten.codes), s.put b (.builder x.flatten)) := by
  refine (exec_call h rfl _).trans ?_
  show s.exec (Texts.builderText b) = _
  rw [Texts.builderText, exec_get_bind, buffer_eq h]
  rfl

def Steps (s : Session) (b : Nat) (m : List Nat) (op : Op) : Prop :=
  ∃ r t, s.exec (op.run b) = (r, t) ∧ Holds t b (op.next s m) ∧ Event.Agrees b m ⟨s, op, r, t⟩

section

variable {op : Op} {m' : List Nat}

theorem steps_ok (hresult : op.result s m = .ok m') (hrun : s.exec (op.run b) = (.ok v, t))
    (hm : Holds t b m') (hv : op.Answers b m' v) : Steps s b m op := by
  refine ⟨_, _, hrun, ?_, ?_⟩
  · rw [Op.next, hresult]
    exact hm
  · rw [Event.Agrees, hresult]
    exact ⟨v, rfl, hv⟩

theorem steps_error {f : Fault} (hresult : op.result s m = .error f)
    (hrun : s.exec (op.run b) = (.error f, t)) (hm : Holds t b (op.left m)) : Steps s b m op := by
  refine ⟨_, _, hrun, ?_, ?_⟩
  · rw [Op.next, hresult]
    exact hm
  · rw [Event.Agrees, hresult]

end

theorem holds_put (h : s.store[b]? = some (.builder x)) {y : Buffer} (hy : y.codes = m) :
    Holds (s.put b (.builder y)) b m :=
  ⟨y, store_put h _, hy⟩

theorem append_steps (h : s.store[b]? = some (.builder x)) (hv : Simple v) :
    Steps s b x.codes (.append v) := by
  by_cases hnull : v = .null
  · subst hnull
    exact steps_ok rfl (exec_appendNull h) ⟨x, h, rfl⟩ rfl
  have hresult : (Op.append v).result s x.codes = (added v).map (x.codes ++ ·) := if_neg hnull
  have hrun : s.exec ((Op.append v).run b) = _ := exec_appendValue h hnull
  rw [hv.rendered_eq, hv.shows_eq] at hrun
  cases hadded : added v with
  | error f =>
      rw [hadded] at hrun hresult
      exact steps_error hresult hrun ⟨x, h, rfl⟩
  | ok codes =>
      rw [hadded] at hrun hresult
      exact steps_ok hresult hrun (holds_put h (codes_push x codes)) rfl

theorem appendLine_steps (h : s.store[b]? = some (.builder x))
    (hv : v = .null ∨ ∃ codes, v.codes? = some codes) : Steps s b x.codes (.appendLine v) := by
  have hrun : s.exec ((Op.appendLine v).run b) = s.exec (Texts.appendLine b v) := by
    unfold Op.run
    exact (exec_call h rfl _).trans rfl
  -- The line is in the builder before the options are read.
  obtain ⟨s', y, hy, hcodes, hoptions, hline⟩ : ∃ s' y, s'.store[b]? = some (.builder y) ∧
      y.codes = x.codes ++ shownAs v ∧ optionsOf s' = optionsOf s ∧
      s.exec (Texts.appendLine b v) =
        s'.exec (do Texts.append b false (← readOptions).newLine) := by
    obtain rfl | ⟨line, hline⟩ := hv
    · exact ⟨s, x, h, (List.append_nil _).symm, rfl, rfl⟩
    · obtain rfl : line = shownAs v := by cases v <;> cases hline <;> rfl
      have hcall : s.exec (Texts.appendLine b v) = s.exec (do
          let _ ← Texts.append b false (shownAs v)
          Texts.append b false (← readOptions).newLine) := by
        cases v <;> first | rfl | cases hline
      exact ⟨_, _, store_put h _, codes_push x _, rfl, hcall.trans (exec_bind_ok (exec_append h false _) _)⟩
  obtain ⟨t, hread, hkept, -⟩ := exec_readOptions s'
  rw [hoptions] at hread
  cases ho : optionsOf s with
  | error cause =>
      rw [ho] at hread
      have hresult : (Op.appendLine v).result s x.codes = .error (.failure cause) := by
        rw [Op.result, ho]
      exact steps_error hresult (hrun.trans (hline.trans (exec_bind_error hread _))) ⟨y, hkept ▸ hy, hcodes⟩
  | ok o =>
      rw [ho] at hread
      have hstore : t.store[b]? = some (.builder y) := hkept ▸ hy
      have hresult : (Op.appendLine v).result s x.codes =
          .ok (x.codes ++ shownAs v ++ o.newLine) := by
        rw [Op.result, ho]
      have hend := hrun.trans (hline.trans ((exec_bind_ok hread _).trans (exec_append hstore false _)))
      exact steps_ok hresult hend (holds_put (y := y.push _) hstore (by rw [codes_push, hcodes])) rfl

theorem simple_of_formatParts {args rest : List Value} {provider fmt : Value}
    (hargs : ∀ v ∈ args, Simple v) (h : s.formatParts args = .ok (provider, fmt, rest)) :
    ∀ v ∈ rest, Simple v := by
  have hplain (l : List Value) (hl : ∀ v ∈ l, Simple v) : s.formatArguments l = l := by
    unfold formatArguments
    split
    · cases hl _ List.mem_cons_self <;> rfl
    · rfl
  unfold formatParts at h
  split at h
  · cases h
  · rename_i first others
    obtain ⟨hfirst, hothers⟩ := List.forall_mem_cons.mp hargs
    split at h
    · split at h
      · cases h
      · obtain ⟨-, hlast⟩ := List.forall_mem_cons.mp hothers
        cases h
        rwa [hplain _ hlast]
    · cases h
      rwa [hplain _ hothers]

theorem shows_shownArguments {fmt : Value} {args : List Value} (hargs : ∀ v ∈ args, Simple v) :
    (Texts.shownArguments fmt args).any (s.shows b) = false := by
  rw [List.any_eq_false]
  intro v hv
  unfold Texts.shownArguments at hv
  split at hv
  · obtain ⟨p, -, hp⟩ := List.mem_filterMap.mp hv
    split at hp
    · obtain ⟨n, -, hn⟩ := Option.bind_eq_some_iff.mp hp
      rw [(hargs v (List.mem_of_getElem? hn)).shows_eq]
      exact Bool.false_ne_true
    · cases hp
  · cases hv

theorem appendFormat_steps (h : s.store[b]? = some (.builder x)) {args : List Value}
    (hargs : ∀ v ∈ args, Simple v) : Steps s b x.codes (.appendFormat args) := by
  have hrun : s.exec ((Op.appendFormat args).run b) = _ := exec_appendFormat h args
  have hown : showsArguments s b args = false := by
    unfold showsArguments
    split
    · rename_i hparts
      exact shows_shownArguments (simple_of_formatParts hargs hparts)
    · rfl
  have hresult : (Op.appendFormat args).result s x.codes = (s.formatCall args).map (x.codes ++ ·) := rfl
  rw [hown] at hrun
  cases hcall : s.formatCall args with
  | error f =>
      rw [hcall] at hrun hresult
      exact steps_error hresult hrun ⟨x, h, rfl⟩
  | ok text =>
      rw [hcall] at hrun hresult
      exact steps_ok hresult hrun (holds_put h (codes_push x _)) rfl

theorem insert_steps (h : s.store[b]? = some (.builder x)) (index : Int) (hv : Simple v) :
    Steps s b x.codes (.insert index v) := by
  have hrun : s.exec ((Op.insert index v).run b) = _ := exec_insert h index v
  have hflat := holds_put h (codes_flatten x)
  by_cases hindex : index < 0 ∨ (x.codes.length : Int) < index
  · have hresult : (Op.insert index v).result s x.codes = .error (.failure (.textIndex "index")) :=
      if_pos hindex
    rw [if_pos hindex] at hrun
    exact steps_error hresult hrun hflat
  have hresult : (Op.insert index v).result s x.codes =
      (added v).map fun codes => x.codes.take index.toNat ++ codes ++ x.codes.drop index.toNat :=
    if_neg hindex
  rw [if_neg hindex, hv.rendered_eq] at hrun
  cases hadded : added v with
  | error f =>
      rw [hadded] at hrun hresult
      exact steps_error hresult hrun hflat
  | ok codes =>
      rw [hadded] at hrun hresult
      refine steps_ok hresult hrun (holds_put h ?_) rfl
      rw [codes_splice, codes_flatten]

theorem clear_steps (h : s.store[b]? = some (.builder x)) : Steps s b x.codes .clear := by
  have hrun : s.exec (Op.clear.run b) = (.ok (.ref b), s.put b (.builder .empty)) := by
    unfold Op.run
    exact (exec_call h rfl _).trans rfl
  exact steps_ok rfl hrun (holds_put h codes_empty) rfl

theorem setLength_steps (h : s.store[b]? = some (.builder x)) (n : Int) :
    Steps s b x.codes (.setLength n) := by
  have hrun : s.exec ((Op.setLength n).run b) = s.exec (do
      assign b (← ofExcept ((x.setLength n).map Object.builder))
      done) := by
    have hobject : s.exec (objectOf (.ref b)) = (.ok (b, .builder x), s) := by
      rw [objectOf, exec_get_bind]
      simp only [h]
      rfl
    have hwrite : s.exec (Properties.write (.ref b) "Length" (.int n)) =
        s.exec (do assign b (← ofExcept ((x.setLength n).map Object.builder))) :=
      (exec_bind_ok hobject _).trans rfl
    rw [Op.run, exec_bind, hwrite]
    cases x.setLength n <;> rfl
  by_cases hn : n < 0
  · have hresult : (Op.setLength n).result s x.codes = .error (.failure (.outOfRange "value")) :=
      if_pos hn
    have hset : x.setLength n = .error (Failure.outOfRange "value") := if_pos hn
    rw [hset] at hrun
    exact steps_error hresult hrun ⟨x, h, rfl⟩
  by_cases hlarge : Word.maxSize < n.toNat
  · have hresult : (Op.setLength n).result s x.codes = .error (.misuse .tooLarge) :=
      (if_neg hn).trans (if_pos hlarge)
    have hset : x.setLength n = .error Misuse.tooLarge := (if_neg hn).trans (if_pos hlarge)
    rw [hset] at hrun
    exact steps_error hresult hrun ⟨x, h, rfl⟩
  · have hresult : (Op.setLength n).result s x.codes =
        .ok (x.codes.take n.toNat ++ List.replicate (n.toNat - x.codes.length) 0) :=
      (if_neg hn).trans (if_neg hlarge)
    have hset : x.setLength n =
        .ok ⟨[x.codes.take n.toNat ++ List.replicate (n.toNat - x.codes.length) 0]⟩ :=
      (if_neg hn).trans (if_neg hlarge)
    rw [hset] at hrun
    exact steps_ok hresult hrun (holds_put h (List.append_nil _)) rfl

theorem toText_steps (h : s.store[b]? = some (.builder x)) : Steps s b x.codes .toText := by
  refine steps_ok rfl (exec_toText h) (holds_put h (codes_flatten x)) ?_
  rw [Op.Answers, codes_flatten, Value.codes?_ofCodes]

theorem length_steps (h : s.store[b]? = some (.builder x)) : Steps s b x.codes .length := by
  have hrun : s.exec (Op.length.run b) = (.ok (.int x.length), s) := by
    show s.exec (Properties.read (.ref b) "Length") = _
    rw [Properties.read, exec_get_bind]
    simp only [object?, h]
    rfl
  refine steps_ok rfl hrun ⟨x, h, rfl⟩ ?_
  rw [Op.Answers, length_eq]

theorem codeAt_steps (h : s.store[b]? = some (.builder x)) (index : Int) :
    Steps s b x.codes (.codeAt index) := by
  have hrun : s.exec ((Op.codeAt index).run b) =
      s.exec (do pure (.int (← ofResult (x.codeAt index)))) := by
    unfold Op.run
    refine (exec_call h rfl _).trans ?_
    show s.exec (do
      pure (Value.int (← ofResult (((← get).buffer b).codeAt (← needInt (Value.int index)))))) = _
    rw [exec_get_bind, buffer_eq h]
    rfl
  by_cases hindex : index < 0
  · have hresult : (Op.codeAt index).result s x.codes = .error (.failure (.textIndex "index")) :=
      if_pos hindex
    have hcode : x.codeAt index = .error (.textIndex "index") := if_pos hindex
    rw [hcode] at hrun
    exact steps_error hresult hrun ⟨x, h, rfl⟩
  · have hresult : (Op.codeAt index).result s x.codes = .ok x.codes := if_neg hindex
    have hcode : x.codeAt index = .ok (codeIn x.pieces index.toNat) := if_neg hindex
    rw [hcode] at hrun
    refine steps_ok hresult hrun ⟨x, h, rfl⟩ ?_
    rw [Op.Answers, codeIn_eq]
    rfl

theorem steps (h : Holds s b m) (op : Op) (ha : op.Allowed) : Steps s b m op := by
  obtain ⟨x, hx, rfl⟩ := h
  cases op with
  | append v => exact append_steps hx ha
  | appendLine v => exact appendLine_steps hx ha
  | appendFormat args => exact appendFormat_steps hx ha
  | insert index v => exact insert_steps hx index ha
  | clear => exact clear_steps hx
  | setLength n => exact setLength_steps hx n
  | toText => exact toText_steps hx
  | length => exact length_steps hx
  | codeAt index => exact codeAt_steps hx index

theorem Holds.of_stored (h : Holds s b m) (hst : t.store[b]? = s.store[b]?) : Holds t b m := by
  obtain ⟨x, hx, hm⟩ := h
  exact ⟨x, hst.trans hx, hm⟩

theorem Run.agrees {events : List Event} (hr : Run b s events t) (h : Holds s b m) :
    ∀ pre e post, events = pre ++ e :: post → e.Agrees b (after m pre) := by
  induction hr generalizing m with
  | nil => simp
  | @cons s t e events hst ha he hr ih =>
      obtain ⟨r, u, hu, hnext, hagrees⟩ := steps (h.of_stored hst) e.op ha
      cases he.symm.trans hu
      intro pre e' post heq
      cases pre with
      | nil =>
          cases heq
          exact hagrees
      | cons e'' pre =>
          cases heq
          exact ih hnext pre e' post rfl

theorem Event.unchanged {e : Event} {f : Fault} (hagrees : e.Agrees b m) (hf : e.outcome = .error f) :
    e.op.next e.before m = m ∨
      ∃ line cause, e.op = .appendLine line ∧ optionsOf e.before = .error cause := by
  unfold Event.Agrees at hagrees
  unfold Op.next
  cases hresult : e.op.result e.before m with
  | ok m' =>
      rw [hresult] at hagrees
      obtain ⟨v, hv, -⟩ := hagrees
      cases hv.symm.trans hf
  | error f' =>
      cases hop : e.op with
      | appendLine line =>
          rw [hop, Op.result] at hresult
          cases ho : optionsOf e.before with
          | ok o =>
              rw [ho] at hresult
              cases hresult
          | error cause => exact .inr ⟨line, cause, rfl, rfl⟩
      | _ => exact .inl rfl

theorem new_holds (hnew : s.exec (Types.construct "StringBuilder" [v]) = (.ok (.ref b), t)) :
    Holds t b (initial v) := by
  have halloc : ∃ x : Buffer, x.codes = initial v ∧ s.exec (Types.construct "StringBuilder" [v]) =
      (.ok (.ref s.store.size), s.grow (.builder x)) := by
    cases v with
    | text line => exact ⟨.ofCodes (codesOf line), codes_ofCodes _, rfl⟩
    | broken line => exact ⟨.ofCodes line.codes, codes_ofCodes _, rfl⟩
    | _ => exact ⟨.empty, rfl, rfl⟩
  obtain ⟨x, hx, halloc⟩ := halloc
  cases hnew.symm.trans halloc
  exact ⟨x, store_grow s _, hx⟩

/-- A new text builder is one sequence of character codes: every operation of a run answers what the
sequence answers after the operations before it, and one that fails leaves the sequence as it was, unless
it adds a line and the options cannot be read. -/
theorem run_reads {u : Session} {events : List Event}
    (hnew : s.exec (Types.construct "StringBuilder" [v]) = (.ok (.ref b), t)) (hr : Run b t events u) :
    ∀ pre e post, events = pre ++ e :: post →
      e.Agrees b (after (initial v) pre) ∧
        ∀ f, e.outcome = .error f → after (initial v) (pre ++ [e]) = after (initial v) pre ∨
          ∃ line cause, e.op = .appendLine line ∧ optionsOf e.before = .error cause := by
  intro pre e post heq
  have hagrees := hr.agrees (new_holds hnew) pre e post heq
  refine ⟨hagrees, fun f hf => ?_⟩
  rw [after, List.foldl_append]
  exact Event.unchanged hagrees hf

def occur (b : Nat) (s : Session) (op : Op) : Event :=
  ⟨s, op, (s.exec (op.run b)).1, (s.exec (op.run b)).2⟩

theorem run_occur {op : Op} {events : List Event} (ha : op.Allowed) (hr : Run b (occur b s op).after events t) :
    Run b s (occur b s op :: events) t :=
  .cons rfl ha rfl hr

/-- A surrogate, put before a letter, is a code of its own, also in the text that is given. -/
theorem run_reads_surrogate :
    let t := ((start 0).exec (Types.construct "StringBuilder" [.text ['a']])).2
    let e := occur 13 t (.insert 0 (.int 0xD800))
    let e' := occur 13 e.after (.codeAt 0)
    let e'' := occur 13 e'.after .toText
    e'.Agrees 13 [0xD800, 97] ∧ e''.outcome = .ok (.broken ⟨[0xD800, 97], by decide⟩) := by
  intro t e e' e''
  have hnew : (start 0).exec (Types.construct "StringBuilder" [.text ['a']]) = (.ok (.ref 13), t) := rfl
  have hr : Run 13 t [e, e', e''] e''.after := run_occur (.int _) (run_occur trivial (run_occur trivial (.nil rfl)))
  have hinserted : after (initial (.text ['a'])) [e] = [0xD800, 97] := rfl
  have hread : after (initial (.text ['a'])) [e, e'] = [0xD800, 97] := rfl
  obtain ⟨hcode, -⟩ := run_reads hnew hr [e] e' [e''] rfl
  obtain ⟨htext, -⟩ := run_reads hnew hr [e, e'] e'' [] rfl
  rw [hinserted] at hcode
  rw [hread] at htext
  obtain ⟨v, hv, hv'⟩ : ∃ v, e''.outcome = .ok v ∧ v.codes? = some [0xD800, 97] := htext
  refine ⟨hcode, ?_⟩
  rw [hv, ← Value.ofCodes_of_codes? hv']
  rfl

/-- An environment with a line end that is none. -/
def misconfigured : Session :=
  { start 0 with environment := [("CORLIB_NEWLINE".toList, "bad".toList)] }

theorem optionsOf_misconfigured : optionsOf misconfigured = .error (.badNewLine "'bad'") := by
  decide +kernel

theorem occur_toText {line : List Char} (h : Holds s b (codesOf line)) :
    (occur b s .toText).outcome = .ok (.text line) := by
  obtain ⟨x, hx, hcodes⟩ := h
  obtain ⟨r, u, hu, -, v, rfl, hv⟩ := toText_steps hx
  have htext : Value.ofCodes x.codes = v := Value.ofCodes_of_codes? hv
  rw [occur, hu, ← htext, hcodes, Value.ofCodes_codesOf]

/-- The line is in the builder although adding it fails. -/
theorem failed_line_kept :
    let t := (misconfigured.exec (Types.construct "StringBuilder" [])).2
    let e := occur 13 t (.appendLine (.text ['x']))
    (occur 13 t .toText).outcome = .ok (.text []) ∧
      e.outcome = .error (.failure (.badNewLine "'bad'")) ∧
      (occur 13 e.after .toText).outcome = .ok (.text ['x']) := by
  intro t e
  have hnew : t.store[13]? = some (.builder .empty) := rfl
  have hoptions : optionsOf t = .error (.badNewLine "'bad'") := optionsOf_misconfigured
  have hresult : (Op.appendLine (.text ['x'])).result t Buffer.empty.codes =
      .error (.failure (.badNewLine "'bad'")) := by
    rw [Op.result, hoptions]
  obtain ⟨r, u, hu, hnext, hagrees⟩ := appendLine_steps (v := .text ['x']) hnew (.inr ⟨_, rfl⟩)
  have he : e = ⟨t, .appendLine (.text ['x']), r, u⟩ := by rw [show e = occur 13 t _ from rfl, occur, hu]
  rw [Op.next, hresult] at hnext
  rw [Event.Agrees, hresult] at hagrees
  refine ⟨occur_toText ⟨_, hnew, rfl⟩, ?_, ?_⟩
  · rw [he]
    exact hagrees
  · rw [he]
    exact occur_toText hnext

end BaseLib.Builder
