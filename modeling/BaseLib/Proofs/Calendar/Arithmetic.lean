import BaseLib.Proofs.Calendar.Order
import BaseLib.Proofs.Session.Runs

namespace BaseLib.Ticks

open Library Session
open DateTime (Fields)

/-- What a duration or a time reads: ticks, and the kind of a time. -/
inductive Reading
  | span (ticks : Int)
  | time (ticks : Int) (kind : DateTimeKind)

namespace Reading

def ticks : Reading → Int
  | span n | time n _ => n

def InRange : Reading → Prop
  | span n => -9223372036854775808 ≤ n ∧ n ≤ 9223372036854775807
  | time n _ => 0 ≤ n ∧ n ≤ 3155378975999999999

def errorKind : Reading → ErrorKind
  | span _ => .overflow
  | time _ _ => .argumentOutOfRange

end Reading

def span? (s : Session) (v : Value) : Option Int :=
  match s.object? v with
  | some (.timeSpan t) => some t.ticks
  | _ => none

def time? (s : Session) (v : Value) : Option (Int × DateTimeKind) :=
  match s.object? v with
  | some (.dateTime d) => some (d.ticks, d.kind)
  | _ => none

def Reads (s : Session) (v : Value) : Reading → Prop
  | .span n => span? s v = some n
  | .time n k => time? s v = some (n, k)

/-- Integer arguments for a time: some or all of the fields, or a date with a kind in the place of the hour
and some or all of the fields after it. -/
inductive TimeArguments
  | numbers (ns : List Int)
  | fields (f : Fields) (kind : DateTimeKind)
  | date (year month day : Int) (kind : DateTimeKind) (ns : List Int)

namespace TimeArguments

def values : TimeArguments → List Value
  | numbers ns => ns.map .int
  | fields f kind => f.arguments (some kind)
  | date year month day kind ns => .int year :: .int month :: .int day :: .symbol (.kind kind) :: ns.map .int

/-- The fields; a date that is left out is the first of all, a time of day midnight. -/
def toFields : TimeArguments → Fields
  | numbers ns =>
    ⟨ns.getD 0 1, ns.getD 1 1, ns.getD 2 1, ns.getD 3 0, ns.getD 4 0, ns.getD 5 0, ns.getD 6 0⟩
  | fields f _ => f
  | date year month day _ ns => ⟨year, month, day, 0, ns.getD 0 0, ns.getD 1 0, ns.getD 2 0⟩

def kind : TimeArguments → DateTimeKind
  | numbers _ => .unspecified
  | fields _ kind | date _ _ _ kind _ => kind

def Fit : TimeArguments → Prop
  | numbers ns => ns.length ≤ 7
  | fields _ _ => True
  | date _ _ _ _ ns => ns.length ≤ 3

instance : (args : TimeArguments) → Decidable args.Fit
  | numbers ns => inferInstanceAs (Decidable (ns.length ≤ 7))
  | fields _ _ => inferInstanceAs (Decidable True)
  | date _ _ _ _ ns => inferInstanceAs (Decidable (ns.length ≤ 3))

end TimeArguments

/-- A method, a static member or an operator. -/
inductive Form
  | method
  | static
  | operator

def Form.call (self : Value) (name static operator : String) (args : List Value) : Form → Action Value
  | method => Methods.call self name args
  | .static => Catalogue.call static (self :: args)
  | .operator => Catalogue.call operator (self :: args)

inductive Op
  | newSpan (ns : List Int)
  | fromTicks (n : Int)
  | newTime (args : TimeArguments)
  | addSpans (form : Form) (x y : Value)
  | subtractSpans (form : Form) (x y : Value)
  | negate (form : Form) (x : Value)
  | duration (x : Value)
  | magnitude (x : Value)
  | addTicks (d : Value) (n : Int)
  | addToTime (form : Form) (d x : Value)
  | subtractFromTime (form : Form) (d x : Value)
  | subtractTimes (form : Form) (d e : Value)
  | date (d : Value)
  | timeOfDay (d : Value)

namespace Op

def run : Op → Action Value
  | newSpan ns => Types.construct "TimeSpan" (ns.map .int)
  | fromTicks n => Catalogue.call "TimeSpan.FromTicks" [.int n]
  | newTime args => Types.construct "DateTime" args.values
  | addSpans form x y => form.call x "Add" "TimeSpan.op_Addition" "op.add" [y]
  | subtractSpans form x y => form.call x "Subtract" "TimeSpan.op_Subtraction" "op.sub" [y]
  | negate form x => form.call x "Negate" "TimeSpan.op_UnaryNegation" "op.neg" []
  | duration x => Methods.call x "Duration" []
  | magnitude x => Catalogue.call "op.abs" [x]
  | addTicks d n => Methods.call d "AddTicks" [.int n]
  | addToTime form d x => form.call d "Add" "DateTime.op_Addition" "op.add" [x]
  | subtractFromTime form d y | subtractTimes form d y =>
    form.call d "Subtract" "DateTime.op_Subtraction" "op.sub" [y]
  | date d => Properties.read d "Date"
  | timeOfDay d => Properties.read d "TimeOfDay"

end Op

def Foreign (f : Fields) : Prop :=
  (0 ≤ f.millisecond ∧ f.millisecond < 1000) ∧ ∃ n ∈ f.list, ¬Word.InRange n

instance (f : Fields) : Decidable (Foreign f) := inferInstanceAs (Decidable (_ ∧ _))

/-- What an operation comes to: the integer that its formula gives, or fields that are no date, or a field that
the host does not read. -/
inductive Exact
  | result (r : Reading)
  | noDate
  | foreign

/-- The result of an operation on durations and times, as exact integers. -/
def Op.exact (s : Session) : Op → Option Exact
  | newSpan [n] | fromTicks n => some (.result (.span n))
  | newSpan [h, m, sec] => some (.result (.span ((h * 3600 + m * 60 + sec) * 10000000)))
  | newSpan [d, h, m, sec] => some (.result (.span ((d * 86400 + h * 3600 + m * 60 + sec) * 10000000)))
  | newSpan [d, h, m, sec, ms] =>
    some (.result (.span (((d * 86400 + h * 3600 + m * 60 + sec) * 1000 + ms) * 10000)))
  | newSpan _ => none
  | newTime args =>
    if ¬ args.Fit then none
    else if Foreign args.toFields then some .foreign
    else if args.toFields.Proper then some (.result (.time args.toFields.ticks args.kind))
    else some .noDate
  | addSpans _ x y => do some (.result (.span ((← span? s x) + (← span? s y))))
  | subtractSpans _ x y => do some (.result (.span ((← span? s x) - (← span? s y))))
  | negate _ x => do some (.result (.span (-(← span? s x))))
  | duration x | magnitude x => do some (.result (.span (← span? s x).natAbs))
  | addTicks d n => do
    let (a, k) ← time? s d
    some (.result (.time (a + n) k))
  | addToTime _ d x => do
    let (a, k) ← time? s d
    some (.result (.time (a + (← span? s x)) k))
  | subtractFromTime _ d x => do
    let (a, k) ← time? s d
    some (.result (.time (a - (← span? s x)) k))
  | subtractTimes _ d e => do
    let (a, k) ← time? s d
    let (b, k') ← time? s e
    if k = k' then some (.result (.span (a - b))) else none
  | date d => do
    let (a, k) ← time? s d
    some (.result (.time (a - a % 864000000000) k))
  | timeOfDay d => do some (.result (.span ((← time? s d).1 % 864000000000)))

/-- Operations on durations and times; in between, anything may happen, for these never change. -/
def protocol : Protocol Op where
  run := Op.run
  allowed s op := (op.exact s).isSome
  quiet s t := ∀ v r, Reads s v r → Reads t v r

/-- The durations and times that have been made show their ticks, which are in range. -/
def Holds (s : Session) (m : List (Value × Reading)) : Prop :=
  ∀ v r, (v, r) ∈ m → Reads s v r ∧ r.InRange ∧
    s.exec (Properties.read v "Ticks") = (.ok (.int r.ticks), s)

def Fails (e : Invocation Op) (kind : ErrorKind) : Prop :=
  ∃ f : Failure, e.outcome = .error (.failure f) ∧ f.kind = kind ∧ e.after = e.before

/-- One operation. A result in range is made as it is, and nothing is made of any other. -/
def Step (m : List (Value × Reading)) (e : Invocation Op) (m' : List (Value × Reading)) : Prop :=
  Holds e.after m' ∧
    match e.op.exact e.before with
    | some (.result r) =>
      (r.InRange → ∃ v, e.outcome = .ok v ∧ m' = m ++ [(v, r)]) ∧
        (¬ r.InRange → Fails e r.errorKind ∧ m' = m)
    | some .noDate => Fails e .argumentOutOfRange ∧ m' = m
    | some .foreign => e.outcome = .error (.misuse .tooLarge) ∧ e.after = e.before ∧ m' = m
    | none => False

variable {s t : Session} {v x y : Value} {r : Reading} {n : Int} {k : DateTimeKind}

theorem span?_eq_some : span? s v = some n ↔ ∃ a, s.object? v = some (.timeSpan a) ∧ a.ticks = n := by
  rw [span?]
  constructor
  · split
    · rename_i a ha
      intro h
      exact ⟨a, ha, Option.some.inj h⟩
    · exact nofun
  · rintro ⟨a, ha, rfl⟩
    rw [ha]

theorem time?_eq_some : time? s v = some (n, k) ↔
    ∃ d, s.object? v = some (.dateTime d) ∧ (d.ticks : Int) = n ∧ d.kind = k := by
  rw [time?]
  constructor
  · split
    · rename_i d hd
      intro h
      obtain ⟨hticks, hkind⟩ := Prod.mk.inj (Option.some.inj h)
      exact ⟨d, hd, hticks, hkind⟩
    · exact nofun
  · rintro ⟨d, hd, rfl, rfl⟩
    rw [hd]

theorem object?_extends (h : Extends s t) {o : Object} (ho : s.object? v = some o) : t.object? v = some o := by
  obtain ⟨id, rfl, hid⟩ := exists_ref ho
  exact h.kept hid

theorem Reads.extends (h : Reads s v r) (hext : Extends s t) : Reads t v r := by
  cases r with
  | span n =>
      obtain ⟨a, ha, hn⟩ := span?_eq_some.mp h
      exact span?_eq_some.mpr ⟨a, object?_extends hext ha, hn⟩
  | time n k =>
      obtain ⟨d, hd, hn⟩ := time?_eq_some.mp h
      exact time?_eq_some.mpr ⟨d, object?_extends hext hd, hn⟩

theorem Reads.inRange (h : Reads s v r) : r.InRange := by
  cases r with
  | span n =>
      obtain ⟨a, -, rfl⟩ := span?_eq_some.mp h
      exact ⟨a.lower, a.upper⟩
  | time n k =>
      obtain ⟨d, -, rfl, -⟩ := time?_eq_some.mp h
      exact ⟨Int.natCast_nonneg _, Int.ofNat_le.mpr d.ticks_le⟩

theorem Reads.ticks (h : Reads s v r) : s.exec (Properties.read v "Ticks") = (.ok (.int r.ticks), s) := by
  have hread {o : Object} (ho : s.object? v = some o)
      (hknown : Properties.known? s v o "Ticks" = some (.int r.ticks)) :
      s.exec (Properties.read v "Ticks") = (.ok (.int r.ticks), s) := by
    rw [Properties.read, exec_get_bind]
    simp only [ho, hknown]
    rfl
  cases r with
  | span n =>
      obtain ⟨a, ha, rfl⟩ := span?_eq_some.mp h
      exact hread ha rfl
  | time n k =>
      obtain ⟨d, hd, rfl, -⟩ := time?_eq_some.mp h
      exact hread hd rfl

def Makes (s : Session) (a : Action Value) (r : Reading) : Prop :=
  (r.InRange → ∃ v t, s.exec a = (.ok v, t) ∧ Extends s t ∧ Reads t v r) ∧
    (¬ r.InRange → ∃ f : Failure, s.exec a = (.error (.failure f), s) ∧ f.kind = r.errorKind)

theorem Makes.congr {a b : Action Value} (h : Makes s b r) (hab : s.exec a = s.exec b) : Makes s a r := by
  rwa [Makes, hab]

theorem makes_newSpan (s : Session) (n : Int) : Makes s (newSpan (TimeSpan.ofTicks n)) (.span n) := by
  constructor
  · intro h
    have hspan : TimeSpan.ofTicks n = .ok ⟨n, h.1, h.2⟩ := dif_pos h
    rw [hspan]
    exact ⟨_, _, rfl, extends_grow s _, span?_eq_some.mpr ⟨_, object?_grow s _, rfl⟩⟩
  · intro h
    have hspan : TimeSpan.ofTicks n = .error .durationOverflow := dif_neg h
    rw [hspan]
    exact ⟨_, rfl, rfl⟩

theorem makes_newTime (s : Session) (n : Int) (k : DateTimeKind) :
    Makes s (newTime (DateTime.ofTicks n k)) (.time n k) := by
  constructor
  · intro h
    have htime : DateTime.ofTicks n k = .ok ⟨n.toNat, k, by have := h.1; have := h.2; omega⟩ := dif_pos h
    rw [htime]
    exact ⟨_, _, rfl, extends_grow s _,
      time?_eq_some.mpr ⟨_, object?_grow s _, Int.toNat_of_nonneg h.1, rfl⟩⟩
  · intro h
    have htime : DateTime.ofTicks n k = .error .dateOverflow := dif_neg h
    rw [htime]
    exact ⟨_, rfl, rfl⟩

theorem makes_pure (h : Reads s v r) : Makes s (pure v) r :=
  ⟨fun _ => ⟨v, s, rfl, Extends.refl s, h⟩, fun hn => absurd h.inRange hn⟩

theorem makes_negate (s : Session) (a : TimeSpan) : Makes s (newSpan a.negate) (.span (-a.ticks)) := by
  by_cases h : a.ticks = -9223372036854775808
  · have hnegate : a.negate = .error .negatedMinimum := if_pos h
    rw [hnegate]
    refine ⟨fun hin => ?_, fun _ => ⟨_, rfl, rfl⟩⟩
    have := hin.2
    omega
  · have hnegate : a.negate = TimeSpan.ofTicks (-a.ticks) := if_neg h
    rw [hnegate]
    exact makes_newSpan s _

variable {a b : TimeSpan} {d e : DateTime}

theorem view_span {id : Nat} (h : s.store[id]? = some (.timeSpan a)) : s.view (.ref id) = .timeSpan a := by
  simp only [view, depth, viewAt, h]

theorem exec_ticksOf (h : s.object? v = some (.timeSpan a)) : s.exec (Times.ticksOf v) = (.ok a.ticks, s) := by
  obtain ⟨id, rfl, hid⟩ := exists_ref h
  rw [Times.ticksOf, exec_get_bind, view_span hid]
  rfl

theorem exec_addToSpan (hy : s.object? y = some (.timeSpan b)) :
    s.exec (Times.addToSpan a y) = s.exec (newSpan (TimeSpan.ofTicks (a.ticks + b.ticks))) :=
  exec_bind_ok (exec_ticksOf hy) _

theorem exec_subtractFromSpan (hy : s.object? y = some (.timeSpan b)) :
    s.exec (Times.subtractFromSpan a y) = s.exec (newSpan (TimeSpan.ofTicks (a.ticks - b.ticks))) :=
  exec_bind_ok (exec_ticksOf hy) _

theorem exec_opAdd (x y : Value) : s.exec (Catalogue.call "op.add" [x, y]) = s.exec (addValues x y) := rfl

theorem exec_opSub (x y : Value) : s.exec (Catalogue.call "op.sub" [x, y]) = s.exec (subValues x y) := rfl

theorem exec_addition (x y : Value) :
    s.exec (Times.addition.call [x, y]) = s.exec (match s.object? x with
      | some (.timeSpan t) => Times.addToSpan t y
      | some (.dateTime d) => Times.addToTime d y
      | _ => misuse .noSuchMember) := rfl

theorem exec_addSpans (hx : s.object? x = some (.timeSpan a)) (hy : s.object? y = some (.timeSpan b))
    (form : Form) :
    s.exec ((Op.addSpans form x y).run) = s.exec (newSpan (TimeSpan.ofTicks (a.ticks + b.ticks))) := by
  obtain ⟨i, rfl, hi⟩ := exists_ref hx
  obtain ⟨j, rfl, -⟩ := exists_ref hy
  cases form with
  | method =>
      refine (exec_call hi rfl _).trans ?_
      exact exec_addToSpan hy
  | static =>
      change s.exec (Times.addition.call [.ref i, .ref j]) = _
      rw [exec_addition, hx]
      exact exec_addToSpan hy
  | operator =>
      refine (exec_opAdd _ _).trans ?_
      change s.exec (get >>= fun s : Session => _) = _
      rw [exec_get_bind]
      simp only [hx, hy]
      rfl

theorem exec_subtractSpans (hx : s.object? x = some (.timeSpan a)) (hy : s.object? y = some (.timeSpan b))
    (form : Form) :
    s.exec ((Op.subtractSpans form x y).run) = s.exec (newSpan (TimeSpan.ofTicks (a.ticks - b.ticks))) := by
  obtain ⟨i, rfl, hi⟩ := exists_ref hx
  obtain ⟨j, rfl, -⟩ := exists_ref hy
  cases form with
  | method =>
      refine (exec_call hi rfl _).trans ?_
      exact exec_subtractFromSpan hy
  | static =>
      change s.exec (Times.subtraction (.ref i) (.ref j)) = _
      rw [Times.subtraction, exec_get_bind, hx]
      exact exec_subtractFromSpan hy
  | operator =>
      refine (exec_opSub _ _).trans ?_
      change s.exec (get >>= fun s : Session => _) = _
      rw [exec_get_bind]
      simp only [hx, hy]
      rfl

theorem exec_negate (hx : s.object? x = some (.timeSpan a)) (form : Form) :
    s.exec ((Op.negate form x).run) = s.exec (newSpan a.negate) := by
  obtain ⟨i, rfl, hi⟩ := exists_ref hx
  cases form with
  | method =>
      refine (exec_call hi rfl _).trans ?_
      rfl
  | static =>
      change s.exec (get >>= fun s => match s.object? (.ref i) with
        | some (.timeSpan t) => newSpan t.negate
        | _ => misuse .noSuchMember) = _
      rw [exec_get_bind, hx]
  | operator =>
      change s.exec (negValue (.ref i)) = _
      change s.exec (get >>= fun s : Session => _) = _
      rw [exec_get_bind]
      simp only [hx]

theorem makes_absValue (hx : s.object? x = some (.timeSpan a)) :
    Makes s (absValue x) (.span a.ticks.natAbs) := by
  obtain ⟨i, rfl, hi⟩ := exists_ref hx
  have hrun : s.exec (absValue (.ref i)) =
      s.exec (if a.ticks < 0 then newSpan a.negate else pure (.ref i)) := by
    change s.exec (get >>= fun s : Session => _) = _
    rw [exec_get_bind]
    simp only [hx]
  by_cases h : a.ticks < 0
  · rw [if_pos h] at hrun
    rw [Int.ofNat_natAbs_of_nonpos (Int.le_of_lt h)]
    exact (makes_negate s a).congr hrun
  · rw [if_neg h] at hrun
    rw [Int.natAbs_of_nonneg (Int.not_lt.mp h)]
    have hreads : Reads s (.ref i) (.span a.ticks) := span?_eq_some.mpr ⟨a, hx, rfl⟩
    exact (makes_pure hreads).congr hrun

theorem exec_duration (hx : s.object? x = some (.timeSpan a)) :
    s.exec ((Op.duration x).run) = s.exec (absValue x) := by
  obtain ⟨i, rfl, hi⟩ := exists_ref hx
  refine (exec_call hi rfl _).trans ?_
  rfl

theorem exec_addToTime (hd : s.object? v = some (.dateTime d)) (hx : s.object? x = some (.timeSpan a))
    (form : Form) :
    s.exec ((Op.addToTime form v x).run) = s.exec (newTime (DateTime.ofTicks (d.ticks + a.ticks) d.kind)) := by
  obtain ⟨i, rfl, hi⟩ := exists_ref hd
  obtain ⟨j, rfl, -⟩ := exists_ref hx
  have hadd : s.exec (Times.addToTime d (.ref j)) = s.exec (newTime (d.addTicks a.ticks)) :=
    exec_bind_ok (exec_ticksOf hx) _
  cases form with
  | method =>
      refine (exec_call hi rfl _).trans ?_
      exact hadd
  | static =>
      change s.exec (Times.addition.call [.ref i, .ref j]) = _
      rw [exec_addition, hd]
      exact hadd
  | operator =>
      refine (exec_opAdd _ _).trans ?_
      change s.exec (get >>= fun s : Session => _) = _
      rw [exec_get_bind]
      simp only [hd, hx]
      rfl

theorem exec_subtractTime (hd : s.object? v = some (.dateTime d)) {o : Object} (hy : s.object? y = some o)
    (ho : (∃ a, o = .timeSpan a) ∨ ∃ e, o = .dateTime e) (form : Form) :
    s.exec (form.call v "Subtract" "DateTime.op_Subtraction" "op.sub" [y]) = s.exec (subtractTime d o) := by
  obtain ⟨i, rfl, hi⟩ := exists_ref hd
  obtain ⟨j, rfl, -⟩ := exists_ref hy
  have hsubtract : s.exec (Times.subtractFromTime d (.ref j)) = s.exec (subtractTime d o) := by
    rw [Times.subtractFromTime, exec_get_bind, hy]
  cases form with
  | method =>
      refine (exec_call hi rfl _).trans ?_
      exact hsubtract
  | static =>
      change s.exec (Times.timeSubtraction (.ref i) (.ref j)) = _
      rw [Times.timeSubtraction, exec_get_bind, hd]
      exact hsubtract
  | operator =>
      refine (exec_opSub _ _).trans ?_
      change s.exec (get >>= fun s : Session => _) = _
      rw [exec_get_bind]
      obtain ⟨a, rfl⟩ | ⟨e, rfl⟩ := ho
      · simp only [hd, hy]
      · simp only [hd, hy]

theorem exec_subtractFromTime (hd : s.object? v = some (.dateTime d))
    (hx : s.object? x = some (.timeSpan a)) (form : Form) :
    s.exec ((Op.subtractFromTime form v x).run) =
      s.exec (newTime (DateTime.ofTicks (d.ticks - a.ticks) d.kind)) :=
  exec_subtractTime hd hx (.inl ⟨a, rfl⟩) form

theorem exec_subtractTimes (hd : s.object? x = some (.dateTime d)) (he : s.object? y = some (.dateTime e))
    (hkind : d.kind = e.kind) (form : Form) :
    s.exec ((Op.subtractTimes form x y).run) = s.exec (newSpan (TimeSpan.ofTicks (d.ticks - e.ticks))) := by
  have hpair : d.subtract s.offset e = TimeSpan.ofTicks (d.ticks - e.ticks) := by
    rw [DateTime.subtract, DateTime.pair, if_pos hkind]
  rw [← hpair]
  exact exec_subtractTime hd he (.inr ⟨e, rfl⟩) form

theorem exec_addTicks (hd : s.object? v = some (.dateTime d)) (n : Int) :
    s.exec ((Op.addTicks v n).run) = s.exec (newTime (DateTime.ofTicks (d.ticks + n) d.kind)) := by
  obtain ⟨i, rfl, hi⟩ := exists_ref hd
  refine (exec_call hi rfl _).trans ?_
  rfl

theorem makes_date (hd : s.object? v = some (.dateTime d)) :
    Makes s (Op.date v).run (.time (d.ticks - d.ticks % 864000000000) d.kind) := by
  obtain ⟨i, rfl, hi⟩ := exists_ref hd
  have hticks : (d.date.ticks : Int) = d.ticks - d.ticks % 864000000000 := by
    dsimp only [DateTime.date, TimeSpan.perDay]
    omega
  have hreads : Reads (s.grow (.dateTime d.date)) (.ref s.store.size)
      (.time (d.ticks - d.ticks % 864000000000) d.kind) :=
    time?_eq_some.mpr ⟨_, object?_grow s _, hticks, rfl⟩
  exact ⟨fun _ => ⟨_, _, exec_date hi, extends_grow s _, hreads⟩, fun hn => absurd hreads.inRange hn⟩

theorem exec_timeOfDay (hd : s.object? v = some (.dateTime d)) :
    s.exec ((Op.timeOfDay v).run) = s.exec (newSpan (TimeSpan.ofTicks (d.ticks % 864000000000))) := by
  change s.exec (Properties.read v "TimeOfDay") = _
  rw [Properties.read, exec_get_bind]
  simp only [hd]
  rfl

theorem exec_newTime {args : TimeArguments} (h : args.Fit) :
    s.exec ((Op.newTime args).run) =
      s.exec (Times.newDateTime (args.toFields.list.map Value.int ++ [.symbol (.kind args.kind)])) := by
  cases args with
  | numbers ns =>
      match ns, h with
      | [], _ => rfl
      | [_], _ => rfl
      | [_, _], _ => rfl
      | [_, _, _], _ => rfl
      | [_, _, _, _], _ => rfl
      | [_, _, _, _, _], _ => rfl
      | [_, _, _, _, _, _], _ => rfl
      | [_, _, _, _, _, _, _], _ => rfl
      | _ :: _ :: _ :: _ :: _ :: _ :: _ :: _ :: _, h =>
        simp only [TimeArguments.Fit, List.length_cons] at h
        omega
  | fields f k => exact exec_dateTime f (some k)
  | date year month day k ns =>
      match ns, h with
      | [], _ => rfl
      | [_], _ => rfl
      | [_, _], _ => rfl
      | [_, _, _], _ => rfl
      | _ :: _ :: _ :: _ :: _, h =>
        simp only [TimeArguments.Fit, List.length_cons] at h
        omega

theorem not_forall_inRange {f : Fields} (h : Foreign f) : ¬ ∀ n ∈ f.list, Word.InRange n := by
  obtain ⟨-, n, hn, hrange⟩ := h
  exact fun hall => hrange (hall n hn)

theorem makes_newTime_proper {args : TimeArguments} (hfit : args.Fit) (h : args.toFields.Proper) :
    Makes s (Op.newTime args).run (.time args.toFields.ticks args.kind) := by
  obtain ⟨d, hd, hticks, hkind⟩ := DateTime.ofFields_eq h args.kind
  have hrun := (exec_newTime hfit).trans (exec_newDateTime (s := s) h.inRange args.kind)
  rw [hd] at hrun
  have hreads : Reads (s.grow (.dateTime d)) (.ref s.store.size) (.time args.toFields.ticks args.kind) :=
    time?_eq_some.mpr ⟨_, object?_grow s _, hticks, hkind⟩
  exact ⟨fun _ => ⟨_, _, hrun, extends_grow s _, hreads⟩, fun hn => absurd hreads.inRange hn⟩

theorem exec_newTime_noDate {args : TimeArguments} (hfit : args.Fit) (hproper : ¬ args.toFields.Proper)
    (hforeign : ¬ Foreign args.toFields) :
    ∃ f : Failure, s.exec ((Op.newTime args).run) = (.error (.failure f), s) ∧
      f.kind = .argumentOutOfRange := by
  by_cases hf : ∀ n ∈ args.toFields.list, Word.InRange n
  · obtain ⟨f, hf', hkind⟩ := DateTime.ofFields_error hproper args.kind
    have hrun := (exec_newTime hfit).trans (exec_newDateTime (s := s) hf args.kind)
    rw [hf'] at hrun
    exact ⟨f, hrun, hkind⟩
  · -- A field is no 32-bit integer, so the milliseconds have been refused before it.
    have hms : args.toFields.millisecond < 0 ∨ 1000 ≤ args.toFields.millisecond := by
      by_contra h
      push Not at hf h
      exact hforeign ⟨⟨by omega, by omega⟩, hf⟩
    refine ⟨.outOfRange "millisecond", (exec_newTime hfit).trans ?_, rfl⟩
    rw [exec_newDateTime_eq, if_pos hms]
    rfl

theorem exec_newTime_foreign {args : TimeArguments} (hfit : args.Fit) (h : Foreign args.toFields) :
    s.exec ((Op.newTime args).run) = (.error (.misuse .tooLarge), s) :=
  (exec_newTime hfit).trans (exec_newDateTime_foreign h.1 (not_forall_inRange h) args.kind)

def ComesTo (s : Session) (a : Action Value) : Exact → Prop
  | .result r => Makes s a r
  | .noDate => ∃ f : Failure, s.exec a = (.error (.failure f), s) ∧ f.kind = .argumentOutOfRange
  | .foreign => s.exec a = (.error (.misuse .tooLarge), s)

theorem comesTo_newSpan {ns : List Int} {x : Exact} (h : (Op.newSpan ns).exact s = some x) :
    ComesTo s (Op.newSpan ns).run x := by
  match ns, h with
  | [n], h =>
      cases h
      exact makes_newSpan s n
  | [hour, minute, second], h =>
      cases h
      have hticks : (hour * 3600 + minute * 60 + second) * 10000000 =
          (0 + hour * 3600 + minute * 60 + second * 1) * (TimeSpan.perSecond : Int) := by
        dsimp only [TimeSpan.perSecond]
        ring
      rw [hticks]
      exact makes_newSpan s _
  | [day, hour, minute, second], h =>
      cases h
      have hticks : (day * 86400 + hour * 3600 + minute * 60 + second) * 10000000 =
          (0 + day * 86400 + hour * 3600 + minute * 60 + second * 1) * 1000 *
            (TimeSpan.perMillisecond : Int) := by
        dsimp only [TimeSpan.perMillisecond]
        ring
      rw [hticks]
      exact makes_newSpan s _
  | [day, hour, minute, second, millisecond], h =>
      cases h
      have hticks : ((day * 86400 + hour * 3600 + minute * 60 + second) * 1000 + millisecond) * 10000 =
          ((0 + day * 86400 + hour * 3600 + minute * 60 + second * 1) * 1000 + millisecond) *
            (TimeSpan.perMillisecond : Int) := by
        dsimp only [TimeSpan.perMillisecond]
        ring
      rw [hticks]
      exact makes_newSpan s _

theorem exact_newTime {args : TimeArguments} {x : Exact} (h : (Op.newTime args).exact s = some x) :
    args.Fit ∧ (Foreign args.toFields ∧ x = .foreign ∨
      args.toFields.Proper ∧ x = .result (.time args.toFields.ticks args.kind) ∨
      ¬ args.toFields.Proper ∧ ¬ Foreign args.toFields ∧ x = .noDate) := by
  rw [Op.exact] at h
  split at h
  · cases h
  rename_i hfit
  refine ⟨not_not.mp hfit, ?_⟩
  split at h
  · exact .inl ⟨‹_›, (Option.some.inj h).symm⟩
  split at h
  · exact .inr (.inl ⟨‹_›, (Option.some.inj h).symm⟩)
  · exact .inr (.inr ⟨‹_›, ‹_›, (Option.some.inj h).symm⟩)

theorem comesTo {op : Op} {x : Exact} (h : op.exact s = some x) : ComesTo s op.run x := by
  cases op with
  | newSpan ns => exact comesTo_newSpan h
  | fromTicks n =>
      cases h
      exact makes_newSpan s n
  | newTime args =>
      obtain ⟨hfit, ⟨hforeign, rfl⟩ | ⟨hproper, rfl⟩ | ⟨hproper, hforeign, rfl⟩⟩ := exact_newTime h
      · exact exec_newTime_foreign hfit hforeign
      · exact makes_newTime_proper hfit hproper
      · exact exec_newTime_noDate hfit hproper hforeign
  | addSpans form x y =>
      simp only [Op.exact, Option.bind_eq_bind, Option.bind_eq_some_iff, span?_eq_some] at h
      obtain ⟨_, ⟨a, hx, rfl⟩, _, ⟨b, hy, rfl⟩, h⟩ := h
      cases h
      exact (makes_newSpan s _).congr (exec_addSpans hx hy form)
  | subtractSpans form x y =>
      simp only [Op.exact, Option.bind_eq_bind, Option.bind_eq_some_iff, span?_eq_some] at h
      obtain ⟨_, ⟨a, hx, rfl⟩, _, ⟨b, hy, rfl⟩, h⟩ := h
      cases h
      exact (makes_newSpan s _).congr (exec_subtractSpans hx hy form)
  | negate form x =>
      simp only [Op.exact, Option.bind_eq_bind, Option.bind_eq_some_iff, span?_eq_some] at h
      obtain ⟨_, ⟨a, hx, rfl⟩, h⟩ := h
      cases h
      exact (makes_negate s a).congr (exec_negate hx form)
  | duration x =>
      simp only [Op.exact, Option.bind_eq_bind, Option.bind_eq_some_iff, span?_eq_some] at h
      obtain ⟨_, ⟨a, hx, rfl⟩, h⟩ := h
      cases h
      exact (makes_absValue hx).congr (exec_duration hx)
  | magnitude x =>
      simp only [Op.exact, Option.bind_eq_bind, Option.bind_eq_some_iff, span?_eq_some] at h
      obtain ⟨_, ⟨a, hx, rfl⟩, h⟩ := h
      cases h
      exact makes_absValue hx
  | addTicks d n =>
      simp only [Op.exact, Option.bind_eq_bind, Option.bind_eq_some_iff, Prod.exists, time?_eq_some] at h
      obtain ⟨_, _, ⟨d, hd, rfl, rfl⟩, h⟩ := h
      cases h
      exact (makes_newTime s _ _).congr (exec_addTicks hd n)
  | addToTime form d x =>
      simp only [Op.exact, Option.bind_eq_bind, Option.bind_eq_some_iff, Prod.exists, time?_eq_some,
        span?_eq_some] at h
      obtain ⟨_, _, ⟨d, hd, rfl, rfl⟩, _, ⟨a, hx, rfl⟩, h⟩ := h
      cases h
      exact (makes_newTime s _ _).congr (exec_addToTime hd hx form)
  | subtractFromTime form d x =>
      simp only [Op.exact, Option.bind_eq_bind, Option.bind_eq_some_iff, Prod.exists, time?_eq_some,
        span?_eq_some] at h
      obtain ⟨_, _, ⟨d, hd, rfl, rfl⟩, _, ⟨a, hx, rfl⟩, h⟩ := h
      cases h
      exact (makes_newTime s _ _).congr (exec_subtractFromTime hd hx form)
  | subtractTimes form d e =>
      simp only [Op.exact, Option.bind_eq_bind, Option.bind_eq_some_iff, Prod.exists, time?_eq_some] at h
      obtain ⟨_, _, ⟨d, hd, rfl, rfl⟩, _, _, ⟨e, he, rfl, rfl⟩, h⟩ := h
      split at h
      · cases h
        exact (makes_newSpan s _).congr (exec_subtractTimes hd he ‹_› form)
      · cases h
  | date d =>
      simp only [Op.exact, Option.bind_eq_bind, Option.bind_eq_some_iff, Prod.exists, time?_eq_some] at h
      obtain ⟨_, _, ⟨d, hd, rfl, rfl⟩, h⟩ := h
      cases h
      exact makes_date hd
  | timeOfDay d =>
      simp only [Op.exact, Option.bind_eq_bind, Option.bind_eq_some_iff, Prod.exists, time?_eq_some] at h
      obtain ⟨_, _, ⟨d, hd, rfl, rfl⟩, h⟩ := h
      cases h
      exact (makes_newSpan s _).congr (exec_timeOfDay hd)

theorem Holds.quiet {m : List (Value × Reading)} (h : Holds s m) (hst : protocol.quiet s t) : Holds t m :=
  fun v r hmem =>
    have hreads := hst v r (h v r hmem).1
    ⟨hreads, hreads.inRange, hreads.ticks⟩

theorem Holds.append {m : List (Value × Reading)} (h : Holds s m) (hr : Reads s v r) :
    Holds s (m ++ [(v, r)]) := by
  intro w q hmem
  obtain hmem | hmem := List.mem_append.mp hmem
  · exact h w q hmem
  · cases List.mem_singleton.mp hmem
    exact ⟨hr, hr.inRange, hr.ticks⟩

theorem quiet_of_extends (h : Extends s t) : protocol.quiet s t := fun _ _ hr => hr.extends h

theorem step {op : Op} {m : List (Value × Reading)} (ha : protocol.allowed s op) (hs : Holds s m) :
    ∃ m', Step m (protocol.call s op) m' ∧ Holds (protocol.call s op).after m' := by
  obtain ⟨x, hx⟩ := Option.isSome_iff_exists.mp ha
  have hcomes := comesTo hx
  cases x with
  | result r =>
      by_cases hr : r.InRange
      · obtain ⟨v, t, hrun, hext, hreads⟩ := hcomes.1 hr
        rw [Protocol.call_of (p := protocol) hrun]
        have hafter := (hs.quiet (quiet_of_extends hext)).append hreads
        refine ⟨_, ⟨hafter, ?_⟩, hafter⟩
        dsimp only
        rw [hx]
        exact ⟨fun _ => ⟨v, rfl, rfl⟩, fun hn => absurd hr hn⟩
      · obtain ⟨f, hrun, hkind⟩ := hcomes.2 hr
        rw [Protocol.call_of (p := protocol) hrun]
        refine ⟨m, ⟨hs, ?_⟩, hs⟩
        dsimp only
        rw [hx]
        exact ⟨fun h => absurd h hr, fun _ => ⟨⟨f, rfl, hkind, rfl⟩, rfl⟩⟩
  | noDate =>
      obtain ⟨f, hrun, hkind⟩ := hcomes
      rw [Protocol.call_of (p := protocol) hrun]
      refine ⟨m, ⟨hs, ?_⟩, hs⟩
      dsimp only
      rw [hx]
      exact ⟨⟨f, rfl, hkind, rfl⟩, rfl⟩
  | foreign =>
      rw [Protocol.call_of (p := protocol) hcomes]
      refine ⟨m, ⟨hs, ?_⟩, hs⟩
      dsimp only
      rw [hx]
      exact ⟨rfl, rfl, rfl⟩

theorem exec_equals_of_reads (hx : Reads s x r) (hy : Reads s y r) :
    s.exec (Methods.call x "Equals" [y]) = (.ok (.bool true), s) := by
  cases r with
  | span n =>
      obtain ⟨a, ha, rfl⟩ := span?_eq_some.mp hx
      obtain ⟨b, hb, hticks⟩ := span?_eq_some.mp hy
      obtain ⟨i, rfl, hi⟩ := exists_ref ha
      obtain ⟨j, rfl, hj⟩ := exists_ref hb
      have hab : a = b := by
        cases a
        cases b
        cases hticks
        rfl
      have hequals : s.equals (.ref i) (.ref j) = true := by
        rw [equals, view_span hi, view_span hj]
        exact beq_iff_eq.mpr hab
      rw [← hequals]
      exact (exec_call hi rfl _).trans rfl
  | time n k =>
      obtain ⟨d, hd, rfl, rfl⟩ := time?_eq_some.mp hx
      obtain ⟨e, he, hticks, hkind⟩ := time?_eq_some.mp hy
      obtain ⟨i, rfl, hi⟩ := exists_ref hd
      obtain ⟨j, rfl, hj⟩ := exists_ref he
      have hinstant : (d.instant s.offset == e.instant s.offset) = true := by
        rw [beq_iff_eq]
        have := DateTime.instant_sub s.offset hkind
        omega
      rw [← hinstant]
      exact exec_equals hi hj

/-- What is made by one operation is taken back by another, at any time later. -/
def Undone (s : Session) (op : Op) (undo : Value → Op) (x : Value) : Prop :=
  ∀ v t t', s.exec op.run = (.ok v, t) → protocol.quiet t t' →
    ∃ w u r, t'.exec (undo v).run = (.ok w, u) ∧ Reads s x r ∧ Reads u w r ∧
      u.exec (Methods.call w "Equals" [x]) = (.ok (.bool true), u)

theorem undone {op : Op} {undo : Value → Op} {r' : Reading} (hx : Reads s x r)
    (hop : op.exact s = some (.result r'))
    (hundo : ∀ t v, protocol.quiet s t → Reads t v r' → (undo v).exact t = some (.result r)) :
    Undone s op undo x := by
  intro v t t' hrun hquiet
  have hmakes := comesTo hop
  by_cases hr : r'.InRange
  · obtain ⟨v', t', hrun', hext, hreads⟩ := hmakes.1 hr
    cases hrun.symm.trans hrun'
    have hst := fun w q h => hquiet w q (quiet_of_extends hext w q h)
    obtain ⟨w, u, hrun', hext', hw⟩ := (comesTo (hundo _ v hst (hquiet v _ hreads))).1 hx.inRange
    exact ⟨w, u, r, hrun', hx, hw, exec_equals_of_reads hw (hst x _ hx |>.extends hext')⟩
  · obtain ⟨f, hrun', -⟩ := hmakes.2 hr
    cases hrun.symm.trans hrun'

theorem undone_addSpans {form : Form} (ha : protocol.allowed s (.addSpans form x y)) (form' : Form) :
    Undone s (.addSpans form x y) (.subtractSpans form' · y) x := by
  obtain ⟨r', hop⟩ := Option.isSome_iff_exists.mp ha
  have h := hop
  simp only [Op.exact, Option.bind_eq_bind, Option.bind_eq_some_iff] at h
  obtain ⟨a, hx, b, hy, h⟩ := h
  cases h
  refine undone (r := .span a) hx hop fun t v hst hv => ?_
  have hv' : span? t v = some (a + b) := hv
  have hy' : span? t y = some b := hst y (.span b) hy
  simp [Op.exact, hv', hy']

theorem undone_addToTime {form : Form} (ha : protocol.allowed s (.addToTime form v y)) (form' : Form) :
    Undone s (.addToTime form v y) (.subtractFromTime form' · y) v := by
  obtain ⟨r', hop⟩ := Option.isSome_iff_exists.mp ha
  have h := hop
  simp only [Op.exact, Option.bind_eq_bind, Option.bind_eq_some_iff, Prod.exists] at h
  obtain ⟨a, k, hv, b, hy, h⟩ := h
  cases h
  refine undone (r := .time a k) hv hop fun t w hst hw => ?_
  have hw' : time? t w = some (a + b, k) := hw
  have hy' : span? t y = some b := hst y (.span b) hy
  simp [Op.exact, hw', hy']

/-- Durations and times of integers are exact: in every run each operation gives what its formula gives if that is
in range, and otherwise fails and makes nothing; and what has been added can be subtracted again. -/
theorem ticks_exact (s : Session) :
    (∀ calls t, protocol.Runs s calls t → ∃ m, Follows Step [] calls m ∧ Holds t m) ∧
    (∀ x y form form', protocol.allowed s (.addSpans form x y) →
      Undone s (.addSpans form x y) (.subtractSpans form' · y) x) ∧
    ∀ d x form form', protocol.allowed s (.addToTime form d x) →
      Undone s (.addToTime form d x) (.subtractFromTime form' · x) d := by
  refine ⟨fun calls t hr => ?_, fun x y form form' ha => undone_addSpans ha form',
    fun d x form form' ha => undone_addToTime ha form'⟩
  exact hr.follows (fun hst h => h.quiet hst) step fun _ _ hmem => absurd hmem List.not_mem_nil

/-- The last time of all, and the next tick. -/
def pastEnd : Invocation Op := protocol.call (start 0) (.addTicks (.ref 6) 1)

def negated : Invocation Op := protocol.call pastEnd.after (.negate .operator (.ref 4))

def leapDay : Invocation Op := protocol.call negated.after (.newTime (.date 2000 2 29 .utc [59, 59]))

/-- Past both ends nothing is made; the least duration is taken from the greatest one and put back. -/
theorem ticks_exact_limits :
    (protocol.Runs (start 0) [pastEnd, negated, leapDay] leapDay.after ∧
      ∃ m, Follows Step [] [pastEnd, negated, leapDay] m ∧ Holds leapDay.after m) ∧
    (protocol.allowed (start 0) (.addSpans .method (.ref 3) (.ref 4)) ∧
      Undone (start 0) (.addSpans .method (.ref 3) (.ref 4)) (.subtractSpans .operator · (.ref 4)) (.ref 3)) ∧
    protocol.allowed (start 0) (.addToTime .static (.ref 5) (.ref 2)) ∧
      Undone (start 0) (.addToTime .static (.ref 5) (.ref 2)) (.subtractFromTime .method · (.ref 2)) (.ref 5) := by
  have hquiet (s : Session) : protocol.quiet s s := fun _ _ h => h
  have hr : protocol.Runs (start 0) [pastEnd, negated, leapDay] leapDay.after :=
    .call (hquiet _) rfl (.call (hquiet _) rfl (.call (hquiet _) rfl (.nil (hquiet _))))
  obtain ⟨hruns, hspans, htimes⟩ := ticks_exact (start 0)
  exact ⟨⟨hr, hruns _ _ hr⟩, ⟨rfl, hspans _ _ _ .operator rfl⟩, rfl, htimes _ _ _ .method rfl⟩

/-- A year that is no 32-bit integer is not refused as out of range: it does not reach the calendar. -/
theorem newTime_foreign_year :
    ¬ ∃ f : Failure, ((start 0).exec ((Op.newTime (.numbers [2147483648, 1, 1])).run)).1 =
      .error (.failure f) ∧ f.kind = .argumentOutOfRange := by
  rintro ⟨f, hf, -⟩
  cases hf

end BaseLib.Ticks
