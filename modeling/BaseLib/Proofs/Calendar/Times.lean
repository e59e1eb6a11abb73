import BaseLib.Library.Types
import BaseLib.Proofs.Calendar.Fields
import BaseLib.Proofs.Session.Exec

namespace BaseLib

open Library

namespace DateTime

/-- The arguments of the constructor; the kind may be left out. -/
def Fields.arguments (f : Fields) (kind : Option DateTimeKind) : List Value :=
  f.list.map Value.int ++ (kind.map fun k => Value.symbol (.kind k)).toList

end DateTime

namespace Session

open DateTime (Fields)

/-- A property of an object, read without any effect. -/
def Shows (s : Session) (id : Nat) (name : String) (v : Value) : Prop :=
  s.exec (Properties.read (.ref id) name) = (.ok v, s)

def ShowsFields (s : Session) (id : Nat) (f : Fields) : Prop :=
  List.Forall₂ (fun name n => s.Shows id name (.int n))
    ["Year", "Month", "Day", "Hour", "Minute", "Second", "Millisecond"] f.list

def Makes (s : Session) (f : Fields) (kind : Option DateTimeKind) (id : Nat) (t : Session) : Prop :=
  s.exec (Types.construct "DateTime" (f.arguments kind)) = (.ok (.ref id), t)

variable {s t : Session} {id : Nat} {f g : Fields} {kind : Option DateTimeKind} {d : DateTime}

theorem exec_fieldOf {n : Int} (h : Word.InRange n) : s.exec (Times.fieldOf (.int n)) = (.ok n, s) := by
  have hint : s.exec (needInt (.int n)) = (.ok n, s) := rfl
  rw [Times.fieldOf, exec_bind_ok hint, if_pos h, exec_pure]

theorem lookup_dateTime : Types.constructors.lookup "DateTime" = some Times.dateTimeConstructor := rfl

theorem exec_dateTime (f : Fields) (kind : Option DateTimeKind) :
    s.exec (Types.construct "DateTime" (f.arguments kind)) =
      s.exec (Times.newDateTime
        (f.list.map Value.int ++ [.symbol (.kind (kind.getD .unspecified))])) := by
  rw [Types.construct, lookup_dateTime]
  cases kind <;> rfl

theorem exec_newDateTime_eq (f : Fields) (k : DateTimeKind) :
    s.exec (Times.newDateTime (f.list.map Value.int ++ [.symbol (.kind k)])) = s.exec (do
      if f.millisecond < 0 ∨ 1000 ≤ f.millisecond then fail (.outOfRange "millisecond")
      let year ← Times.fieldOf (.int f.year)
      let month ← Times.fieldOf (.int f.month)
      let day ← Times.fieldOf (.int f.day)
      let hour ← Times.fieldOf (.int f.hour)
      let minute ← Times.fieldOf (.int f.minute)
      let second ← Times.fieldOf (.int f.second)
      newTime (DateTime.ofFields ⟨year, month, day, hour, minute, second, f.millisecond⟩ k)) := rfl

theorem exec_newDateTime (hf : ∀ n ∈ f.list, Word.InRange n) (k : DateTimeKind) :
    s.exec (Times.newDateTime (f.list.map Value.int ++ [.symbol (.kind k)])) =
      s.exec (newTime (DateTime.ofFields f k)) := by
  simp only [Fields.list, List.mem_cons, List.not_mem_nil, or_false, forall_eq_or_imp, forall_eq] at hf
  obtain ⟨hy, hm, hd, hh, hmi, hs, -⟩ := hf
  rw [exec_newDateTime_eq]
  by_cases hms : f.millisecond < 0 ∨ 1000 ≤ f.millisecond
  · rw [DateTime.ofFields, if_pos hms, if_pos hms]
    rfl
  · rw [if_neg hms]
    dsimp only
    rw [exec_bind_ok (exec_fieldOf hy),
      exec_bind_ok (exec_fieldOf hm), exec_bind_ok (exec_fieldOf hd), exec_bind_ok (exec_fieldOf hh),
      exec_bind_ok (exec_fieldOf hmi), exec_bind_ok (exec_fieldOf hs)]

theorem exec_fieldOf_bind {n : Int} {a : Int → Action Value}
    (h : Word.InRange n → s.exec (a n) = (.error (.misuse .tooLarge), s)) :
    s.exec (Times.fieldOf (.int n) >>= a) = (.error (.misuse .tooLarge), s) := by
  by_cases hn : Word.InRange n
  · rw [exec_bind_ok (exec_fieldOf hn)]
    exact h hn
  · have hint : s.exec (needInt (.int n)) = (.ok n, s) := rfl
    have hfield : s.exec (Times.fieldOf (.int n)) = (.error (.misuse .tooLarge), s) := by
      rw [Times.fieldOf, exec_bind_ok hint, if_neg hn]
      rfl
    exact exec_bind_error hfield _

theorem exec_newDateTime_foreign (hms : 0 ≤ f.millisecond ∧ f.millisecond < 1000)
    (hf : ¬ ∀ n ∈ f.list, Word.InRange n) (k : DateTimeKind) :
    s.exec (Times.newDateTime (f.list.map Value.int ++ [.symbol (.kind k)])) =
      (.error (.misuse .tooLarge), s) := by
  rw [exec_newDateTime_eq, if_neg (by omega)]
  refine exec_fieldOf_bind fun hy => exec_fieldOf_bind fun hm => exec_fieldOf_bind fun hd => ?_
  refine exec_fieldOf_bind fun hh => exec_fieldOf_bind fun hmi => exec_fieldOf_bind fun hs => ?_
  have hmillisecond : Word.InRange f.millisecond := by
    dsimp only [Word.InRange, Word.minValue, Word.maxValue]
    omega
  simp [Fields.list, hy, hm, hd, hh, hmi, hs, hmillisecond] at hf

theorem makes_or_refuses (hf : ∀ n ∈ f.list, Word.InRange n) (kind : Option DateTimeKind) :
    (f.Proper ∧ ∃ d, (d.ticks : Int) = f.ticks ∧ d.kind = kind.getD .unspecified ∧
      s.Makes f kind s.store.size (s.grow (.dateTime d))) ∨
    (¬ f.Proper ∧ ∃ e, s.exec (Types.construct "DateTime" (f.arguments kind)) = (.error (.failure e), s) ∧
      e.kind = .argumentOutOfRange) := by
  have hrun := (exec_dateTime (s := s) f kind).trans (exec_newDateTime hf _)
  by_cases h : f.Proper
  · obtain ⟨d, hd, hticks, hkind⟩ := DateTime.ofFields_eq h (kind.getD .unspecified)
    refine .inl ⟨h, d, hticks, hkind, hrun.trans ?_⟩
    rw [hd]
    rfl
  · obtain ⟨e, he, hkind⟩ := DateTime.ofFields_error h (kind.getD .unspecified)
    refine .inr ⟨h, e, hrun.trans ?_, hkind⟩
    rw [he]
    rfl

theorem shows_of {o : Object} {name : String} {v : Value} (h : s.store[id]? = some o)
    (hv : Properties.known? s (.ref id) o name = some v) : s.Shows id name v := by
  rw [Shows, Properties.read, exec_get_bind]
  simp only [object?, h, hv]
  rfl

theorem shows_ticks (h : s.store[id]? = some (.dateTime d)) : s.Shows id "Ticks" (.int d.ticks) :=
  shows_of h rfl

theorem shows_fields (h : s.store[id]? = some (.dateTime d)) : s.ShowsFields id d.fields :=
  .cons (shows_of h rfl) (.cons (shows_of h rfl) (.cons (shows_of h rfl) (.cons (shows_of h rfl)
    (.cons (shows_of h rfl) (.cons (shows_of h rfl) (.cons (shows_of h rfl) .nil))))))

theorem exec_date (h : s.store[id]? = some (.dateTime d)) :
    s.exec (Properties.read (.ref id) "Date") = (.ok (.ref s.store.size), s.grow (.dateTime d.date)) := by
  rw [Properties.read, exec_get_bind]
  simp only [object?, h]
  rfl

theorem Makes.object (hf : ∀ n ∈ f.list, Word.InRange n) (h : s.Makes f kind id t) :
    f.Proper ∧ ∃ d, t.store[id]? = some (.dateTime d) ∧ (d.ticks : Int) = f.ticks := by
  obtain ⟨hproper, d, hd, -, hmakes⟩ | ⟨-, e, he, -⟩ := makes_or_refuses (s := s) hf kind
  · cases h.symm.trans hmakes
    exact ⟨hproper, d, store_grow s _, hd⟩
  · cases h.symm.trans he

theorem Shows.ticks_eq {n : Int} (h : s.Shows id "Ticks" (.int n))
    (hd : s.store[id]? = some (.dateTime d)) : n = d.ticks := by
  cases h.symm.trans (shows_ticks hd)
  rfl

theorem makes_proper (hf : f.Proper) (s : Session) (kind : Option DateTimeKind) :
    ∃ d, (d.ticks : Int) = f.ticks ∧ s.Makes f kind s.store.size (s.grow (.dateTime d)) := by
  obtain ⟨-, d, hd, -, hmakes⟩ | ⟨hn, -⟩ := makes_or_refuses (s := s) hf.inRange kind
  · exact ⟨d, hd, hmakes⟩
  · exact absurd hf hn

/-- What a time shows of its place in the calendar: the date so many days after the first, of which the
weekday is a remainder, the same time without what is below a millisecond, and the days since the first of
January. -/
structure ShowsCalendar (s : Session) (id : Nat) (n : Nat) (f : Fields) : Prop where
  ticks : s.Shows id "Ticks" (.int n)
  fields : s.ShowsFields id f
  civil : f.civil = Civil.next^[n / TimeSpan.perDay] ⟨1, 1, 1⟩
  rebuilt : ∀ kind, ∃ j t, s.Makes f kind j t ∧ t.Shows j "Ticks" (.int (n - n % 10000 : Nat))
  dayOfWeek : s.Shows id "DayOfWeek" (.day ((n / TimeSpan.perDay + 1) % 7))
  dayOfYear : ∃ j t first, s.Makes (DateTime.newYear f.year) none j t ∧
    t.Shows j "Ticks" (.int first) ∧
    ∃ i u midnight, t.exec (Properties.read (.ref id) "Date") = (.ok (.ref i), u) ∧
      u.Shows i "Ticks" (.int midnight) ∧
      s.Shows id "DayOfYear" (.int ((midnight - first) / TimeSpan.perDay + 1)) ∧
      (TimeSpan.perDay : Int) ∣ midnight - first

theorem showsCalendar (h : s.store[id]? = some (.dateTime d)) : s.ShowsCalendar id d.ticks d.fields where
  ticks := shows_ticks h
  fields := shows_fields h
  civil := Civil.ofDays_eq_iterate _
  rebuilt kind := by
    obtain ⟨e, he, hmakes⟩ := makes_proper d.fields_proper s kind
    refine ⟨_, _, hmakes, ?_⟩
    have heq : (e.ticks : Int) = (d.ticks - d.ticks % 10000 : Nat) := by
      rw [he, DateTime.ticks_fields]
      omega
    exact heq ▸ shows_ticks (store_grow s _)
  dayOfWeek := shows_of h rfl
  dayOfYear := by
    obtain ⟨e, he, hmakes⟩ := makes_proper (DateTime.newYear_proper d.civil_valid.1) s none
    obtain ⟨hdate, hday⟩ := DateTime.dayOfYear_spec d he
    have hd := store_grow_of_some h (.dateTime e)
    have hdiff : (d.date.ticks : Int) - e.ticks = (d.dayOfYear - 1 : Nat) * (TimeSpan.perDay : Int) := by
      rw [hdate, Int.natCast_add, Int.natCast_mul, add_sub_cancel_left]
    have hdays : ((d.date.ticks : Int) - e.ticks) / TimeSpan.perDay + 1 = d.dayOfYear := by
      rw [hdiff, Int.mul_ediv_cancel _ (by decide)]
      omega
    refine ⟨_, _, _, hmakes, shows_ticks (store_grow s _), _, _, _, exec_date hd,
      shows_ticks (store_grow _ _), ?_, hdiff ▸ Int.dvd_mul_left _ _⟩
    rw [hdays]
    exact shows_of h rfl

/-- Times and the calendar: fields of 32 bits make a time exactly when they are proper, which then shows
them; ticks are ordered as fields are; every time shows its place in the calendar. -/
theorem times_calendar :
    (∀ (s : Session) (f : Fields) kind, (∀ n ∈ f.list, Word.InRange n) →
      (f.Proper ∧ ∃ id t, s.Makes f kind id t ∧ t.ShowsFields id f) ∨
      (¬ f.Proper ∧ ∃ e, s.exec (Types.construct "DateTime" (f.arguments kind)) =
        (.error (.failure e), s) ∧ e.kind = .argumentOutOfRange)) ∧
    (∀ (s s' t t' : Session) (f g : Fields) kind kind' id id' n n',
      (∀ n ∈ f.list, Word.InRange n) → (∀ n ∈ g.list, Word.InRange n) →
      s.Makes f kind id t → s'.Makes g kind' id' t' →
      t.Shows id "Ticks" (.int n) → t'.Shows id' "Ticks" (.int n') → (n < n' ↔ f.list < g.list)) ∧
    ∀ (s : Session) id d, s.store[id]? = some (.dateTime d) → ∃ n f, s.ShowsCalendar id n f := by
  refine ⟨fun s f kind hf => ?_, ?_, fun s id d h => ⟨_, _, showsCalendar h⟩⟩
  · obtain ⟨hproper, d, hd, -, hmakes⟩ | h := makes_or_refuses (s := s) hf kind
    · have hfields := shows_fields (store_grow s (.dateTime d))
      rw [DateTime.fields_eq hproper hd] at hfields
      exact .inl ⟨hproper, _, _, hmakes, hfields⟩
    · exact .inr h
  · intro s s' t t' f g kind kind' id id' n n' hf hg h h' hn hn'
    obtain ⟨hproper, d, hd, hticks⟩ := h.object hf
    obtain ⟨hproper', d', hd', hticks'⟩ := h'.object hg
    rw [hn.ticks_eq hd, hn'.ticks_eq hd', hticks, hticks']
    exact hproper.ticks_lt_iff hproper'

def leapDay : Fields := ⟨2000, 2, 29, 23, 59, 59, 999⟩

theorem times_calendar_leapDay :
    leapDay.Proper ∧ (∃ id t, (start 0).Makes leapDay none id t ∧ t.ShowsFields id leapDay) ∧
      ∃ n f, (start 0).ShowsCalendar 6 n f := by
  obtain ⟨hmakes, -, hshows⟩ := times_calendar
  have hproper : leapDay.Proper := by decide
  obtain ⟨-, h⟩ | ⟨hn, -⟩ := hmakes (start 0) leapDay none (by decide)
  · exact ⟨hproper, h, hshows (start 0) 6 DateTime.maxValue rfl⟩
  · exact absurd hproper hn

end Session

end BaseLib
