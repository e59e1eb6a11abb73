import BaseLib.Calendar.Civil
import BaseLib.Calendar.TimeSpan

namespace BaseLib

inductive DateTimeKind
  | localTime
  | unspecified
  | utc
  deriving DecidableEq, Repr, Inhabited

/-- Wall-clock ticks since 0001-01-01 and a kind. Values of one kind compare and subtract by wall clock; values
of different kinds are read as instants first, the local and the unspecified kind by the offset of the host. -/
structure DateTime where
  ticks : Nat
  kind : DateTimeKind
  ticks_le : ticks ≤ 3155378975999999999
  deriving DecidableEq, Repr

namespace DateTime

instance : Inhabited DateTime := ⟨⟨0, .unspecified, by decide⟩⟩

def maxTicks : Nat := 3155378975999999999

def ofTicks (ticks : Int) (kind : DateTimeKind) : Except Failure DateTime :=
  if h : 0 ≤ ticks ∧ ticks ≤ 3155378975999999999 then .ok ⟨ticks.toNat, kind, by omega⟩
  else .error .dateOverflow

def minValue : DateTime := ⟨0, .unspecified, by decide⟩

def maxValue : DateTime := ⟨3155378975999999999, .unspecified, by decide⟩

structure Fields where
  year : Int
  month : Int
  day : Int
  hour : Int
  minute : Int
  second : Int
  millisecond : Int
  deriving DecidableEq, Repr

namespace Fields

def civil (f : Fields) : Civil := ⟨f.year.toNat, f.month.toNat, f.day.toNat⟩

def Valid (f : Fields) : Prop :=
  (0 ≤ f.year ∧ 0 ≤ f.month ∧ 0 ≤ f.day ∧ f.civil.Valid) ∧
    (0 ≤ f.hour ∧ f.hour < 24) ∧ (0 ≤ f.minute ∧ f.minute < 60) ∧
    (0 ≤ f.second ∧ f.second < 60)

instance (f : Fields) : Decidable f.Valid := inferInstanceAs (Decidable (_ ∧ _))

def ticks (f : Fields) : Int :=
  (f.civil.toDays * 86400 + f.hour * 3600 + f.minute * 60 + f.second) * TimeSpan.perSecond +
    f.millisecond * TimeSpan.perMillisecond

end Fields

def ofFields (f : Fields) (kind : DateTimeKind) : Except Failure DateTime :=
  if f.millisecond < 0 ∨ 1000 ≤ f.millisecond then .error (.outOfRange "millisecond")
  else if f.Valid then
    -- valid fields have ticks of the range
    (ofTicks f.ticks kind).mapError fun _ => .noSuchDate
  else .error .noSuchDate

def civil (d : DateTime) : Civil := Civil.ofDays (d.ticks / TimeSpan.perDay)

def hour (d : DateTime) : Nat := d.ticks % TimeSpan.perDay / TimeSpan.perHour

def minute (d : DateTime) : Nat := d.ticks % TimeSpan.perHour / TimeSpan.perMinute

def second (d : DateTime) : Nat := d.ticks % TimeSpan.perMinute / TimeSpan.perSecond

def millisecond (d : DateTime) : Nat := d.ticks % TimeSpan.perSecond / TimeSpan.perMillisecond

def dayOfWeek (d : DateTime) : Nat := Civil.weekdayOfDays (d.ticks / TimeSpan.perDay)

def dayOfYear (d : DateTime) : Nat := d.civil.dayOfYear

def date (d : DateTime) : DateTime :=
  ⟨d.ticks - d.ticks % TimeSpan.perDay, d.kind, Nat.le_trans (Nat.sub_le _ _) d.ticks_le⟩

def timeOfDay (d : DateTime) : Nat := d.ticks % TimeSpan.perDay

/-- Ticks of the instant, for a host whose clock runs `offset` minutes ahead of UTC. -/
def instant (offset : Int) (d : DateTime) : Int :=
  match d.kind with
  | .utc => d.ticks
  | _ => d.ticks - offset * TimeSpan.perMinute

def pair (offset : Int) (a b : DateTime) : Int × Int :=
  if a.kind = b.kind then (a.ticks, b.ticks) else (a.instant offset, b.instant offset)

def cmp (offset : Int) (a b : DateTime) : Ordering :=
  compare (pair offset a b).1 (pair offset a b).2

def equals (offset : Int) (a b : DateTime) : Bool := (pair offset a b).1 == (pair offset a b).2

def hash (offset : Int) (d : DateTime) : Int := Word.fold (d.instant offset)

def addTicks (d : DateTime) (n : Int) : Except Failure DateTime := ofTicks (d.ticks + n) d.kind

def add (d : DateTime) (t : TimeSpan) : Except Failure DateTime := d.addTicks t.ticks

def subtractSpan (d : DateTime) (t : TimeSpan) : Except Failure DateTime := d.addTicks (-t.ticks)

def subtract (offset : Int) (a b : DateTime) : Except Failure TimeSpan :=
  TimeSpan.ofTicks ((pair offset a b).1 - (pair offset a b).2)

/-- Adds an amount of units of `unit` ticks, rounded to whole milliseconds, a half away from zero. -/
def addAmount (d : DateTime) (amount : Number) (unit : Nat) : Except Fault DateTime :=
  if !amount.isFinite then .error (Failure.outOfRange "value")
  else
    match amount.toDouble? with
    | none => .error Misuse.tooLarge
    | some x =>
      let half : Double := Double.ofRatio false 1 2
      let millis := Double.mul x (Double.nearestInt (unit / TimeSpan.perMillisecond : Nat))
      if !millis.isFinite then .error Misuse.tooLarge
      else
        let whole : Int :=
          if millis.neg && !millis.isZero then -(Double.add millis.negate half).floor
          else (Double.add millis half).floor
        (d.addTicks (whole * TimeSpan.perMillisecond)).mapError .failure

def clockText (d : DateTime) : List Char :=
  Decimal.padded 2 d.hour ++ ':' :: Decimal.padded 2 d.minute

def timeText (d : DateTime) : List Char := d.clockText ++ ':' :: Decimal.padded 2 d.second

def dateText (d : DateTime) : List Char :=
  Decimal.padded 2 d.civil.month ++ '/' :: Decimal.padded 2 d.civil.day ++
    '/' :: Decimal.padded 4 d.civil.year

def sortableDate (d : DateTime) : List Char :=
  Decimal.padded 4 d.civil.year ++ '-' :: Decimal.padded 2 d.civil.month ++
    '-' :: Decimal.padded 2 d.civil.day

def toText (d : DateTime) : List Char := d.dateText ++ ' ' :: d.timeText

def format (d : DateTime) (fmt : String) : Except Failure (List Char) :=
  match fmt with
  | "o" =>
    .ok (d.sortableDate ++ 'T' :: d.timeText ++
      '.' :: Decimal.padded 7 (d.ticks % TimeSpan.perSecond) ++
      (if d.kind = .utc then ['Z'] else []))
  | "s" => .ok (d.sortableDate ++ 'T' :: d.timeText)
  | "u" => .ok (d.sortableDate ++ ' ' :: d.timeText ++ ['Z'])
  | "d" => .ok d.dateText
  | "D" =>
    .ok ((Civil.weekdayNames.getD d.dayOfWeek "").toList ++ ", ".toList ++
      Decimal.padded 2 d.civil.day ++ ' ' ::
      (Civil.monthNames.getD (d.civil.month - 1) "").toList ++ ' ' :: Decimal.padded 4 d.civil.year)
  | "t" => .ok d.clockText
  | "T" => .ok d.timeText
  | "g" => .ok (d.dateText ++ ' ' :: d.clockText)
  | "G" => .ok (d.dateText ++ ' ' :: d.timeText)
  | _ => .error (.badDateFormat (Text.plain fmt))

end DateTime

end BaseLib
