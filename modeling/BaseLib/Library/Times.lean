import BaseLib.Library.Member

namespace BaseLib.Library.Times

def ticksOf (v : Value) : Action Int := do
  match ((← get).view v).ticks? with
  | some n => pure n
  | none => misuse .noSuchMember

def wholeOf (x : Number) : Action Int :=
  match x with
  | .int n => pure n
  | .double d =>
    if d.isNaN then misuse .badValue
    else if d.isInfinite then misuse .tooLarge
    else pure d.truncate

def wholeTicks (v : Value) : Action Int := do
  match v with
  | .text t =>
    match Number.readInteger? t 10 with
    | some n => pure n
    | none => misuse .badValue
  | v => do wholeOf (← needNumber v)

def product (x : Number) (n : Int) : Action Number := do needNumber (← orTooLarge (x.mul? (.int n)))

def sum (x y : Number) : Action Number := do needNumber (← orTooLarge (x.add? y))

def weighted (amounts : List (Value × Int)) : Action Number :=
  amounts.foldlM (fun total (v, unit) => do sum total (← product (← needNumber v) unit)) (.int 0)

def newDuration (args : List Value) : Action Value := do
  let spanOf (x : Number) (unit : Int) : Action Value := do
    newSpan (TimeSpan.ofTicks (← wholeOf (← product x unit)))
  match args with
  | [ticks] => do newSpan (TimeSpan.ofTicks (← wholeTicks ticks))
  | [h, m, s] => do spanOf (← weighted [(h, 3600), (m, 60), (s, 1)]) TimeSpan.perSecond
  | [d, h, m, s] => do
    let x ← weighted [(d, 86400), (h, 3600), (m, 60), (s, 1)]
    spanOf (← product x 1000) TimeSpan.perMillisecond
  | [d, h, m, s, ms] => do
    let x ← product (← weighted [(d, 86400), (h, 3600), (m, 60), (s, 1)]) 1000
    spanOf (← sum x (← needNumber ms)) TimeSpan.perMillisecond
  | _ => fail .durationArity

def ofAmount (unit : Nat) : Member := .unary fun v => do
  alloc (.timeSpan (← ofExcept (TimeSpan.ofAmount (← needNumber v) unit)))

def ticksTest (test : Ordering → Bool) : Member := .binary fun x y => do
  let a ← ticksOf x
  let b ← ticksOf y
  yes (test (compare a b))

def isEqual (o : Ordering) : Bool := o == .eq

def addToSpan (t : TimeSpan) (other : Value) : Action Value := do
  newSpan (TimeSpan.ofTicks (t.ticks + (← ticksOf other)))

def subtractFromSpan (t : TimeSpan) (other : Value) : Action Value := do
  newSpan (TimeSpan.ofTicks (t.ticks - (← ticksOf other)))

def addToTime (d : DateTime) (other : Value) : Action Value := do
  newTime (d.addTicks (← ticksOf other))

def subtractFromTime (d : DateTime) (other : Value) : Action Value := do
  match (← get).object? other with
  | some o => subtractTime d o
  | none => misuse .noSuchMember

def addition : Member := .binary fun x y => do
  match (← get).object? x with
  | some (.timeSpan t) => addToSpan t y
  | some (.dateTime d) => addToTime d y
  | _ => misuse .noSuchMember

def timeSubtraction (x y : Value) : Action Value := do
  match (← get).object? x with
  | some (.dateTime d) => subtractFromTime d y
  | _ => misuse .noSuchMember

def subtraction (x y : Value) : Action Value := do
  match (← get).object? x with
  | some (.timeSpan t) => subtractFromSpan t y
  | _ => timeSubtraction x y

def spans : Members :=
  [("TimeSpan.FromTicks", .unary fun v => do newSpan (TimeSpan.ofTicks (← wholeTicks v))),
    ("TimeSpan.FromMilliseconds", ofAmount TimeSpan.perMillisecond),
    ("TimeSpan.FromSeconds", ofAmount TimeSpan.perSecond),
    ("TimeSpan.FromMinutes", ofAmount TimeSpan.perMinute),
    ("TimeSpan.FromHours", ofAmount TimeSpan.perHour),
    ("TimeSpan.FromDays", ofAmount TimeSpan.perDay),
    ("TimeSpan.op_Addition", addition),
    ("TimeSpan.op_Subtraction", .binary subtraction),
    ("TimeSpan.op_UnaryNegation", .unary fun x => do
      match (← get).object? x with
      | some (.timeSpan t) => newSpan t.negate
      | _ => misuse .noSuchMember),
    ("TimeSpan.op_Equality", ticksTest isEqual),
    ("TimeSpan.op_Inequality", ticksTest fun o => !isEqual o),
    ("TimeSpan.op_LessThan", ticksTest OrderOp.lt.holds),
    ("TimeSpan.op_LessThanOrEqual", ticksTest OrderOp.le.holds),
    ("TimeSpan.op_GreaterThan", ticksTest OrderOp.gt.holds),
    ("TimeSpan.op_GreaterThanOrEqual", ticksTest OrderOp.ge.holds)]

def compareOwn (x y : Value) : Action Ordering := do
  let s ← get
  match s.view x, y with
  | .timeSpan _, .null => pure .gt
  | .timeSpan t, y => ofExcept (Datum.compareSpan t (s.view y))
  | .dateTime d, y => ofExcept (Datum.compareTime s.offset d (s.view y))
  | _, _ => misuse .noSuchMember

def orderTest (test : Ordering → Bool) : Member := .binary fun x y => do
  yes (test (← compareOwn x y))

def times : Members :=
  [("DateTime.op_Addition", addition),
    ("DateTime.op_Subtraction", .binary timeSubtraction),
    ("DateTime.op_Equality", orderTest isEqual),
    ("DateTime.op_Inequality", orderTest fun o => !isEqual o),
    ("DateTime.op_LessThan", orderTest OrderOp.lt.holds),
    ("DateTime.op_LessThanOrEqual", orderTest OrderOp.le.holds),
    ("DateTime.op_GreaterThan", orderTest OrderOp.gt.holds),
    ("DateTime.op_GreaterThanOrEqual", orderTest OrderOp.ge.holds),
    ("DateTime.Parse", .planned "DateTime.Parse")]

def fieldOf (v : Value) : Action Int := do
  let n ← needInt v
  if Word.InRange n then pure n else misuse .tooLarge

def newDateTime (args : List Value) : Action Value := do
  match args with
  | [year, month, day, hour, minute, second, millisecond, kind] =>
    let (hour, kind) := match hour with
      | .symbol (.kind _) => (Value.int 0, hour)
      | _ => (hour, kind)
    let millisecond ← needInt millisecond
    if millisecond < 0 ∨ 1000 ≤ millisecond then fail (.outOfRange "millisecond")
    let year ← fieldOf year
    let month ← fieldOf month
    let day ← fieldOf day
    let hour ← fieldOf hour
    let minute ← fieldOf minute
    let second ← fieldOf second
    match kind with
    | .symbol (.kind k) =>
      newTime (DateTime.ofFields ⟨year, month, day, hour, minute, second, millisecond⟩ k)
    | _ => misuse .wrongType
  | _ => misuse .wrongType

def dateTimeConstructor : Member :=
  ⟨0, some [.int 1, .int 1, .int 1, .int 0, .int 0, .int 0, .int 0, .symbol (.kind .unspecified)],
    newDateTime⟩

def compareMember (self : Value) : Member := .unary fun other => do
  pure (.int (Ordering.sign (← compareOwn self other)))

def spanMembers (self : Value) (t : TimeSpan) : Members :=
  [("Add", .unary (addToSpan t)),
    ("Subtract", .unary (subtractFromSpan t)),
    ("Negate", .nullary (newSpan t.negate)),
    ("Duration", .nullary (absValue self)),
    ("CompareTo", compareMember self)]

def addAmount (d : DateTime) (unit : Nat) : Member := .unary fun v => do
  alloc (.dateTime (← ofExcept (d.addAmount (← needNumber v) unit)))

def timeMembers (self : Value) (d : DateTime) : Members :=
  [("Add", .unary (addToTime d)),
    ("AddTicks", .unary fun v => do newTime (d.addTicks (← needInt v))),
    ("AddMilliseconds", addAmount d TimeSpan.perMillisecond),
    ("AddSeconds", addAmount d TimeSpan.perSecond),
    ("AddMinutes", addAmount d TimeSpan.perMinute),
    ("AddHours", addAmount d TimeSpan.perHour),
    ("AddDays", addAmount d TimeSpan.perDay),
    ("Subtract", .unary (subtractFromTime d)),
    ("CompareTo", compareMember self),
    ("ToFormattedString", .unary fun fmt => do
      pure (.text (← ofResult (d.format (String.ofList (← needChars (← ofExcept ((← get).printed fmt)))))))),
    ("ToLocalTime", .planned "DateTime.ToLocalTime"),
    ("ToUniversalTime", .planned "DateTime.ToUniversalTime")]

def spanProperty? (t : TimeSpan) (name : String) : Option Value :=
  match name with
  | "Ticks" => some (.int t.ticks)
  | "Days" => some (.int t.days)
  | "Hours" => some (.int t.hours)
  | "Minutes" => some (.int t.minutes)
  | "Seconds" => some (.int t.seconds)
  | "Milliseconds" => some (.int t.milliseconds)
  | "TotalDays" => some (.double (t.total TimeSpan.perDay))
  | "TotalHours" => some (.double (t.total TimeSpan.perHour))
  | "TotalMinutes" => some (.double (t.total TimeSpan.perMinute))
  | "TotalSeconds" => some (.double (t.total TimeSpan.perSecond))
  | "TotalMilliseconds" => some (.double (t.total TimeSpan.perMillisecond))
  | _ => none

def timeProperty? (d : DateTime) (name : String) : Option Value :=
  match name with
  | "Kind" => some (.symbol (.kind d.kind))
  | "Ticks" => some (.int d.ticks)
  | "Year" => some (.int d.civil.year)
  | "Month" => some (.int d.civil.month)
  | "Day" => some (.int d.civil.day)
  | "Hour" => some (.int d.hour)
  | "Minute" => some (.int d.minute)
  | "Second" => some (.int d.second)
  | "Millisecond" => some (.int d.millisecond)
  | "DayOfWeek" => some (.day d.dayOfWeek)
  | "DayOfYear" => some (.int d.dayOfYear)
  | _ => none

def constants : List (String × Value) :=
  [("TimeSpan.TicksPerMillisecond", .int TimeSpan.perMillisecond),
    ("TimeSpan.TicksPerSecond", .int TimeSpan.perSecond),
    ("TimeSpan.TicksPerMinute", .int TimeSpan.perMinute),
    ("TimeSpan.TicksPerHour", .int TimeSpan.perHour),
    ("TimeSpan.TicksPerDay", .int TimeSpan.perDay)]

end BaseLib.Library.Times
