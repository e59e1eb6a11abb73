namespace BaseLib

structure Civil where
  year : Nat
  month : Nat
  day : Nat
  deriving DecidableEq, Repr, Inhabited

namespace Civil

def isLeap (year : Nat) : Bool := year % 4 == 0 && (year % 100 != 0 || year % 400 == 0)

def monthLengths (leap : Bool) : List Nat :=
  [31, if leap then 29 else 28, 31, 30, 31, 30, 31, 31, 30, 31, 30, 31]

def monthLength (year month : Nat) : Nat := (monthLengths (isLeap year)).getD (month - 1) 0

def Valid (c : Civil) : Prop :=
  (1 ≤ c.year ∧ c.year ≤ 9999) ∧ (1 ≤ c.month ∧ c.month ≤ 12) ∧
    1 ≤ c.day ∧ c.day ≤ monthLength c.year c.month

instance (c : Civil) : Decidable c.Valid := inferInstanceAs (Decidable (_ ∧ _))

def daysBeforeYear (year : Nat) : Nat :=
  let y := year - 1
  y * 365 + y / 4 - y / 100 + y / 400

def daysBeforeMonth (year month : Nat) : Nat :=
  ((monthLengths (isLeap year)).take (month - 1)).foldl Nat.add 0

def dayOfYear (c : Civil) : Nat := daysBeforeMonth c.year c.month + c.day

def toDays (c : Civil) : Nat := daysBeforeYear c.year + daysBeforeMonth c.year c.month + (c.day - 1)

def findMonth : List Nat → Nat → Nat → Nat × Nat
  | [], month, n => (month, n)
  | length :: rest, month, n =>
    if n < length then (month, n) else findMonth rest (month + 1) (n - length)

/-- The year of a day and the days before it in that year: whole cycles of 400, 100, 4 and 1 years, the
last century of a cycle and the last year of four being a day longer. -/
def splitYear (days : Nat) : Nat × Nat :=
  let cycles := days / 146097
  let n := days % 146097
  let centuries := min (n / 36524) 3
  let n := n - centuries * 36524
  let fours := n / 1461
  let n := n % 1461
  let ones := min (n / 365) 3
  (cycles * 400 + centuries * 100 + fours * 4 + ones + 1, n - ones * 365)

def ofDays (days : Nat) : Civil :=
  let (year, n) := splitYear days
  let (month, day) := findMonth (monthLengths (isLeap year)) 1 n
  ⟨year, month, day + 1⟩

def weekdayOfDays (days : Nat) : Nat := (days + 1) % 7

def weekdayNames : List String :=
  ["Sunday", "Monday", "Tuesday", "Wednesday", "Thursday", "Friday", "Saturday"]

def monthNames : List String :=
  ["January", "February", "March", "April", "May", "June", "July", "August", "September", "October",
    "November", "December"]

end Civil

end BaseLib
