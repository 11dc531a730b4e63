/-
  Days of the proleptic Gregorian calendar.

  * `Day.Valid`: the days that the calendar has, in the years it covers;
  * `Day.number`, `Day.ofNumber`: a day as a count of days from 1970-01-01, and
    back;
  * `Day.plusMonths`: the same day of another month, or the last day of it where
    it is shorter.
-/

namespace Formulary

/-- A year, a month from 1 and a day of the month from 1. -/
structure Day where
  year : Int
  month : Nat
  day : Nat
  deriving DecidableEq, Repr

namespace Day

/-- The years that the calendar covers. -/
def firstYear : Int := -262143

def lastYear : Int := 262142

def isLeap (year : Int) : Bool :=
  year % 4 == 0 && (year % 100 != 0 || year % 400 == 0)

/-- The number of days of a month. -/
def monthLength (year : Int) (month : Nat) : Nat :=
  if month = 2 then (if isLeap year then 29 else 28)
  else if month = 4 || month = 6 || month = 9 || month = 11 then 30
  else 31

/-- The day exists, in a year that the calendar covers. -/
def Valid (d : Day) : Prop :=
  firstYear ≤ d.year ∧ d.year ≤ lastYear ∧ 1 ≤ d.month ∧ d.month ≤ 12
    ∧ 1 ≤ d.day ∧ d.day ≤ monthLength d.year d.month

instance (d : Day) : Decidable d.Valid := by unfold Valid; infer_instance

/-- The day, if it exists. -/
def valid? (d : Day) : Option Day := if d.Valid then some d else none

/-! ## Counting days -/

/-- The days from 0001-01-01 to the start of a year. -/
def beforeYear (year : Int) : Int :=
  let past := year - 1
  365 * past + past / 4 - past / 100 + past / 400

/-- The days from the start of a year to the start of a month. -/
def beforeMonth (year : Int) : Nat → Nat
  | 0 | 1 => 0
  | month + 1 => beforeMonth year month + monthLength year month

/-- The days from 0001-01-01 to 1970-01-01. -/
def epoch : Int := beforeYear 1970

/-- The days from 1970-01-01 to a day. -/
def number (d : Day) : Int :=
  beforeYear d.year + beforeMonth d.year d.month + d.day - 1 - epoch

/-- The year that holds a day counted from 0001-01-01: the mean length of a year
finds it up to a neighbour. -/
def yearAt (n : Int) : Int :=
  let guess := n * 400 / 146097 + 1
  if n < beforeYear guess then guess - 1
  else if beforeYear (guess + 1) ≤ n then guess + 1
  else guess

/-- The month and day that lie `left` days after the start of `month`, where
`room` months of the year are still to come. -/
def monthFrom (year : Int) (month left : Nat) : Nat → Nat × Nat
  | 0 => (month, left + 1)
  | room + 1 =>
    if left < monthLength year month then (month, left + 1)
    else monthFrom year (month + 1) (left - monthLength year month) room

/-- The day that lies a number of days after 1970-01-01. -/
def ofNumber (n : Int) : Day :=
  let year := yearAt (n + epoch)
  let (month, day) := monthFrom year 1 (n + epoch - beforeYear year).toNat 11
  ⟨year, month, day⟩

/-! ## Months -/

/-- The months from the start of year 0 to the month of a day. -/
def monthIndex (d : Day) : Int := 12 * d.year + d.month - 1

/-- The same day `n` months later, or the last day of the month it leads to. -/
def plusMonths (d : Day) (n : Int) : Day :=
  let index := d.monthIndex + n
  let year := index / 12
  let month := (index % 12).toNat + 1
  ⟨year, month, min d.day (monthLength year month)⟩

end Day
end Formulary
