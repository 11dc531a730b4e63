/-
  Functions of dates: `date`, `now`, `year`, `month`, `day`, `dateAdd`,
  `dateSubtract`, `timestamp`.

  * `shiftBy`: an instant a number of milliseconds later;
  * `Step`: the units of time, either months or of a fixed length.
-/
import Formulary.Functions.Argument
import Formulary.Number.Layout
import Formulary.Text.Casing
import Formulary.Value.Date

namespace Formulary.Functions

def outOfRange (operation : String) : Fault := .domain operation "Date out of range"

def offsetOutOfRange (operation : String) : Fault := .domain operation "Date offset out of range"

/-- The most milliseconds by which an instant can be shifted: those of a hundred
thousand million days. -/
def offsetReach : Number := Number.ofNat (864 * 10 ^ (16 : Nat))

/-- An instant a number of milliseconds later, without their fraction. -/
def shiftBy (operation : String) (t : Instant) (ms : Number) : Except Fault Instant :=
  if !ms.isFinite || offsetReach.lt ms.abs then .error (offsetOutOfRange operation)
  else match t.plusMilliseconds? ms.whole with
    | some t' => .ok t'
    | none => .error (outOfRange operation)

/-! ## Dates from numbers -/

/-- Dates are made of years up to this far from zero. -/
def yearReach : Nat := 200000

/-- The day of a year, month and day; fractions of a year are no years, and those
of a month or day do not count. -/
def dayOf? (year month day : Number) : Option Day :=
  if year.isWhole && year.whole.natAbs ≤ yearReach then
    Day.valid? ⟨year.whole, (month.clampTo 0 (2 ^ (32 : Nat) - 1)).toNat,
      (day.clampTo 0 (2 ^ (32 : Nat) - 1)).toNat⟩
  else none

def invalidDate (year month day : Number) : Fault :=
  .domain "date" ("Invalid date: " ++
    "-".intercalate ([year, month, day].map Layout.plain.text))

def dateFunction : Builtin := .three "date" fun a b c => do
  let year ← a.number "date"
  let month ← b.number "date"
  let day ← c.number "date"
  match dayOf? year month day with
  | some d => return .date (Instant.midnight d)
  | none => .raise (invalidDate year month day)

def nowFunction (clock : Instant) : Builtin := .none "now" (return .date clock)

def timestampFunction : Builtin := .one "timestamp" fun a => do
  let ms ← a.number "timestamp"
  .ofResult ((shiftBy "timestamp" ⟨0, 0⟩ ms).map .date)

/-! ## Parts of dates -/

/-- An argument that has to stand for a date. -/
def dateArgument (function : String) (a : Argument) : Evaluation Instant := do
  let v ← a.value
  match v.asDate? with
  | some t => return t
  | none => .raise (operandFault function [v])

/-- A function that tells a part of a date. -/
def partFunction (name : String) (f : Day → Int) : Builtin := .one name fun a => do
  return .number (Number.ofInt (f (← dateArgument name a).day))

/-! ## Dates from dates -/

/-- A unit of time: so many months, or so many milliseconds. -/
inductive Step where
  | months (n : Nat)
  | milliseconds (n : Nat)
  deriving DecidableEq, Repr

/-- The names of the units. -/
def Step.names : List (String × Step) :=
  [("years", .months 12), ("year", .months 12), ("y", .months 12),
    ("months", .months 1), ("month", .months 1), ("m", .months 1),
    ("weeks", .milliseconds 604800000), ("week", .milliseconds 604800000),
    ("w", .milliseconds 604800000),
    ("days", .milliseconds 86400000), ("day", .milliseconds 86400000),
    ("d", .milliseconds 86400000),
    ("hours", .milliseconds 3600000), ("hour", .milliseconds 3600000),
    ("h", .milliseconds 3600000),
    ("minutes", .milliseconds 60000), ("minute", .milliseconds 60000),
    ("min", .milliseconds 60000),
    ("seconds", .milliseconds 1000), ("second", .milliseconds 1000),
    ("sec", .milliseconds 1000), ("s", .milliseconds 1000),
    ("milliseconds", .milliseconds 1), ("millisecond", .milliseconds 1),
    ("ms", .milliseconds 1)]

/-- The unit of a name, in any case of letters. -/
def Step.ofText? (text : String) : Option Step :=
  names.lookup (Text.lower (Text.trimmed text))

/-- The most months that an amount may come to. -/
def monthsReach : Number := Number.ofNat (2 ^ (32 : Nat) - 1)

/-- An instant an amount of units later; months count without their fraction. -/
def shift (operation : String) (t : Instant) (amount : Number) : Step → Except Fault Instant
  | .months n =>
    let months := amount.trunc.mul (Number.ofNat n)
    if monthsReach.lt months.abs then .error (offsetOutOfRange operation)
    else match t.plusMonths? (months.clampTo (-2 ^ (32 : Nat)) (2 ^ (32 : Nat))) with
      | some t' => .ok t'
      | none => .error (outOfRange operation)
  | .milliseconds n => shiftBy operation t (amount.mul (Number.ofNat n))

/-- A function that shifts a date by an amount of a unit, with the sign that
`orient` gives the amount. -/
def shiftFunction (name : String) (orient : Number → Number) : Builtin :=
  .three name fun a b c => do
    let t ← dateArgument name a
    let amount ← b.number name
    let unit ← c.text name
    match Step.ofText? unit with
    | some step => .ofResult ((shift name t (orient amount) step).map .date)
    | none => .raise (.domain name s!"Unknown unit '{unit}'")

def dates (clock : Instant) : List Builtin :=
  [dateFunction, nowFunction clock, partFunction "year" Day.year,
    partFunction "month" fun d => d.month, partFunction "day" fun d => d.day,
    shiftFunction "dateAdd" id, shiftFunction "dateSubtract" .neg, timestampFunction]

end Formulary.Functions
