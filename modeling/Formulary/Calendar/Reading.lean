/-
  Reading an instant from text.

  Three forms are known: a date and time with an offset from UTC, in fixed
  widths; a date and time without one; and a date alone.  The last two are read
  loosely: blanks before a number and missing leading zeros are allowed.

  * `Instant.ofText?`: the instant that a text denotes in one of the forms.
-/
import Formulary.Calendar.Instant
import Formulary.Number.Reading
import Formulary.Text.Blank

namespace Formulary

namespace Instant

/-- A reader takes what it knows off the front of a text. -/
abbrev Reader (α : Type) := StateT (List Char) Option α

namespace Reader

/-- Digits, at least `least` and at most `most` of them. -/
def digits (least most : Nat) : Reader (List Char) := fun s =>
  let taken := (s.take most).takeWhile Char.isDigit
  if least ≤ taken.length then some (taken, s.drop taken.length) else none

def number (least most : Nat) : Reader Nat := Decimal.ofDigits <$> digits least most

/-- One of the given characters. -/
def oneOf (allowed : List Char) : Reader Char
  | c :: rest => if allowed.contains c then some (c, rest) else none
  | [] => none

def char (c : Char) : Reader Unit := discard (oneOf [c])

def blanks : Reader Unit := modify Text.trimStart

/-- All the digits that follow. -/
def allDigits : Reader (List Char) := fun s =>
  some (s.takeWhile Char.isDigit, s.dropWhile Char.isDigit)

/-- A reader of a whole text. -/
def whole {α : Type} (read : Reader α) (s : List Char) : Option α :=
  match read s with
  | some (a, []) => some a
  | _ => none

end Reader

open Reader

/-- A time of day as a second of the day and nanoseconds; the second 60 is a leap
second. -/
def timeOfDay? (hour minute second nanos : Nat) : Option (Nat × Nat) :=
  if hour ≤ 23 && minute ≤ 59 && second ≤ 60 then
    some (hour * 3600 + minute * 60 + min second 59,
      nanos + if second = 60 then nanosPerSecond else 0)
  else none

/-! ## Fixed widths, with an offset -/

/-- The fraction of a second; digits past the ninth are skipped. -/
def fraction : Reader Nat := do
  let s ← get
  match s with
  | '.' :: _ =>
    char '.'
    let places ← digits 1 9
    let _ ← allDigits
    return Decimal.ofDigits places * 10 ^ (9 - places.length)
  | _ => return 0

/-- The seconds by which the local time is ahead of UTC. -/
def offset : Reader Int := do
  let sign ← oneOf ['Z', 'z', '+', '-', '\u2212']
  if sign = 'Z' || sign = 'z' then return 0
  let hours ← number 2 2
  char ':'
  let minutes ← number 2 2
  guard (hours ≤ 23 && minutes ≤ 59)
  let seconds : Int := hours * 3600 + minutes * 60
  return if sign = '+' then seconds else -seconds

def zoned : Reader Instant := do
  let year ← number 4 4
  char '-'
  let month ← number 2 2
  char '-'
  let day ← number 2 2
  let _ ← oneOf ['T', 't', ' ']
  let hour ← number 2 2
  char ':'
  let minute ← number 2 2
  char ':'
  let second ← number 2 2
  let nanos ← fraction
  let ahead ← offset
  let (second, nanos) ← timeOfDay? hour minute second nanos
  let date ← Day.valid? ⟨year, month, day⟩
  let local_ := onDay date second nanos
  return { local_ with seconds := local_.seconds - ahead }

/-! ## Loose widths, without an offset -/

/-- A year: any digits after a sign, and at most four without one. -/
def looseYear : Reader Int := do
  blanks
  let s ← get
  match s with
  | '-' :: _ => char '-'; return -((Decimal.ofDigits (← digits 1 s.length) : Nat) : Int)
  | '+' :: _ => char '+'; return (← number 1 s.length)
  | _ => return (← number 1 4)

def looseNumber : Reader Nat := do
  blanks
  number 1 2

def looseDay : Reader Day := do
  let year ← looseYear
  char '-'
  let month ← looseNumber
  char '-'
  let day ← looseNumber
  Day.valid? ⟨year, month, day⟩

/-- A date and time of day with `between` between them. -/
def looseTime (between : Reader Unit) : Reader Instant := do
  let date ← looseDay
  between
  let hour ← looseNumber
  char ':'
  let minute ← looseNumber
  char ':'
  let second ← looseNumber
  let (second, nanos) ← timeOfDay? hour minute second 0
  return onDay date second nanos

/-- The instant that a text denotes: the first of the forms that fits it. -/
def ofText? (s : List Char) : Option Instant :=
  (whole zoned s).or <| (whole (looseTime (char 'T')) s).or <|
    (whole (looseTime blanks) s).or ((whole looseDay s).map midnight)

end Instant
end Formulary
