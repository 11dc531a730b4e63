/-
  Instants: seconds since 1970-01-01T00:00:00Z, and nanoseconds.

  The nanoseconds of a leap second run from one to two thousand million, on top
  of the second before it.

  * `Instant.plusMilliseconds?`, `Instant.plusMonths?`: shifted instants, none
    beyond the years that the calendar covers;
  * `Instant.millisecondsSince`: the whole milliseconds between two instants;
  * `Instant.lt`: the order of instants;
  * `Instant.layout`: date and time of day in UTC, to the second, where a year outside
    0 … 9999 has a sign and a leap second is the second 60;
  * `Instant.text`: `YYYY-MM-DDTHH:MM:SSZ`.
-/
import Formulary.Calendar.Day

namespace Formulary

/-- Seconds since the epoch, rounded down, and nanoseconds. -/
structure Instant where
  seconds : Int
  nanos : Nat
  deriving DecidableEq, Repr

namespace Instant

def secondsPerDay : Int := 86400

/-- The nanoseconds of a second. -/
def nanosPerSecond : Nat := 1000000000

/-- The nanoseconds of a millisecond. -/
def nanosPerMillisecond : Nat := 1000000

/-- The calendar day of an instant. -/
def day (t : Instant) : Day := Day.ofNumber (t.seconds / secondsPerDay)

/-- The seconds since the start of the day. -/
def secondOfDay (t : Instant) : Nat := (t.seconds % secondsPerDay).toNat

def isLeapSecond (t : Instant) : Bool := nanosPerSecond ≤ t.nanos

/-- The instant, if the calendar covers its day. -/
def covered? (t : Instant) : Option Instant :=
  if Day.firstYear ≤ t.day.year ∧ t.day.year ≤ Day.lastYear then some t else none

/-- A time of day on a day. -/
def onDay (d : Day) (second nanos : Nat) : Instant :=
  ⟨d.number * secondsPerDay + second, nanos⟩

def midnight (d : Day) : Instant := onDay d 0 0

/-- The instant a number of milliseconds after the epoch. -/
def ofMilliseconds? (ms : Int) : Option Instant :=
  covered? ⟨ms / 1000, (ms % 1000).toNat * nanosPerMillisecond⟩

def lt (s t : Instant) : Bool :=
  s.seconds < t.seconds || (s.seconds == t.seconds && s.nanos < t.nanos)

/-! ## Shifts -/

/-- An instant from seconds and nanoseconds of either sign. -/
def balance (seconds nanos : Int) : Instant :=
  ⟨seconds + nanos / nanosPerSecond, (nanos % nanosPerSecond).toNat⟩

/-- A number of milliseconds later.  A leap second that is not left keeps its
second; one that is left counts as the second after it when going back, and as
the second before it when going on. -/
def plusMilliseconds (t : Instant) (ms : Int) : Instant :=
  let seconds := ms.tdiv 1000
  let nanos := ms.tmod 1000 * nanosPerMillisecond
  if !t.isLeapSecond then balance (t.seconds + seconds) (t.nanos + nanos)
  else if 0 < seconds || 2 * nanosPerSecond ≤ t.nanos + nanos then
    balance (t.seconds + seconds) (t.nanos - nanosPerSecond + nanos)
  else if seconds < 0 then
    balance (t.seconds + 1 + seconds) (t.nanos - nanosPerSecond + nanos)
  else ⟨t.seconds, (t.nanos + nanos).toNat⟩

def plusMilliseconds? (t : Instant) (ms : Int) : Option Instant :=
  (t.plusMilliseconds ms).covered?

/-- The most months by which an instant can be shifted. -/
def monthReach : Nat := 0x7fffffff

/-- The same time of day a number of months later. -/
def plusMonths? (t : Instant) (n : Int) : Option Instant :=
  if n = 0 then some t
  else if n.natAbs ≤ monthReach then
    (t.day.plusMonths n).valid?.map fun d => onDay d t.secondOfDay t.nanos
  else none

/-! ## Differences -/

/-- The whole milliseconds from `s` to `t`.  A leap second counts where the later
time of day lies beyond it. -/
def millisecondsSince (t s : Instant) : Int :=
  let passed :=
    if s.secondOfDay < t.secondOfDay && s.isLeapSecond then 1
    else if t.secondOfDay < s.secondOfDay && t.isLeapSecond then -1
    else 0
  let nanos := (t.seconds - s.seconds + passed) * nanosPerSecond + (t.nanos - s.nanos : Int)
  nanos.tdiv nanosPerMillisecond

end Instant

/-! ## Texts -/

/-- A number in at least `width` digits. -/
def Day.padded (width n : Nat) : List Char :=
  let digits := Nat.toDigits 10 n
  List.replicate (width - digits.length) '0' ++ digits

/-- A year in at least four digits; outside 0 … 9999 it has a sign. -/
def Day.yearText (year : Int) : List Char :=
  (if year < 0 then ['-'] else if 9999 < year then ['+'] else []) ++ padded 4 year.natAbs

/-- The date and the time of day with `between` between them. -/
def Instant.layout (between : Char) (t : Instant) : List Char :=
  let d := t.day
  let second := t.secondOfDay % 60 + t.nanos / nanosPerSecond
  Day.yearText d.year ++ '-' :: Day.padded 2 d.month ++ '-' :: Day.padded 2 d.day
    ++ between :: Day.padded 2 (t.secondOfDay / 3600)
    ++ ':' :: Day.padded 2 (t.secondOfDay / 60 % 60) ++ ':' :: Day.padded 2 second

def Instant.text (t : Instant) : String := String.ofList (t.layout 'T' ++ ['Z'])

end Formulary
