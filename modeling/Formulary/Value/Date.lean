/-
  Values as dates.

  * `Value.asDate?`: the instant that a value stands for, whether it is a date,
    a count of seconds or milliseconds, or a text of either.
-/
import Formulary.Calendar.Reading
import Formulary.Value

namespace Formulary.Value

/-- Counts beyond this are milliseconds, and others seconds: `10 ^ 12`. -/
def millisecondsFrom : Number := Number.ofNat (10 ^ (12 : Nat))

/-- The least and greatest number of milliseconds: those of a 64-bit word. -/
def clampMilliseconds (x : Number) : Int := x.clampTo (-2 ^ (63 : Nat)) (2 ^ (63 : Nat) - 1)

/-- The instant a count of seconds or milliseconds after the epoch. -/
def ofEpoch? (x : Number) : Option Instant :=
  if x.isFinite then
    Instant.ofMilliseconds? (clampMilliseconds
      (if millisecondsFrom.lt x.abs then x else x.mul (Number.ofNat 1000)))
  else none

/-- The instant that a text stands for: a number is a count, and anything else a
written date. -/
def dateOfText? (s : String) : Option Instant :=
  let trimmed := Text.trimmed s
  match Number.ofText? trimmed with
  | some x => ofEpoch? x
  | none => Instant.ofText? trimmed.toList

/-- The instant that a value stands for. -/
def asDate? : Value → Option Instant
  | date t => some t
  | number x => ofEpoch? x
  | text s => dateOfText? s
  | _ => none

end Formulary.Value
