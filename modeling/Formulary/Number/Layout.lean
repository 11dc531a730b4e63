/-
  The texts of numbers.  A `Layout` says how the shortest decimal of a number is
  written; each place where numbers are written has its own.

  * `Layout.plain`: without an exponent, whatever the size;
  * `Layout.shown`: with a fraction, and an exponent for small and large values;
  * `Number.display`: the text a field shows.
-/
import Formulary.Number.Decimal

namespace Formulary

/-- How a number is written. -/
structure Layout where
  /-- The least and greatest power of ten of the first digit that are written
  without an exponent, if there are any bounds. -/
  positional : Option (Int × Int)
  /-- Whether a whole number written without an exponent gets a fraction. -/
  fraction : Bool
  /-- Whether a positive exponent gets a sign. -/
  exponentSign : Bool
  halfway : Number.Halfway
  notANumber : String
  infinity : String
  deriving Repr

namespace Layout

/-- Without an exponent and without a needless fraction. -/
def plain : Layout := ⟨none, false, false, .up, "NaN", "inf"⟩

/-- The form in which a token shows its number. -/
def shown : Layout := ⟨some (-4, 15), true, false, .up, "NaN", "inf"⟩

/-- The form of a number that is the key of a mapping. -/
def key : Layout := ⟨some (-5, 15), true, false, .toEven, ".nan", ".inf"⟩

/-- The form of a number in a report. -/
def report : Layout := ⟨some (-5, 15), true, true, .toEven, "null", "null"⟩

/-- A decimal without an exponent. -/
def positionalText (fraction : Bool) (d : Decimal) : List Char :=
  let digits := d.text
  if 0 ≤ d.exponent then
    digits ++ List.replicate d.exponent.toNat '0' ++ (if fraction then ['.', '0'] else [])
  else
    let places := (-d.exponent).toNat
    let padded := List.replicate (places + 1 - digits.length) '0' ++ digits
    padded.take (padded.length - places) ++ '.' :: padded.drop (padded.length - places)

/-- A decimal with one digit before the point and an exponent. -/
def scientificText (exponentSign : Bool) (d : Decimal) : List Char :=
  let digits := d.text
  let exponent := d.leading
  digits.take 1 ++ (if digits.length ≤ 1 then [] else '.' :: digits.drop 1) ++ 'e' ::
    ((if exponent < 0 then ['-'] else if exponentSign then ['+'] else [])
      ++ Nat.toDigits 10 exponent.natAbs)

/-- The text of a magnitude. -/
def magnitude (layout : Layout) (x : Number) : List Char :=
  if x.isInfinite then layout.infinity.toList
  else if x.isZero then (if layout.fraction then ['0', '.', '0'] else ['0'])
  else
    let d := x.shortest layout.halfway
    let positional := match layout.positional with
      | none => true
      | some (least, greatest) => least ≤ d.leading && d.leading ≤ greatest
    if positional then positionalText layout.fraction d
    else scientificText layout.exponentSign d

/-- The text of a number. -/
def text (layout : Layout) (x : Number) : String :=
  if x.isNaN then layout.notANumber
  else String.ofList ((if x.negative then ['-'] else []) ++ layout.magnitude x)

end Layout

/-- The text a field shows: a whole number below `10 ^ 15` as an integer, where
zero has no sign. -/
def Number.display (x : Number) : String :=
  match x.toInt? with
  | some n => if n.natAbs < 10 ^ (15 : Nat) then toString n else Layout.plain.text x
  | none => Layout.plain.text x

end Formulary
