/-
  Decimals: the numbers `d · 10 ^ e`, as a bridge between numbers and their
  texts.

  * `Number.ofDecimal`: the number nearest to a decimal;
  * `Number.shortest`: of the decimals that are read back as a given magnitude,
    one with the fewest digits, and of these the nearest to the magnitude.

  Both are exact: a decimal and the interval of values that round to a number
  are compared as natural numbers on a common scale.
-/
import Formulary.Number.Basic

namespace Formulary

/-- The value `digits · 10 ^ exponent`. -/
structure Decimal where
  digits : Nat
  exponent : Int
  deriving DecidableEq, Repr

namespace Decimal

/-- The digits as text, the most significant first. -/
def text (d : Decimal) : List Char := Nat.toDigits 10 d.digits

/-- The power of ten of the first digit. -/
def leading (d : Decimal) : Int := d.exponent + d.text.length - 1

/-- The same value with up to `n` trailing zeros dropped from the digits. -/
def trim (d : Decimal) : Nat → Decimal
  | 0 => d
  | n + 1 => if d.digits % 10 = 0 then trim ⟨d.digits / 10, d.exponent + 1⟩ n else d

end Decimal

namespace Number

/-! ## From a decimal -/

/-- Magnitudes from `10 ^ decimalReach` are infinite, and below its inverse zero. -/
def decimalReach : Int := 400

/-- The number nearest to a decimal with a sign. -/
def ofDecimal (negative : Bool) (d : Decimal) : Number :=
  if d.digits = 0 || d.leading < -decimalReach then mk' negative 0
  else if decimalReach < d.leading then infinity negative
  else ofUnits negative (d.digits * scale * 10 ^ d.exponent.toNat) (10 ^ (-d.exponent).toNat)

/-! ## To a decimal -/

/-- Which decimal is taken when the value lies halfway between two. -/
inductive Halfway where
  | up | toEven
  deriving DecidableEq, Repr

/-- Twice the values, in units, between which everything is read back as the
magnitude with a given ordinal. -/
def reading (ordinal : Nat) : Nat × Nat :=
  (unitsOf (ordinal - 1) + unitsOf ordinal, unitsOf ordinal + unitsOf (ordinal + 1))

/-- Whether twice the value `num / den` is read back as the magnitude with the
given ordinal; the ends of the interval are when the ordinal is even. -/
def readsBack (ordinal num den : Nat) : Bool :=
  let (low, high) := reading ordinal
  if ordinal % 2 = 0 then low * den ≤ num && num ≤ high * den
  else low * den < num && num < high * den

/-- The power of ten of the first digit of a magnitude in units. -/
def leadingPower (u : Nat) : Int :=
  (Nat.toDigits 10 (u * 10 ^ (400 : Nat) / scale)).length - 401

/-- The better of the two decimals with exponent `e` next to the magnitude of an
ordinal, among those that are read back as it. -/
def onGrid (halfway : Halfway) (ordinal : Nat) (e : Int) : Option Decimal :=
  let den := 10 ^ (-e).toNat
  let step := 2 * scale * 10 ^ e.toNat
  let value := 2 * unitsOf ordinal * den
  let below := value / step
  let atBelow := readsBack ordinal (below * step) den
  let atAbove := readsBack ordinal ((below + 1) * step) den
  let toBelow := value % step
  let toAbove := step - toBelow
  let preferAbove :=
    toAbove < toBelow || (toAbove == toBelow && (halfway == .up || below % 2 == 1))
  if atBelow && !(atAbove && preferAbove) then some ⟨below, e⟩
  else if atAbove then some ⟨below + 1, e⟩
  else none

/-- The first hit on grids of one digit more each time. -/
def shortestFrom (halfway : Halfway) (ordinal : Nat) (e : Int) : Nat → Decimal
  | 0 => ⟨0, 0⟩
  | room + 1 =>
    match onGrid halfway ordinal e with
    | some d => d.trim 1
    | none => shortestFrom halfway ordinal (e - 1) room

/-- The shortest decimal that is read back as a finite number other than zero,
without its sign.  Seventeen digits always suffice. -/
def shortest (halfway : Halfway) (x : Number) : Decimal :=
  shortestFrom halfway x.ordinal.val (leadingPower x.units) 18

end Number
end Formulary
