/-
  Arithmetic on numbers.  Each operation computes an exact result in units of
  `2 ^ -1074` and rounds it once, to the nearest number with ties to even; only
  `pow` is left to the platform.

  * `add`, `sub`, `mul`, `div`, `rem`, `sqrt`: an operand that is not a number
    is the answer, the left one first, and `invalid` answers where there is no
    result;
  * `floor`, `ceil`, `trunc`, `round`: whole numbers, with the sign of the
    operand kept on zero;
  * `power`: repeated squaring with every product rounded.
-/
import Formulary.Number.Basic

namespace Formulary.Number

/-! ## The four operations -/

def neg (x : Number) : Number := { x with negative := !x.negative }

def abs (x : Number) : Number := { x with negative := false }

/-- The operation `op` on two numbers, with what is not a number passed on. -/
def strict (op : Number → Number → Number) (x y : Number) : Number :=
  if x.isNaN then x else if y.isNaN then y else op x y

/-- The number nearest to a value given in units; `zeroNegative` is the sign of
zero. -/
def ofSignedUnits (zeroNegative : Bool) (u : Int) : Number :=
  if u = 0 then mk' zeroNegative 0 else ofUnits (u < 0) u.natAbs 1

/-- An exact zero is positive, unless both operands are negative zeros. -/
def add : Number → Number → Number :=
  strict fun x y =>
    if x.isInfinite then (if y.isInfinite && x.negative != y.negative then invalid else x)
    else if y.isInfinite then y
    else ofSignedUnits (x.negative && y.negative) (x.signedUnits + y.signedUnits)

def sub (x y : Number) : Number := strict (fun x y => x.add y.neg) x y

def mul : Number → Number → Number :=
  strict fun x y =>
    let negative := x.negative != y.negative
    if x.isInfinite || y.isInfinite then
      if x.isZero || y.isZero then invalid else infinity negative
    else ofUnits negative (x.units * y.units) scale

def div : Number → Number → Number :=
  strict fun x y =>
    let negative := x.negative != y.negative
    if x.isInfinite then (if y.isInfinite then invalid else infinity negative)
    else if y.isInfinite then mk' negative 0
    else if y.isZero then (if x.isZero then invalid else infinity negative)
    else ofUnits negative (x.units * scale) y.units

/-- The remainder of truncated division: it has the sign of the left operand. -/
def rem : Number → Number → Number :=
  strict fun x y =>
    if x.isInfinite || y.isZero then invalid
    else if y.isInfinite then x
    else ofUnits x.negative (x.units % y.units) 1

/-- The sum from left to right; the sum of nothing is negative zero. -/
def sum (xs : List Number) : Number := xs.foldl add negativeZero

/-! ## Roots and powers -/

/-- The largest number whose square is at most `n`. -/
def floorSqrt (n : Nat) : Nat :=
  if n = 0 then 0
  else
    let r := 2 * floorSqrt (n / 4)
    if (r + 1) * (r + 1) ≤ n then r + 1 else r
termination_by n
decreasing_by exact Nat.div_lt_self (by omega) (by omega)

/-- A root that is no whole number of units is told to the rounding as half a
unit more than the whole number below it. -/
def sqrt (x : Number) : Number :=
  if x.isNaN || x.isZero then x
  else if x.negative then invalid
  else if x.isInfinite then x
  else
    let n := x.units * scale
    let r := floorSqrt n
    ofUnits false (2 * r + if r * r = n then 0 else 1) 2

/-- The platform's power of two numbers. -/
def pow (x y : Number) : Number :=
  ofBits (Float.pow (Float.ofBits x.toBits) (Float.ofBits y.toBits)).toBits

/-- `acc` times `x` to the `n`, by repeated squaring. -/
def powerFrom (acc x : Number) (n : Nat) : Number :=
  if n ≤ 1 then (if n = 1 then acc.mul x else acc)
  else powerFrom (if n % 2 = 1 then acc.mul x else acc) (x.mul x) (n / 2)
termination_by n
decreasing_by exact Nat.div_lt_self (by omega) (by omega)

/-- `x` to the `n` in rounded products. -/
def power (x : Number) (n : Nat) : Number := powerFrom (ofNat 1) x n

/-! ## Whole numbers -/

/-- The operation `op` on the magnitude in units, which answers a whole number;
numbers without a fraction stay as they are. -/
def toWhole (op : Bool → Nat → Nat) (x : Number) : Number :=
  if x.isFinite then ofUnits x.negative (op x.negative x.units * scale) 1 else x

def trunc : Number → Number := toWhole fun _ u => u / scale

def floor : Number → Number :=
  toWhole fun negative u => if negative then (u + scale - 1) / scale else u / scale

def ceil : Number → Number :=
  toWhole fun negative u => if negative then u / scale else (u + scale - 1) / scale

/-- The nearest whole number; a half goes away from zero. -/
def round : Number → Number := toWhole fun _ u => (2 * u + scale) / (2 * scale)

end Formulary.Number
