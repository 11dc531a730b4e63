/-
  Numbers: IEEE 754 binary64 values, in a form that can be computed with and
  reasoned about.

  A number is a sign and an *ordinal*: the exponent and fraction fields read as
  one natural number.  Ordinals count the representable magnitudes from zero
  upwards, so the order of magnitudes is the order of ordinals; `topOrdinal` is
  infinity and everything above it is not a number.  Every finite magnitude is a
  whole multiple of `2 ^ -1074`; `units` is that multiple, and exact results are
  computed with it before they are rounded.

  * `Number.units`, `Number.ofUnits`: the exact magnitude of a number, and the
    number nearest to a ratio of units (ties to the even ordinal);
  * `Number.lt`, `Number.eq`: comparison as numbers, false as soon as one side
    is not a number;
  * `Number.rank`: the total order, which also tells zeros and the signs of
    what is not a number apart;
  * `Number.toInt?`, `Number.clampTo`: the whole part, and the whole part forced
    into a range.
-/

namespace Formulary

-- Powers of whole numbers are those of the core library, whatever else is in scope.
attribute [scoped instance (high)] instPowNat

/-- A binary64 number: its sign, and its exponent and fraction fields read as
one natural number. -/
structure Number where
  negative : Bool
  ordinal : Fin (2 ^ (63 : Nat))
  deriving DecidableEq, Repr

namespace Number

/-- The ordinal of infinity; the ordinals above it are not numbers. -/
def topOrdinal : Nat := 2047 * 2 ^ (52 : Nat)

/-- The exponent `s` for which a magnitude is a whole multiple of `2 ^ -s`. -/
def scale : Nat := 2 ^ (1074 : Nat)

/-- The number with the given sign and ordinal. -/
def mk' (negative : Bool) (ordinal : Nat) : Number :=
  ⟨negative, Fin.ofNat _ ordinal⟩

def zero : Number := mk' false 0

/-- Zero with its sign bit set, where summing starts. -/
def negativeZero : Number := mk' true 0

def infinity (negative : Bool) : Number := mk' negative topOrdinal

/-- A quiet not-a-number of the given sign. -/
def notANumber (negative : Bool) : Number := mk' negative (topOrdinal + 2 ^ (51 : Nat))

/-- What an operation without a result gives, such as infinity less infinity:
not a number, with its sign bit set. -/
def invalid : Number := notANumber true

def isNaN (x : Number) : Bool := topOrdinal < x.ordinal.val

def isInfinite (x : Number) : Bool := x.ordinal.val == topOrdinal

def isFinite (x : Number) : Bool := x.ordinal.val < topOrdinal

def isZero (x : Number) : Bool := x.ordinal.val == 0

/-! ## Bit patterns -/

/-- The 64-bit pattern. -/
def toBits (x : Number) : UInt64 :=
  UInt64.ofNat ((if x.negative then 2 ^ (63 : Nat) else 0) + x.ordinal.val)

def ofBits (bits : UInt64) : Number :=
  mk' (2 ^ (63 : Nat) ≤ bits.toNat) (bits.toNat % 2 ^ (63 : Nat))

/-! ## Exact magnitudes -/

/-- How often the significand of an ordinal is doubled. -/
def doublings (ordinal : Nat) : Nat := ordinal / 2 ^ (52 : Nat) - 1

/-- The magnitude with a given ordinal, in units of `2 ^ -1074`. -/
def unitsOf (ordinal : Nat) : Nat :=
  (ordinal - doublings ordinal * 2 ^ (52 : Nat)) * 2 ^ doublings ordinal

/-- The magnitude of a finite number, in units of `2 ^ -1074`. -/
def units (x : Number) : Nat := unitsOf x.ordinal.val

/-- The value of a finite number, in units of `2 ^ -1074`. -/
def signedUnits (x : Number) : Int :=
  if x.negative then -(x.units : Int) else x.units

/-- The whole number nearest to `num / den`; of two equally near, the even one. -/
def nearest (num den : Nat) : Nat :=
  let q := num / den
  let r := num % den
  if 2 * r < den then q
  else if den < 2 * r then q + 1
  else if q % 2 = 0 then q else q + 1

/-- The ordinal of the magnitude nearest to `num / den` units. -/
def nearestOrdinal (num den : Nat) : Nat :=
  let k := Nat.log2 (num / den) - 52
  min topOrdinal (k * 2 ^ (52 : Nat) + nearest num (den * 2 ^ k))

/-- The number nearest to `num / den` units. -/
def ofUnits (negative : Bool) (num den : Nat) : Number :=
  mk' negative (nearestOrdinal num den)

/-- The number nearest to a natural number. -/
def ofNat (n : Nat) : Number := ofUnits false (n * scale) 1

/-- The number nearest to an integer. -/
def ofInt (n : Int) : Number := ofUnits (n < 0) (n.natAbs * scale) 1

/-! ## Comparison -/

/-- The position of a number on the line, for numbers that have one. -/
def position (x : Number) : Int :=
  if x.negative then -(x.ordinal.val : Int) else x.ordinal.val

def lt (x y : Number) : Bool := !x.isNaN && !y.isNaN && x.position < y.position

def le (x y : Number) : Bool := !x.isNaN && !y.isNaN && x.position ≤ y.position

/-- Equality as numbers: the two zeros agree, and what is not a number agrees
with nothing. -/
def eq (x y : Number) : Bool := !x.isNaN && !y.isNaN && x.position = y.position

/-- The place of a number in the total order of bit patterns: negative before
positive, and on each side by distance from zero. -/
def rank (x : Number) : Int :=
  if x.negative then -(x.ordinal.val : Int) - 1 else x.ordinal.val

/-- The larger of two numbers; a side that is not a number gives way, and of two
equals, which may be the two zeros, the second is taken. -/
def max (x y : Number) : Number := if x.isNaN || x.le y then y else x

/-- The smaller of two numbers, by the same rule. -/
def min (x y : Number) : Number := if x.isNaN || y.le x then y else x

/-! ## Whole parts -/

/-- The value less its fraction, toward zero, of a finite number. -/
def whole (x : Number) : Int :=
  if x.negative then -((x.units / scale : Nat) : Int) else (x.units / scale : Nat)

/-- Whether a number is finite and has no fraction. -/
def isWhole (x : Number) : Bool := x.isFinite && x.units % scale == 0

/-- The integer a number is, if it is one. -/
def toInt? (x : Number) : Option Int := if x.isWhole then some x.whole else none

/-- The whole part forced into `lo … hi`; zero for what is not a number. -/
def clampTo (lo hi : Int) (x : Number) : Int :=
  if x.isNaN then 0
  else if x.isInfinite then (if x.negative then lo else hi)
  else Max.max lo (Min.min hi x.whole)

end Number
end Formulary
