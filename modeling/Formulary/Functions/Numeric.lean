/-
  Functions of numbers: `sum`, `max`, `min`, `avg`, `average`, `count`, `pow`,
  `sqrt`, `mod`, `ceil`, `floor`, `round`.

  * `numbersIn`: the numbers among values, where arrays count as their items and
    numeric texts as numbers;
  * `countIn`: how many values there are, without nulls.
-/
import Formulary.Functions.Argument
import Formulary.Text.Blank

namespace Formulary.Functions

mutual

/-- The numbers that a value contributes: itself, the number that a text denotes,
or those of its items. -/
def numbersOf : Value → List Number
  | .number x => [x]
  | .text s => (Number.ofText? (Text.trimmed s)).toList
  | .array items => numbersIn items
  | _ => []

def numbersIn : List Value → List Number
  | [] => []
  | v :: rest => numbersOf v ++ numbersIn rest

end

mutual

/-- How many values a value counts as: an array as many as its items, and null as
none. -/
def countOf : Value → Nat
  | .array items => countIn items
  | .null => 0
  | _ => 1

def countIn : List Value → Nat
  | [] => 0
  | v :: rest => countOf v + countIn rest

end

/-- A function of the numbers among its arguments. -/
def numbersFunction (name : String) (f : List Number → Except Fault Number) : Builtin :=
  .many name fun args => do
    let vs ← Argument.values args
    .ofResult ((f (numbersIn vs)).map .number)

def sumFunction : Builtin := numbersFunction "sum" fun xs => .ok (Number.sum xs)

/-- A function that needs at least one number. -/
def someNumbers (name : String) (f : Number → List Number → Number) : Builtin :=
  numbersFunction name fun
    | [] => .error (.type name "no numeric values")
    | x :: rest => .ok (f x rest)

def largest (x : Number) (rest : List Number) : Number := rest.foldl Number.max x

def smallest (x : Number) (rest : List Number) : Number := rest.foldl Number.min x

/-- The mean of numbers: their sum over their count. -/
def mean (x : Number) (rest : List Number) : Number :=
  (Number.sum (x :: rest)).div (Number.ofNat (rest.length + 1))

def countFunction : Builtin := .many "count" fun args => do
  return .count (countIn (← Argument.values args))

/-- A power that is a finite number. -/
def finitePower (base exponent : Number) : Except Fault Value :=
  let result := base.pow exponent
  if result.isNaN then .error (.domain "pow" "Result is not a real number")
  else if result.isInfinite then .error (.domain "pow" "Result is too large")
  else .ok (.number result)

def powFunction : Builtin := .two "pow" fun a b => do
  let base ← a.number "pow"
  let exponent ← b.number "pow"
  .ofResult (finitePower base exponent)

/-- The notice that a field shows for the root of a negative number. -/
def negativeRoot : String := "Cannot calculate square root of negative number"

def squareRoot (x : Number) : Except Fault Value :=
  if x.lt Number.zero then .error (.domain "sqrt" negativeRoot) else .ok (.number x.sqrt)

def sqrtFunction : Builtin := .one "sqrt" fun a => do
  .ofResult (squareRoot (← a.number "sqrt"))

/-- The remainder of truncated division. -/
def remainder (x y : Number) : Except Fault Value :=
  if y.isZero then .error (.domain "mod" "Division by zero") else .ok (.number (x.rem y))

def modFunction : Builtin := .two "mod" fun a b => do
  let x ← a.number "mod"
  let y ← b.number "mod"
  .ofResult (remainder x y)

/-- A function from numbers to numbers. -/
def numberFunction (name : String) (f : Number → Number) : Builtin := .one name fun a => do
  return .number (f (← a.number name))

/-- The nearest number with so many decimal places; a half goes away from zero,
and without places the number is whole. -/
def roundTo (places : Number) (x : Number) : Number :=
  let n := places.clampTo (-2 ^ (31 : Nat)) (2 ^ (31 : Nat) - 1)
  if n ≤ 0 then x.round
  else
    let factor := (Number.ofNat 10).power n.toNat
    (x.mul factor).round.div factor

def roundFunction : Builtin := .oneOrTwo "round" fun a b => do
  let x ← a.number "round"
  match b with
  | some b => return .number (roundTo (← b.number "round") x)
  | none => return .number x.round

def numeric : List Builtin :=
  [sumFunction, someNumbers "max" largest, someNumbers "min" smallest,
    someNumbers "avg" mean, someNumbers "average" mean, countFunction, powFunction,
    sqrtFunction, modFunction, numberFunction "ceil" Number.ceil,
    numberFunction "floor" Number.floor, roundFunction]

end Formulary.Functions
