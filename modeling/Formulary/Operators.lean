/-
  What operators make of values.

  * `UnaryOp.apply`, `BinaryOp.apply`: the results of operators;
  * `Value.elementAt`: the element of an array, or the entry of an object;
  * `Value.operatorEq`: equality, where an array on the left of a single value
    tests membership.
-/
import Formulary.Expr
import Formulary.Functions.Date
import Formulary.Value.Text

namespace Formulary

/-- The result of an operator before its operand. -/
def UnaryOp.apply : UnaryOp → Value → Except Fault Value
  | .neg, .number x => .ok (.number x.neg)
  | .neg, v => .error (operandFault "-" [v])
  | .not, v => .ok (.boolean !v.isTruthy)

namespace Value

def isContainer : Value → Bool
  | array _ | object _ => true
  | _ => false

/-- Equality; an array on the left of a value that is no container asks whether
the value is among its items. -/
def operatorEq (left right : Value) : Bool :=
  match left with
  | array items => if right.isContainer then false else items.any fun item => item.alike right
  | _ => left.alike right

/-- A comparison of two numbers or two dates, and false for all else. -/
def compare (numbers : Number → Number → Bool) (dates : Instant → Instant → Bool) :
    Value → Value → Bool
  | number x, number y => numbers x y
  | date s, date t => dates s t
  | _, _ => false

/-- The element of an array at an index, or the entry of an object under a name,
which is null where there is none. -/
def elementAt : Value → Value → Except Fault Value
  | array items, number x =>
    let text := Layout.plain.text x
    if x.lt Number.zero || !x.isWhole then .error (.reference s!"[{text}]")
    else match items[x.whole.toNat]? with
      | some v => .ok v
      | none => .error (.reference s!"[{text}] of {items.length} items")
  | object entries, text name => .ok ((Entries.find? name entries).getD null)
  | target, position => .error (operandFault "[]" [target, position])

end Value

namespace BinaryOp

/-- Sums of numbers, texts with the texts of other values, and dates with
milliseconds. -/
def sum : Value → Value → Except Fault Value
  | .number x, .number y => .ok (.number (x.add y))
  | .text s, v => .ok (.text (s ++ v.display))
  | v, .text s => .ok (.text (v.display ++ s))
  | .date t, .number ms | .number ms, .date t =>
    (Functions.shiftBy add.symbol t ms).map .date
  | v, w => .error (operandFault add.symbol [v, w])

/-- Differences of numbers, of dates in milliseconds, and of dates and
milliseconds. -/
def difference : Value → Value → Except Fault Value
  | .number x, .number y => .ok (.number (x.sub y))
  | .date t, .date s => .ok (.number (Number.ofInt (t.millisecondsSince s)))
  | .date t, .number ms => (Functions.shiftBy sub.symbol t ms.neg).map .date
  | v, w => .error (operandFault sub.symbol [v, w])

def product : Value → Value → Except Fault Value
  | .number x, .number y => .ok (.number (x.mul y))
  | v, w => .error (operandFault mul.symbol [v, w])

def quotient : Value → Value → Except Fault Value
  | .number x, .number y =>
    if y.isZero then .error (.domain div.symbol "Division by zero")
    else .ok (.number (x.div y))
  | v, w => .error (operandFault div.symbol [v, w])

/-- The result of an operator between its operands. -/
def apply : BinaryOp → Value → Value → Except Fault Value
  | add, v, w => sum v w
  | sub, v, w => difference v w
  | mul, v, w => product v w
  | div, v, w => quotient v w
  | eq, v, w => .ok (.boolean (v.operatorEq w))
  | notEq, v, w => .ok (.boolean !(v.operatorEq w))
  | lt, v, w => .ok (.boolean (v.compare Number.lt Instant.lt w))
  | gt, v, w => .ok (.boolean (w.compare Number.lt Instant.lt v))
  | le, v, w => .ok (.boolean (v.compare Number.le (fun s t => !t.lt s) w))
  | ge, v, w => .ok (.boolean (w.compare Number.le (fun s t => !t.lt s) v))
  | and, v, w => .ok (.boolean (v.isTruthy && w.isTruthy))
  | or, v, w => .ok (.boolean (v.isTruthy || w.isTruthy))

end BinaryOp
end Formulary
