/-
  Values: what fields hold and formulas compute.

  * `Value`: numbers, texts, truth values, dates and null, arrays and objects of
    values, and a fault in the place of a value;
  * `Value.isTruthy`, `Value.isEmpty`: a value as a condition, and as something
    left blank;
  * `Value.toResult`: a value that is a fault becomes one;
  * `Value.blank`: what a field of a kind holds when it has nothing to show;
  * `Value.alike`: the equality of operators, close for numbers and never true
    of containers.
-/
import Formulary.Calendar.Instant
import Formulary.Fault
import Formulary.Field
import Formulary.Names.Entries
import Formulary.Number.Reading
import Formulary.Number.Arithmetic

namespace Formulary

/-- A value.  The entries of an object are sorted by name, each name once. -/
inductive Value where
  | number (x : Number)
  | text (s : String)
  | boolean (b : Bool)
  | array (items : List Value)
  | object (entries : List (String × Value))
  | date (t : Instant)
  | null
  | error (fault : Fault)
  deriving Repr, Inhabited

namespace Value

/-- The name of the kind of a value. -/
def kind : Value → String
  | number _ => "number"
  | text _ => "string"
  | boolean _ => "boolean"
  | array _ => "array"
  | object _ => "object"
  | date _ => "date"
  | null => "null"
  | error _ => "error"

/-- The number nearest to a count. -/
def count (n : Nat) : Value := number (Number.ofNat n)

def asNumber? : Value → Option Number
  | number x => some x
  | _ => none

def asText? : Value → Option String
  | text s => some s
  | _ => none

def isNull : Value → Bool
  | null => true
  | _ => false

/-- Whether a value counts as true: a number other than zero, a text, array or
object with something in it, and every date. -/
def isTruthy : Value → Bool
  | boolean b => b
  | number x => !x.isZero && !x.isNaN
  | text s => !s.isEmpty
  | array items => !items.isEmpty
  | object entries => !entries.isEmpty
  | date _ => true
  | null | error _ => false

/-- Whether a value counts as left blank; zero and false do. -/
def isEmpty : Value → Bool
  | text s => s.isEmpty
  | number x => x.isZero
  | boolean b => !b
  | array items => items.isEmpty
  | object entries => entries.isEmpty
  | null => true
  | date _ | error _ => false

/-- A value that is a fault is raised. -/
def toResult : Value → Except Fault Value
  | error fault => .error fault
  | v => .ok v

/-- What a field of a kind holds when it has nothing to show. -/
def blank : FieldKind → Value
  | .text | .textarea | .dropdown => text ""
  | .number => number Number.zero
  | .multiSelect | .table => array []
  | .date | .other => null

/-- What a field of a kind shows for a result: its value, or else the notice of
its fault, or else the blank value. -/
def shown (kind : FieldKind) : Except Fault Value → Value
  | .ok v => v
  | .error fault => match fault.notice? with
    | some notice => text notice
    | none => blank kind

/-- Numbers nearer to each other than this are alike: `10 ^ -10`. -/
def tolerance : Number := Number.ofDecimal false ⟨1, -10⟩

/-- Whether two values are alike: of one kind and the same, for numbers up to the
tolerance.  Containers are like nothing. -/
def alike : Value → Value → Bool
  | number x, number y => (x.sub y).abs.lt tolerance
  | text s, text t => s == t
  | boolean a, boolean b => a == b
  | date s, date t => s == t
  | null, null => true
  | _, _ => false

end Value
end Formulary
