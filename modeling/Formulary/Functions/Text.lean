/-
  Functions of texts: `concat`, `contains`, `length`, `upper`, `lower`, `trim`,
  `join`, `toNumber`, `toString`, `equals`.

  * `concatenation`: arrays put together, or texts of any values;
  * `Value.textualEq`: the equality of `equals`, in which a number or truth value
    equals its text.
-/
import Formulary.Functions.Argument
import Formulary.Text.Blank
import Formulary.Text.Casing
import Formulary.Value.Text

namespace Formulary

/-- Equality in which a number or a truth value equals its text, and in which
only values of these kinds and nulls can be equal. -/
def Value.textualEq : Value → Value → Bool
  | text s, text t => s == t
  | number x, number y => x.eq y
  | boolean a, boolean b => a == b
  | text s, number x | number x, text s => s == x.display
  | text s, boolean b | boolean b, text s => s == toString b
  | null, null => true
  | _, _ => false

namespace Functions

/-- The items of an array; nothing else has items. -/
def itemsOf : Value → List Value
  | .array items => items
  | _ => []

def isArray : Value → Bool
  | .array _ => true
  | _ => false

def isText : Value → Bool
  | .text _ => true
  | _ => false

def isObject : Value → Bool
  | .object _ => true
  | _ => false

/-- The display texts of values one after the other. -/
def joined (vs : List Value) : String := String.join (vs.map Value.display)

/-- Arrays make one array, but a single array of texts makes a text, as do values
of which not all are arrays.  Objects have no text. -/
def concatenation (vs : List Value) : Except Fault Value :=
  if vs.all isArray then
    match vs with
    | [.array items] => .ok (if items.all isText then .text (joined items) else .array items)
    | vs => .ok (.array (vs.flatMap itemsOf))
  else match vs.find? isObject with
    | some v => .error (operandFault "concat" [v])
    | none => .ok (.text (joined vs))

def concatFunction : Builtin := .many "concat" fun args => do
  .ofResult (concatenation (← Argument.values args))

/-- Whether a text occurs in another up to the case of letters. -/
def containsText (whole part : String) : Bool :=
  Text.occurs (Text.lower part).toList (Text.lower whole).toList

def containsFunction : Builtin := .two "contains" fun a b => do
  let whole ← (match ← a.value with
    | .text s => return s
    | .null => return ""
    | v => .raise (operandFault "contains" [v]))
  return .boolean (containsText whole (← b.text "contains"))

/-- The number of characters or items. -/
def lengthFunction : Builtin := .one "length" fun a => do
  match ← a.value with
  | .text s => return .count s.length
  | .array items => return .count items.length
  | .null => return .count 0
  | v => .raise (operandFault "length" [v])

/-- A function from texts to texts. -/
def textFunction (name : String) (f : String → String) : Builtin := .one name fun a => do
  return .text (f (← a.text name))

def joinFunction : Builtin := .two "join" fun a b => do
  match ← a.value with
  | .array items => return .text ((← b.text "join").intercalate (Value.displays items))
  | v => .raise (operandFault "join" [v])

/-- The number that a value stands for: truth values are one and zero, and texts
denote finite numbers. -/
def toNumber : Value → Except Fault Value
  | .number x => .ok (.number x)
  | .boolean b => .ok (.count (if b then 1 else 0))
  | .text s =>
    let trimmed := Text.trimmed s
    match Number.ofText? trimmed with
    | some x => if x.isFinite then .ok (.number x) else .error (.conversion trimmed)
    | none => .error (.conversion trimmed)
  | v => .error (operandFault "toNumber" [v])

def toNumberFunction : Builtin := .one "toNumber" fun a => do
  .ofResult (toNumber (← a.value))

/-- The text of a value: an array stands in brackets, and a date has a space
between day and time. -/
def toText : Value → String
  | .array items => bracketed (Value.displays items)
  | .date t => String.ofList (t.layout ' ')
  | v => v.display

def toStringFunction : Builtin := .one "toString" fun a => do
  return .text (toText (← a.value))

def equalsFunction : Builtin := .two "equals" fun a b => do
  let left ← a.value
  let right ← b.value
  return .boolean (left.textualEq right)

def texts : List Builtin :=
  [concatFunction, containsFunction, lengthFunction, textFunction "upper" Text.upper,
    textFunction "lower" Text.lower, textFunction "trim" Text.trimmed, joinFunction,
    toNumberFunction, toStringFunction, equalsFunction]

end Functions
end Formulary
